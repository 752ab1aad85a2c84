import Mathlib
import SvmLight.Proofs.CommandLine.Inputs
import SvmLight.Proofs.Source.Concatenation

/-!
# Reading the accepted input files

A command line is accepted only if its input files are regular files. So none of them is a
directory, on which a source would stay for ever, and a source over them comes to its end. Until
then it hands out every line of every file: the line itself, with the path from the command line and
its number in the file, or an error if it is not text. But nobody has opened the files before. One
that cannot be opened is a single error, in the place of its lines, and one that cannot be read to
its end is never left behind.

* `FileItem` — a line of a file, or a file that cannot be opened.
* `FileSystem.items`, `FileSystem.fault?` — the items of the regular file that a path leads to, and
  why it cannot be read to its end.
* `Supplies` — the items of several files, up to a fault.
* `ReadsPaths.of_isFile` — paths of regular files come to what these files supply.
* `Arguments.outcome_ofWords` — **the input files of an accepted command line are read to their
  end**, unless there is a fault.
-/

namespace SvmLight

/-- A line of a file, as it stands there. -/
structure FileLine where
  /-- the path that leads to the file -/
  path : String
  /-- its octets, with the newline if it has one -/
  octets : List UInt8
  /-- its number in the file, counted from one -/
  number : Nat

/-- What there is to be read. -/
inductive FileItem where
  /-- a line of a file -/
  | line (line : FileLine)
  /-- a file that cannot be opened, for this reason -/
  | unopened (cause : IoError)

/-- What reading an item comes to. -/
inductive FileItem.Reads : FileItem → Event → Prop where
  /-- a line is text, or it is not -/
  | line {line : FileLine} {event : Event}
      (reads : ReadsLine line.path line.octets line.number event) : Reads (.line line) event
  /-- the reason is the error -/
  | unopened (cause : IoError) : Reads (.unopened cause) (.error cause)

namespace FileSystem

/-- The items of the regular file that a path leads to: its lines, or the only one that it has if it
cannot be opened. -/
def items (files : FileSystem) (path : String) : List FileItem :=
  match files.entry path with
  | .ok (.file (.ok content)) =>
    (content.lines.zipIdx 1).map fun piece => .line ⟨path, piece.1, piece.2⟩
  | .ok (.file (.error e)) => [.unopened e]
  | _ => []

/-- Why what a path leads to cannot be read to its end, though it can be opened. -/
def fault? (files : FileSystem) (path : String) : Option IoError :=
  match files.opened path with
  | .ok content => content.fault?
  | .error _ => none

end FileSystem

/-- The items of some files, one file after another, and what comes behind them: the end, or a fault
in the last one. -/
inductive Supplies (files : FileSystem) : List String → List FileItem → Event → Prop where
  /-- no file: the end -/
  | nil : Supplies files [] [] (.ok none)
  /-- a file without a fault is followed by the others -/
  | cons {path : String} {paths : List String} {items : List FileItem} {last : Event}
      (fault_eq : files.fault? path = none) (rest : Supplies files paths items last) :
      Supplies files (path :: paths) (files.items path ++ items) last
  /-- nothing follows a fault -/
  | stuck {path : String} {paths : List String} {e : IoError}
      (fault_eq : files.fault? path = some e) :
      Supplies files (path :: paths) (files.items path) (.error e)

variable {files : FileSystem} {path : String} {paths : List String} {items : List FileItem}
  {outcomes : List Event} {last : Event}

/-- Without a fault they are all items of all files. -/
theorem Supplies.of_readable (h : Supplies files paths items last)
    (hreadable : ∀ path ∈ paths, files.fault? path = none) :
    items = paths.flatMap files.items ∧ last = .ok none := by
  induction h with
  | nil => exact ⟨rfl, rfl⟩
  | cons fault_eq _ ih =>
    obtain ⟨rfl, rfl⟩ := ih fun path hmem => hreadable path (List.mem_cons_of_mem _ hmem)
    exact ⟨List.flatMap_cons.symm, rfl⟩
  | stuck fault_eq =>
    rw [hreadable _ List.mem_cons_self] at fault_eq
    cases fault_eq

/-- An item is no end. -/
theorem FileItem.Reads.ne_end {item : FileItem} {event : Event} (h : item.Reads event) :
    event ≠ .ok none := by
  cases h with
  | line reads =>
    cases reads with
    | text _ => simp
    | notText _ _ => simp
  | unopened cause => simp

theorem FileItem.Reads.eq_of_unopened {cause : IoError} {event : Event}
    (h : (FileItem.unopened cause).Reads event) : event = .error cause := by
  cases h
  rfl

/-- The items of a regular file that can be opened. -/
theorem FileSystem.items_of_opened {content : Content} (h : files.IsFile path)
    (hopened : files.opened path = .ok content) :
    files.items path =
      (content.lines.zipIdx 1).map fun piece => .line ⟨path, piece.1, piece.2⟩ := by
  obtain ⟨result, hentry⟩ := h
  rw [FileSystem.opened_of_file hentry] at hopened
  rw [items, hentry, hopened]

/-- The item of a regular file that cannot be opened. -/
theorem FileSystem.items_of_unopened {e : IoError} (h : files.IsFile path)
    (hopened : files.opened path = .error e) : files.items path = [.unopened e] := by
  obtain ⟨result, hentry⟩ := h
  rw [FileSystem.opened_of_file hentry] at hopened
  rw [items, hentry, hopened]

/-- **Paths of regular files come to what these files supply.** -/
theorem ReadsPaths.of_isFile (h : ReadsPaths files paths outcomes last)
    (hfiles : ∀ path ∈ paths, files.IsFile path) :
    ∃ items, Supplies files paths items last ∧ List.Forall₂ FileItem.Reads items outcomes := by
  induction h with
  | nil => exact ⟨[], .nil, .nil⟩
  | unopened opened _ ih =>
    obtain ⟨items, hsupplies, hreads⟩ :=
      ih fun path hmem => hfiles path (List.mem_cons_of_mem _ hmem)
    refine ⟨_, .cons (by rw [FileSystem.fault?, opened]) hsupplies, ?_⟩
    rw [FileSystem.items_of_unopened (hfiles _ List.mem_cons_self) opened]
    exact .cons (.unopened _) hreads
  | file opened reads _ ih =>
    obtain ⟨items, hsupplies, hreads⟩ :=
      ih fun path hmem => hfiles path (List.mem_cons_of_mem _ hmem)
    refine ⟨_, .cons (by rw [FileSystem.fault?, opened]) hsupplies, ?_⟩
    rw [FileSystem.items_of_opened (hfiles _ List.mem_cons_self) opened]
    exact List.rel_append (List.forall₂_map_left_iff.2 (reads.imp fun _ _ hline => .line hline))
      hreads
  | faulty opened reads =>
    -- no other path is read behind the fault
    refine ⟨_, .stuck (by rw [FileSystem.fault?, opened]), ?_⟩
    rw [FileSystem.items_of_opened (hfiles _ List.mem_cons_self) opened]
    exact List.forall₂_map_left_iff.2 (reads.imp fun _ _ hline => .line hline)

/-- **The input files of an accepted command line are read to their end.** There is at least one,
all of them are regular files, and they are words of the command line, in their order. Every request
is answered with what the next line comes to — or with the reason why a file cannot be opened —, as
many times as there are lines and such files, and from then on there is the end. Only a fault in
reading a file changes that: it is the answer to every request behind the lines in front of it. -/
theorem Arguments.outcome_ofWords {words : List String} {a : Arguments}
    (h : Arguments.ofWords files words = .ok a) :
    a.inputs ≠ [] ∧ a.inputs.Sublist words ∧ (∀ path ∈ a.inputs, files.IsFile path) ∧
      ∃ items last, Supplies files a.inputs items last ∧
        ((∀ path ∈ a.inputs, files.fault? path = none) →
          items = a.inputs.flatMap files.items ∧ last = .ok none) ∧
        ∀ n, (∀ item, items[n]? = some item →
            item.Reads (LineSource.outcome (FileLines.ofPaths files a.inputs) n)) ∧
          (items.length ≤ n → LineSource.outcome (FileLines.ofPaths files a.inputs) n = last) ∧
          (LineSource.outcome (FileLines.ofPaths files a.inputs) n = .ok none →
            items.length ≤ n) := by
  obtain ⟨hne, hsublist, hfiles⟩ := inputs_of_ofWords h
  obtain ⟨outcomes, last, hreads, hyields⟩ :=
    FileLines.exists_yields_waiting files a.inputs a.inputs
  obtain ⟨items, hsupplies, hitems⟩ := hreads.of_isFile hfiles
  obtain ⟨hlength, hitem⟩ := List.forall₂_iff_get.1 hitems
  refine ⟨hne, hsublist, hfiles, items, last, hsupplies, hsupplies.of_readable, ?_⟩
  intro n
  have hreadsItem : ∀ item, items[n]? = some item →
      item.Reads (LineSource.outcome (FileLines.ofPaths files a.inputs) n) := by
    intro item hget
    obtain ⟨hlt, rfl⟩ := List.getElem?_eq_some_iff.1 hget
    have hlt' : n < outcomes.length := hlength ▸ hlt
    rw [FileLines.ofPaths, hyields n, List.getD_eq_getElem _ _ hlt']
    exact hitem n hlt hlt'
  refine ⟨hreadsItem, ?_, ?_⟩
  · intro hle
    rw [FileLines.ofPaths, hyields n, List.getD_eq_default _ _ (hlength ▸ hle)]
  · intro hend
    -- an item in this place would not be the end
    by_contra hlt
    exact (hreadsItem _ (List.getElem?_eq_getElem (Nat.lt_of_not_le hlt))).ne_end hend

/-- One file, given twice in two ways, and another one, between them, that cannot be opened: the
second line of the file is not text. -/
theorem Arguments.outcome_ofWords_given_twice :
    let files : FileSystem := ⟨fun path =>
      if path = "in" ∨ path = "./in" then .ok (.file (.ok ⟨[0x31, 0x0A, 0xFF], none⟩))
      else if path = "sealed" then .ok (.file (.error .permissionDenied))
      else .error .notFound⟩
    let words := ["in", "sealed", "--num-features", "1", "./in"]
    let source := FileLines.ofPaths files ["in", "sealed", "./in"]
    (∃ a, Arguments.ofWords files words = .ok a ∧ a.inputs = ["in", "sealed", "./in"]) ∧
      LineSource.outcome source 2 = .error .permissionDenied ∧
      ReadsLine "./in" [0xFF] 2 (LineSource.outcome source 4) ∧
      ∀ n, LineSource.outcome source n = .ok none ↔ 5 ≤ n := by
  have hread :
      let files : FileSystem := ⟨fun path =>
        if path = "in" ∨ path = "./in" then .ok (.file (.ok ⟨[0x31, 0x0A, 0xFF], none⟩))
        else if path = "sealed" then .ok (.file (.error .permissionDenied))
        else .error .notFound⟩
      Arguments.ofWords files ["in", "sealed", "--num-features", "1", "./in"] =
          .ok ⟨["in", "sealed", "./in"], 1, false, false, false, none, none, 64, false, none, .zero,
            false⟩ ∧
        ["in", "sealed", "./in"].map files.fault? = [none, none, none] ∧
        ["in", "sealed", "./in"].flatMap files.items =
          [.line ⟨"in", [0x31, 0x0A], 1⟩, .line ⟨"in", [0xFF], 2⟩, .unopened .permissionDenied,
            .line ⟨"./in", [0x31, 0x0A], 1⟩, .line ⟨"./in", [0xFF], 2⟩] := by
    cbv
    exact ⟨rfl, trivial⟩
  intro files words source
  obtain ⟨hwords, hfaults, hitems⟩ := hread
  obtain ⟨-, -, -, items, last, -, hreadable, houtcome⟩ := Arguments.outcome_ofWords hwords
  have hnone : ∀ path ∈ ["in", "sealed", "./in"], files.fault? path = none :=
    List.map_eq_replicate_iff.1 hfaults
  obtain ⟨rfl, rfl⟩ := hreadable hnone
  simp only [hitems] at houtcome
  refine ⟨⟨_, hwords, rfl⟩, ?_, ?_, ?_⟩
  · exact ((houtcome 2).1 _ rfl).eq_of_unopened
  · cases (houtcome 4).1 _ rfl with
    | line reads => exact reads
  · exact fun n => ⟨(houtcome n).2.2, (houtcome n).2.1⟩

/-- So an accepted file can fail to be opened: the source over it begins with an error that says
nothing of a line. And one that can be opened can fail to be read: the source over it does not come
to an end. -/
theorem Arguments.outcome_ofWords_unopened :
    (let files := FileSystem.ofEntries []
      let words := ["/proc/sys/vm/drop_caches", "--num-features", "1"]
      ∃ a : Arguments, Arguments.ofWords files words = .ok a ∧
        LineSource.outcome (FileLines.ofPaths files a.inputs) 0 = .error .permissionDenied ∧
        ¬∀ n e, LineSource.outcome (FileLines.ofPaths files a.inputs) n = .error e →
          ∃ line defect, e = .notUtf8 line defect) ∧
      let files : FileSystem := ⟨fun path =>
        if path = "in" then .ok (.file (.ok ⟨[0x31, 0x0A, 0x32], some .deviceFault⟩))
        else .error .notFound⟩
      ∃ a : Arguments, Arguments.ofWords files ["in", "--num-features", "1"] = .ok a ∧
        ∀ n, LineSource.outcome (FileLines.ofPaths files a.inputs) n ≠ .ok none := by
  refine ⟨?_, ?_⟩
  · intro files words
    have hwords : Arguments.ofWords files words =
        .ok ⟨["/proc/sys/vm/drop_caches"], 1, false, false, false, none, none, 64, false, none,
          .zero, false⟩ := rfl
    have hfirst : LineSource.outcome (FileLines.ofPaths files ["/proc/sys/vm/drop_caches"]) 0 =
        .error .permissionDenied := rfl
    refine ⟨_, hwords, hfirst, ?_⟩
    intro hall
    obtain ⟨line, defect, hcause⟩ := hall 0 _ hfirst
    cases hcause
  · intro files
    have hwords : Arguments.ofWords files ["in", "--num-features", "1"] =
        .ok ⟨["in"], 1, false, false, false, none, none, 64, false, none, .zero, false⟩ := rfl
    have hyields : LineSource.Yields (FileLines.ofPaths files ["in"])
        [.ok (some ⟨['1'], ⟨1, some "in"⟩⟩), .error .deviceFault] (.error .deviceFault) :=
      .cons rfl (.cons rfl (.stay rfl))
    refine ⟨_, hwords, ?_⟩
    intro n
    rw [hyields n]
    rcases n with _ | _ | n
    · simp
    · simp
    · simp

end SvmLight
