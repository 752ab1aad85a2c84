import Mathlib.Data.List.Forall2
import SvmLight.Proofs.Source.Files
import SvmLight.Proofs.Source.Outcomes

/-!
# Files one after another

What a source over several files hands out is laid down by the files alone: for each path, in the
order of the paths, an error if it cannot be opened, and else the lines of the file with their
numbers. A fault in reading is an error for ever, and so is a directory.

* `octetLines`, `wholeLines` — the lines of a file, all of them at once, and those that can be read
  in front of a fault.
* `Content.Step` — what reading one line of a content comes to.
* `ReadsLine`, `ReadsPaths` — what a line comes to, and what paths come to.
* `exists_yields_opened` — an open file yields what is left of its lines, and then what the waiting
  files yield, or its fault.
* `outcome_ofPaths` — **a source over files reads these files and nothing else**, and does so again
  whenever it is rewound.
-/

namespace SvmLight

open LineSource (Yields Reached)
open Utf8 (encode)

/-! ### The lines of a file -/

/-- The lines of some octets that end with a newline. -/
def wholeLines (octets : List UInt8) : List (List UInt8) :=
  (octets.splitOn newline).dropLast.map (· ++ [newline])

/-- The lines of some octets: each piece that ends with a newline, and what follows the last
newline if it is not empty. -/
def octetLines (octets : List UInt8) : List (List UInt8) :=
  wholeLines octets ++ (octets.splitOn newline).getLast?.toList.filter (!·.isEmpty)

theorem wholeLines_of_not_mem {octets : List UInt8} (h : newline ∉ octets) :
    wholeLines octets = [] := by
  rw [wholeLines, List.splitOn_eq_singleton h]
  rfl

theorem octetLines_of_not_mem {octets : List UInt8} (h : newline ∉ octets) (hne : octets ≠ []) :
    octetLines octets = [octets] := by
  cases octets with
  | nil => exact absurd rfl hne
  | cons octet octets => rw [octetLines, wholeLines, List.splitOn_eq_singleton h]; rfl

theorem wholeLines_append {octets : List UInt8} (h : newline ∉ octets) (rest : List UInt8) :
    wholeLines (octets ++ newline :: rest) = (octets ++ [newline]) :: wholeLines rest := by
  obtain ⟨piece, pieces, hrest⟩ :=
    List.exists_cons_of_ne_nil (List.splitOn_ne_nil newline rest)
  rw [wholeLines, wholeLines, List.splitOn_append_cons_self_of_not_mem h rest, hrest,
    List.dropLast_cons_cons, List.map_cons]

theorem octetLines_append {octets : List UInt8} (h : newline ∉ octets) (rest : List UInt8) :
    octetLines (octets ++ newline :: rest) = (octets ++ [newline]) :: octetLines rest := by
  obtain ⟨piece, pieces, hrest⟩ :=
    List.exists_cons_of_ne_nil (List.splitOn_ne_nil newline rest)
  rw [octetLines, octetLines, wholeLines_append h,
    List.splitOn_append_cons_self_of_not_mem h rest, hrest, List.getLast?_cons_cons,
    List.cons_append]

/-- The lines of a content. -/
def Content.lines (c : Content) : List (List UInt8) :=
  c.fault?.elim (octetLines c.octets) fun _ => wholeLines c.octets

/-- What reading one line of a content comes to. -/
inductive Content.Step (c : Content) : Option (Except IoError (List UInt8) × Content) → Prop where
  /-- no line is left, and there is no fault behind them -/
  | exhausted (lines_eq : c.lines = []) (fault_eq : c.fault? = none) : Step c none
  /-- the first line -/
  | line {line : List UInt8} {c' : Content} (lines_eq : c.lines = line :: c'.lines)
      (fault_eq : c.fault? = c'.fault?) (shorter : c'.octets.length < c.octets.length) :
      Step c (some (.ok line, c'))
  /-- no line is left in front of a fault -/
  | fault {e : IoError} (lines_eq : c.lines = []) (fault_eq : c.fault? = some e) :
      Step c (some (.error e, ⟨[], some e⟩))

/-- Reading line by line gives these lines. -/
theorem Content.step_readLine (c : Content) : c.Step c.readLine := by
  obtain ⟨octets, fault?⟩ := c
  by_cases hmem : newline ∈ octets
  · -- a line with its newline is read whether there is a fault behind it or not
    obtain ⟨front, rest, rfl, hfront⟩ := List.eq_append_cons_of_mem hmem
    have hsplit := splitLine_append hfront rest
    have hlt := length_lt_of_splitLine hsplit
    have hwhole : newline ∈ front ++ [newline] := List.mem_append_right _ List.mem_cons_self
    cases fault? with
    | none =>
      simp only [readLine, hsplit]
      exact .line (octetLines_append hfront rest) rfl hlt
    | some e =>
      simp only [readLine, hsplit, if_pos hwhole]
      exact .line (wholeLines_append hfront rest) rfl hlt
  · by_cases hne : octets = []
    · subst hne
      cases fault? with
      | none => exact .exhausted rfl rfl
      | some e => exact .fault rfl rfl
    · -- octets without one are the last line, or are lost in the fault
      have hsplit := splitLine_of_not_mem hmem hne
      have hlt := length_lt_of_splitLine hsplit
      cases fault? with
      | none =>
        simp only [readLine, hsplit]
        exact .line (octetLines_of_not_mem hmem hne) rfl hlt
      | some e =>
        simp only [readLine, hsplit, if_neg hmem]
        exact .fault (wholeLines_of_not_mem hmem) rfl

/-! ### What is there to be read -/

/-- What a line of a file comes to. -/
inductive ReadsLine (path : String) (octets : List UInt8) (number : Nat) : Event → Prop where
  /-- the octets of a text: all newlines and carriage returns at its end are taken off -/
  | text {t : Text} (octets_eq : octets = encode t) :
      ReadsLine path octets number (.ok (some ⟨t.dropEndWhile isLineEnd, ⟨number, some path⟩⟩))
  /-- the octets of no text -/
  | notText (octets_ne : ∀ t, octets ≠ encode t) (defect : Utf8.Defect) :
      ReadsLine path octets number (.error (.notUtf8 number defect))

/-- What the files with some paths come to, one path after another, and what every later request
comes to. -/
inductive ReadsPaths (files : FileSystem) : List String → List Event → Event → Prop where
  /-- no path: the end -/
  | nil : ReadsPaths files [] [] (.ok none)
  /-- a path that cannot be opened is one error -/
  | unopened {path : String} {paths : List String} {outcomes : List Event} {last : Event}
      {e : IoError} (opened : files.opened path = .error e)
      (rest : ReadsPaths files paths outcomes last) :
      ReadsPaths files (path :: paths) (.error e :: outcomes) last
  /-- a file that is read to its end is its lines, counted from one -/
  | file {path : String} {paths : List String} {octets : List UInt8} {lines outcomes : List Event}
      {last : Event} (opened : files.opened path = .ok ⟨octets, none⟩)
      (reads : List.Forall₂ (fun piece => ReadsLine path piece.1 piece.2)
        ((octetLines octets).zipIdx 1) lines)
      (rest : ReadsPaths files paths outcomes last) :
      ReadsPaths files (path :: paths) (lines ++ outcomes) last
  /-- a fault in reading is an error for ever, behind the lines in front of it -/
  | faulty {path : String} {paths : List String} {octets : List UInt8} {lines : List Event}
      {e : IoError} (opened : files.opened path = .ok ⟨octets, some e⟩)
      (reads : List.Forall₂ (fun piece => ReadsLine path piece.1 piece.2)
        ((wholeLines octets).zipIdx 1) lines) :
      ReadsPaths files (path :: paths) lines (.error e)

/-- What comes for ever is the end or an error. -/
theorem ReadsPaths.last_eq {files : FileSystem} {paths : List String} {outcomes : List Event}
    {last : Event} (h : ReadsPaths files paths outcomes last) :
    last = .ok none ∨ ∃ e, last = .error e := by
  induction h with
  | nil => exact .inl rfl
  | unopened _ _ ih => exact ih
  | file _ _ _ ih => exact ih
  | @faulty _ _ _ _ e _ _ => exact .inr ⟨e, rfl⟩

/-- A directory is nothing but an error for ever. -/
theorem readsPaths_directory {files : FileSystem} {path : String}
    (h : files.entry path = .ok (.directory (.ok ()))) (paths : List String) :
    ReadsPaths files (path :: paths) [] (.error .isADirectory) := by
  have hopened : files.opened path = .ok Content.directory := by
    rw [FileSystem.opened, h]
    rfl
  exact .faulty hopened .nil

namespace FileLines

variable {files : FileSystem} {path : String} {paths waiting : List String}
  {outcomes : List Event} {last : Event}

/-- Decoding a line comes to what it should come to. -/
theorem readsLine_decodeLine (path : String) (octets : List UInt8) (number : Nat) :
    ReadsLine path octets number (decodeLine path number octets) := by
  cases hdecode : Utf8.decode octets with
  | ok t =>
    have hoctets : octets = encode t := Utf8.decode_eq_ok_iff.1 hdecode
    rw [hoctets, decodeLine_encode]
    exact .text rfl
  | error defect =>
    have hnone : ∀ t, octets ≠ encode t := by
      intro t ht
      rw [Utf8.decode_eq_ok_iff.2 ht] at hdecode
      cases hdecode
    rw [decodeLine, hdecode]
    exact .notText hnone defect

/-! ### Reading on -/

/-- What is read behind the lines of an open file: what is waiting, or the fault for ever. -/
inductive Behind (files : FileSystem) (paths waiting : List String) :
    Option IoError → List Event → Event → Prop where
  /-- the waiting files -/
  | waiting {outcomes : List Event} {last : Event}
      (yields : Yields (⟨files, paths, waiting, none⟩ : FileLines) outcomes last) :
      Behind files paths waiting none outcomes last
  /-- the fault -/
  | fault (e : IoError) : Behind files paths waiting (some e) [] (.error e)

/-- An open file is read to its end or its fault. -/
theorem exists_yields_opened (path : String) (content : Content) (count : Nat)
    (hbehind : Behind files paths waiting content.fault? outcomes last) :
    ∃ lines, List.Forall₂ (fun piece => ReadsLine path piece.1 piece.2)
        (content.lines.zipIdx (count + 1)) lines ∧
      Yields (⟨files, paths, waiting, some ⟨path, count, content⟩⟩ : FileLines)
        (lines ++ outcomes) last := by
  -- each line leaves fewer octets
  induction hlength : content.octets.length using Nat.strong_induction_on
    generalizing content count with
  | _ length ih =>
    have hstep := content.step_readLine
    generalize hread : content.readLine = step at hstep
    cases hstep with
    | exhausted lines_eq fault_eq =>
      rw [fault_eq] at hbehind
      cases hbehind with
      | waiting yields =>
        have hnext : LineSource.next
            (⟨files, paths, waiting, some ⟨path, count, content⟩⟩ : FileLines) =
            LineSource.next (⟨files, paths, waiting, none⟩ : FileLines) := by
          simp only [LineSource.next, FileLines.next, OpenFile.next?, hread]
          rfl
        rw [lines_eq]
        exact ⟨[], .nil, Yields.congr hnext yields⟩
    | @line line rest lines_eq fault_eq shorter =>
      have hnext : LineSource.next
          (⟨files, paths, waiting, some ⟨path, count, content⟩⟩ : FileLines) =
          (decodeLine path (count + 1) line,
            ⟨files, paths, waiting, some ⟨path, count + 1, rest⟩⟩) := by
        simp only [LineSource.next, FileLines.next, OpenFile.next?, hread]
      rw [fault_eq] at hbehind
      obtain ⟨lines, hreads, hyields⟩ := ih _ (hlength ▸ shorter) rest (count + 1) hbehind rfl
      refine ⟨decodeLine path (count + 1) line :: lines, ?_, Yields.cons hnext hyields⟩
      rw [lines_eq, List.zipIdx_cons]
      exact .cons (readsLine_decodeLine path line (count + 1)) hreads
    | @fault e lines_eq fault_eq =>
      rw [fault_eq] at hbehind
      cases hbehind with
      | fault =>
        have hnext : LineSource.next
            (⟨files, paths, waiting, some ⟨path, count, content⟩⟩ : FileLines) =
            (.error e, ⟨files, paths, waiting, some ⟨path, count, ⟨[], some e⟩⟩⟩) := by
          simp only [LineSource.next, FileLines.next, OpenFile.next?, hread]
        rw [lines_eq]
        exact ⟨[], .nil, Yields.again hnext (Yields.stay rfl)⟩

/-- The waiting files are read in their order, up to a fault. -/
theorem exists_yields_waiting (files : FileSystem) (paths waiting : List String) :
    ∃ outcomes last, ReadsPaths files waiting outcomes last ∧
      Yields (⟨files, paths, waiting, none⟩ : FileLines) outcomes last := by
  induction waiting with
  | nil => exact ⟨[], .ok none, .nil, Yields.stay rfl⟩
  | cons path waiting ih =>
    obtain ⟨outcomes, last, hreads, hyields⟩ := ih
    cases hopened : files.opened path with
    | error e =>
      have hnext : LineSource.next (⟨files, paths, path :: waiting, none⟩ : FileLines) =
          (.error e, ⟨files, paths, waiting, none⟩) := by
        simp only [LineSource.next, next, advance, openNext, hopened]
      exact ⟨.error e :: outcomes, last, .unopened hopened hreads, Yields.cons hnext hyields⟩
    | ok content =>
      have hnext : LineSource.next (⟨files, paths, path :: waiting, none⟩ : FileLines) =
          LineSource.next (⟨files, paths, waiting, some ⟨path, 0, content⟩⟩ : FileLines) :=
        next_opened hopened
      obtain ⟨octets, fault?⟩ := content
      cases fault? with
      | none =>
        obtain ⟨lines, hlines, hopen⟩ :=
          exists_yields_opened path ⟨octets, none⟩ 0 (.waiting hyields)
        exact ⟨lines ++ outcomes, last, .file hopened hlines hreads, Yields.congr hnext hopen⟩
      | some e =>
        -- the file stays open, and what waits behind it keeps waiting
        have hbehind : Behind files paths waiting (some e) [] (.error e) := .fault e
        obtain ⟨lines, hlines, hopen⟩ := exists_yields_opened path ⟨octets, some e⟩ 0 hbehind
        rw [List.append_nil] at hopen
        exact ⟨lines, .error e, .faulty hopened hlines, Yields.congr hnext hopen⟩

/-- **A source over files reads these files and nothing else.** Its outcomes are those of its paths
in their order, and so they are once more after it has been rewound, whatever it has been asked
before. -/
theorem outcome_ofPaths (files : FileSystem) (paths : List String) :
    ∃ outcomes last, ReadsPaths files paths outcomes last ∧
      (∀ n, LineSource.outcome (ofPaths files paths) n = outcomes.getD n last) ∧
      ∀ f, Reached (ofPaths files paths) f →
        ∀ n, LineSource.outcome (LineSource.rewind f) n = outcomes.getD n last := by
  obtain ⟨outcomes, last, hreads, hyields⟩ := exists_yields_waiting files paths paths
  refine ⟨outcomes, last, hreads, hyields, ?_⟩
  intro f hreached
  rw [hreached.rewind_eq]
  exact hyields

/-- A path that leads nowhere, a file with a line that is not text, and a directory in front of the
same file: after five requests the source is stuck at the directory. -/
theorem outcome_ofPaths_stuck :
    let files : FileSystem := ⟨fun path =>
      if path = "file" then .ok (.file (.ok ⟨[0x31, 0x0D, 0x0A, 0xFF], none⟩))
      else if path = "directory" then .ok (.directory (.ok ()))
      else .error .notFound⟩
    let paths := ["nothing", "file", "directory", "file"]
    let stuck := LineSource.after (ofPaths files paths) 5
    Reached (ofPaths files paths) stuck ∧
      ∃ outcomes last, ReadsPaths files paths outcomes last ∧
        (∀ n, LineSource.outcome (ofPaths files paths) n = outcomes.getD n last) ∧
        ∀ n, LineSource.outcome (LineSource.rewind stuck) n = outcomes.getD n last := by
  intro files paths stuck
  have hreached : Reached (ofPaths files paths) stuck := LineSource.reached_after _ 5
  obtain ⟨outcomes, last, hreads, hfirst, hagain⟩ := outcome_ofPaths files paths
  exact ⟨hreached, outcomes, last, hreads, hfirst, hagain stuck hreached⟩

end FileLines

end SvmLight
