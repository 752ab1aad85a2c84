import SvmLight.FileSystem
import SvmLight.Source

/-!
# Lines of files

The lines of several files, one file after another. Each file is opened when the one before it is
exhausted, and its lines are numbered from one.

* A file that cannot be opened is one error, and is not tried again.
* A file that cannot be read on is an error each time: no later file is reached until the source is
  rewound. Octets in front of the fault that make no whole line are lost in it. A directory can be
  opened, so it is such a file.
* A line that is not UTF-8 is one error; it counts, and reading goes on after it.

A line ends after a newline or where the file ends. All newlines and carriage returns at its end
are taken off its text.
-/

namespace SvmLight

/-! ### Lines of octets -/

/-- Ends a line. -/
def newline : UInt8 := 10

/-- The first line of some octets, with its newline if it has one, and the octets after it. -/
def splitLine (octets : List UInt8) : Option (List UInt8 × List UInt8) :=
  match octets with
  | [] => none
  | _ :: _ =>
    match octets.dropWhile (· != newline) with
    | [] => some (octets, [])
    | ending :: rest => some (octets.takeWhile (· != newline) ++ [ending], rest)

/-- A line is a non-empty part of the octets, and the rest is what is left of them. -/
theorem splitLine_eq_some {octets line rest : List UInt8}
    (h : splitLine octets = some (line, rest)) : line ++ rest = octets ∧ line ≠ [] := by
  unfold splitLine at h
  split at h
  · simp at h
  · split at h
    · obtain ⟨rfl, rfl⟩ := Prod.mk.inj (Option.some.inj h)
      exact ⟨List.append_nil _, List.cons_ne_nil _ _⟩
    · rename_i ending rest' hdrop
      obtain ⟨rfl, rfl⟩ := Prod.mk.inj (Option.some.inj h)
      refine ⟨?_, by simp⟩
      rw [List.append_assoc, List.singleton_append, ← hdrop, List.takeWhile_append_dropWhile]

theorem length_lt_of_splitLine {octets line rest : List UInt8}
    (h : splitLine octets = some (line, rest)) : rest.length < octets.length := by
  obtain ⟨rfl, hne⟩ := splitLine_eq_some h
  have := List.length_pos_iff.2 hne
  rw [List.length_append]
  omega

/-- What is read next of a content, and what is left then: a line, or the fault. In front of a fault
there is no line without a newline. -/
def Content.readLine (c : Content) : Option (Except IoError (List UInt8) × Content) :=
  match splitLine c.octets, c.fault? with
  | none, none => none
  | none, some e => some (.error e, c)
  | some (line, rest), none => some (.ok line, { c with octets := rest })
  | some (line, rest), some e =>
    if newline ∈ line then some (.ok line, { c with octets := rest })
    else some (.error e, { c with octets := rest })

/-- Reading leaves fewer octets, or it leaves everything as it is and has come upon a fault. -/
theorem Content.of_readLine {c c' : Content} {x : Except IoError (List UInt8)}
    (h : c.readLine = some (x, c')) :
    c'.octets.length < c.octets.length ∨ c' = c ∧ ∃ e, x = .error e := by
  unfold readLine at h
  split at h
  · cases h
  · rename_i e _ _
    cases h
    exact .inr ⟨rfl, e, rfl⟩
  · rename_i hline _
    cases h
    exact .inl (length_lt_of_splitLine hline)
  · rename_i hline _
    split at h
    · cases h
      exact .inl (length_lt_of_splitLine hline)
    · cases h
      exact .inl (length_lt_of_splitLine hline)

/-! ### The source -/

/-- What is open. -/
structure OpenFile where
  /-- the path of the file -/
  path : String
  /-- how many lines have been read -/
  count : Nat
  /-- what is left of it -/
  content : Content
deriving DecidableEq

/-- Files to be read one after another. -/
structure FileLines where
  /-- where the files are -/
  files : FileSystem
  /-- the paths of all files -/
  paths : List String
  /-- the paths of the files that have not been opened -/
  waiting : List String
  /-- what is open -/
  current : Option OpenFile

namespace FileLines

/-- The files with these paths, none of them opened. -/
def ofPaths (files : FileSystem) (paths : List String) : FileLines := ⟨files, paths, paths, none⟩

/-- The line that some octets are, or what is wrong with them. -/
def decodeLine (path : String) (number : Nat) (octets : List UInt8) :
    Except IoError (Option SourceLine) :=
  match Utf8.decode octets with
  | .ok text =>
    .ok (some ⟨text.dropEndWhile fun c => c == '\n' || c == '\r', ⟨number, some path⟩⟩)
  | .error defect => .error (.notUtf8 number defect)

theorem decodeLine_ne_end (path : String) (number : Nat) (octets : List UInt8) :
    decodeLine path number octets ≠ .ok none := by
  rw [decodeLine]
  split <;> simp

end FileLines

/-- The next line of what is open, or an error, and what is open then. -/
def OpenFile.next? (f : OpenFile) : Option (Except IoError (Option SourceLine) × OpenFile) :=
  match f.content.readLine with
  | none => none
  | some (.ok line, content) =>
    some (FileLines.decodeLine f.path (f.count + 1) line, ⟨f.path, f.count + 1, content⟩)
  | some (.error e, content) => some (.error e, ⟨f.path, f.count, content⟩)

/-- A step in what is open is one in its content. -/
theorem OpenFile.exists_readLine {f f' : OpenFile} {event : Except IoError (Option SourceLine)}
    (h : f.next? = some (event, f')) :
    ∃ x, f.content.readLine = some (x, f'.content) ∧ event ≠ .ok none ∧
      ∀ line, event = .ok (some line) → ∃ octets, x = .ok octets := by
  unfold next? at h
  split at h
  · cases h
  · rename_i octets content hread
    cases h
    exact ⟨_, hread, FileLines.decodeLine_ne_end _ _ _, fun _ _ => ⟨octets, rfl⟩⟩
  · rename_i e content hread
    cases h
    exact ⟨_, hread, by simp, fun _ hline => by cases hline⟩

theorem OpenFile.length_le_of_next? {f f' : OpenFile} {event : Except IoError (Option SourceLine)}
    (h : f.next? = some (event, f')) : f'.content.octets.length ≤ f.content.octets.length := by
  obtain ⟨x, hread, -, -⟩ := exists_readLine h
  rcases Content.of_readLine hread with hlt | ⟨heq, -⟩
  · exact Nat.le_of_lt hlt
  · exact Nat.le_of_eq (congrArg (·.octets.length) heq)

theorem OpenFile.length_lt_of_next? {f f' : OpenFile} {line : SourceLine}
    (h : f.next? = some (.ok (some line), f')) :
    f'.content.octets.length < f.content.octets.length := by
  obtain ⟨x, hread, -, hline⟩ := exists_readLine h
  obtain ⟨octets, rfl⟩ := hline line rfl
  rcases Content.of_readLine hread with hlt | ⟨-, e, herror⟩
  · exact hlt
  · cases herror

namespace FileLines

/-- Opens the waiting files until one of them has a line or an error. Gives that, what is open
then, and which files are still waiting. -/
def openNext (files : FileSystem) :
    List String → Except IoError (Option SourceLine) × Option OpenFile × List String
  | [] => (.ok none, none, [])
  | path :: waiting =>
    match files.opened path with
    | .error e => (.error e, none, waiting)
    | .ok content =>
      match (OpenFile.mk path 0 content).next? with
      | none => openNext files waiting
      | some (event, file) => (event, some file, waiting)

/-- Goes on to the waiting files. -/
def advance (f : FileLines) : Except IoError (Option SourceLine) × FileLines :=
  let step := openNext f.files f.waiting
  (step.1, { f with current := step.2.1, waiting := step.2.2 })

/-- The next line: of the open file, or of the first waiting one that has any. -/
def next (f : FileLines) : Except IoError (Option SourceLine) × FileLines :=
  match f.current with
  | none => f.advance
  | some file =>
    match file.next? with
    | none => f.advance
    | some (event, file) => (event, { f with current := some file })

/-- Closes what is open and goes back to the first file. -/
def rewind (f : FileLines) : FileLines := { f with waiting := f.paths, current := none }

/-! ### What is left -/

/-- How many octets are left to be read. -/
def remaining (f : FileLines) : Nat :=
  f.current.elim 0 (·.content.octets.length) + f.files.totalSize f.waiting

theorem remaining_openNext_le (files : FileSystem) (waiting : List String) :
    (openNext files waiting).2.1.elim 0 (·.content.octets.length)
        + files.totalSize (openNext files waiting).2.2
      ≤ files.totalSize waiting := by
  fun_induction openNext files waiting with
  | case1 => simp
  | case2 path waiting e h => simp [FileSystem.totalSize]
  | case3 path waiting content h hstep ih =>
    simp only [FileSystem.totalSize]
    omega
  | case4 path waiting content h event file hstep =>
    have hsize : files.size path = content.octets.length := by simp [FileSystem.size, h]
    have hlength : file.content.octets.length ≤ content.octets.length :=
      OpenFile.length_le_of_next? hstep
    simp only [Option.elim_some, FileSystem.totalSize]
    omega

theorem remaining_openNext_lt {files : FileSystem} {waiting : List String} {line : SourceLine}
    (hline : (openNext files waiting).1 = .ok (some line)) :
    (openNext files waiting).2.1.elim 0 (·.content.octets.length)
        + files.totalSize (openNext files waiting).2.2
      < files.totalSize waiting := by
  fun_induction openNext files waiting with
  | case1 => simp at hline
  | case2 path waiting e h => simp at hline
  | case3 path waiting content h hstep ih =>
    have := ih hline
    simp only [FileSystem.totalSize]
    omega
  | case4 path waiting content h event file hstep =>
    obtain rfl : event = .ok (some line) := hline
    have hsize : files.size path = content.octets.length := by simp [FileSystem.size, h]
    have hlength : file.content.octets.length < content.octets.length :=
      OpenFile.length_lt_of_next? hstep
    simp only [Option.elim_some, FileSystem.totalSize]
    omega

theorem remaining_advance_le (f : FileLines) : f.advance.2.remaining ≤ f.remaining :=
  Nat.le_trans (remaining_openNext_le f.files f.waiting) (Nat.le_add_left _ _)

theorem remaining_advance_lt {f : FileLines} {line : SourceLine}
    (h : f.advance.1 = .ok (some line)) : f.advance.2.remaining < f.remaining :=
  Nat.lt_of_lt_of_le (remaining_openNext_lt h) (Nat.le_add_left _ _)

theorem remaining_next_le (f : FileLines) : f.next.2.remaining ≤ f.remaining := by
  rw [next]
  split
  · exact f.remaining_advance_le
  · rename_i file hcurrent
    split
    · exact f.remaining_advance_le
    · rename_i event file' hstep
      have := OpenFile.length_le_of_next? hstep
      simp only [remaining, hcurrent, Option.elim_some]
      omega

theorem remaining_next_lt {f f' : FileLines} {line : SourceLine}
    (h : f.next = (.ok (some line), f')) : f'.remaining < f.remaining := by
  obtain ⟨h1, rfl⟩ : f.next.1 = .ok (some line) ∧ f.next.2 = f' := by rw [h]; exact ⟨rfl, rfl⟩
  clear h
  rw [next] at h1 ⊢
  split at h1
  · exact remaining_advance_lt h1
  · rename_i file hcurrent
    split at h1
    · exact remaining_advance_lt h1
    · rename_i event file' hstep
      obtain rfl : event = .ok (some line) := h1
      have := OpenFile.length_lt_of_next? hstep
      simp only [remaining, hcurrent, Option.elim_some]
      omega

/-- At the end nothing is open and no file is waiting. -/
theorem openNext_of_end {files : FileSystem} {waiting : List String}
    (h : (openNext files waiting).1 = .ok none) :
    (openNext files waiting).2 = (none, []) := by
  fun_induction openNext files waiting with
  | case1 => rfl
  | case2 path waiting e hopened => simp at h
  | case3 path waiting content hopened hstep ih => exact ih h
  | case4 path waiting content hopened event file hstep =>
    obtain ⟨x, -, hne, -⟩ := OpenFile.exists_readLine hstep
    exact absurd h hne

theorem advance_of_end {f : FileLines} (h : f.advance.1 = .ok none) :
    f.advance.2.next.1 = .ok none := by
  have hclosed := openNext_of_end h
  simp only [advance, next, hclosed, openNext]

theorem next_of_end {f f' : FileLines} (h : f.next = (.ok none, f')) : f'.next.1 = .ok none := by
  obtain ⟨h1, rfl⟩ : f.next.1 = .ok none ∧ f.next.2 = f' := by rw [h]; exact ⟨rfl, rfl⟩
  clear h
  rw [next] at h1
  split at h1
  · rename_i hcurrent
    rw [show f.next = f.advance by simp only [next, hcurrent]]
    exact advance_of_end h1
  · rename_i file hcurrent
    split at h1
    · rename_i hstep
      rw [show f.next = f.advance by simp only [next, hcurrent, hstep]]
      exact advance_of_end h1
    · rename_i event file' hstep
      obtain ⟨x, -, hne, -⟩ := OpenFile.exists_readLine hstep
      exact absurd h1 hne

theorem rewind_next (f : FileLines) : f.next.2.rewind = f.rewind := by
  rw [next]
  split
  · rfl
  · split <;> rfl

instance : LineSource FileLines where
  next := next
  rewind := rewind
  remaining := remaining
  remaining_next_le := remaining_next_le
  remaining_next_lt := remaining_next_lt
  next_of_end := next_of_end
  rewind_next := rewind_next
  rewind_rewind _ := rfl

end FileLines

end SvmLight
