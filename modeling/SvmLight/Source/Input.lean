import SvmLight.Source.Files
import SvmLight.Source.Memory

/-!
# Inputs

An **input** is either of the two kinds of line source, so that a reader can be switched from one
to the other.
-/

namespace SvmLight

/-- Lines in memory or lines of files. -/
inductive Input where
  /-- lines in memory -/
  | memory (lines : MemoryLines)
  /-- lines of files -/
  | files (lines : FileLines)

namespace Input

/-- The paths of the files, as they were given; lines in memory have none. -/
def paths? : Input → Option (List String)
  | .memory _ => none
  | .files f => some f.paths

/-- The next line. -/
def next : Input → Except IoError (Option SourceLine) × Input
  | .memory m => (m.next.1, .memory m.next.2)
  | .files f => (f.next.1, .files f.next.2)

/-- Goes back to the first line. -/
def rewind : Input → Input
  | .memory m => .memory m.rewind
  | .files f => .files f.rewind

/-- A bound on how many lines are left. -/
def remaining : Input → Nat
  | .memory m => m.remaining
  | .files f => f.remaining

theorem remaining_next_lt {i i' : Input} {line : SourceLine}
    (h : i.next = (.ok (some line), i')) : i'.remaining < i.remaining := by
  cases i with
  | memory m =>
    obtain ⟨h1, rfl⟩ := Prod.mk.inj h
    exact MemoryLines.remaining_next_lt (Prod.ext h1 rfl)
  | files f =>
    obtain ⟨h1, rfl⟩ := Prod.mk.inj h
    exact FileLines.remaining_next_lt (Prod.ext h1 rfl)

theorem next_of_end {i i' : Input} (h : i.next = (.ok none, i')) : i'.next.1 = .ok none := by
  cases i with
  | memory m =>
    obtain ⟨h1, rfl⟩ := Prod.mk.inj h
    exact MemoryLines.next_of_end (Prod.ext h1 rfl)
  | files f =>
    obtain ⟨h1, rfl⟩ := Prod.mk.inj h
    exact FileLines.next_of_end (Prod.ext h1 rfl)

instance : LineSource Input where
  next := next
  rewind := rewind
  remaining := remaining
  remaining_next_le
    | .memory m => m.remaining_next_le
    | .files f => f.remaining_next_le
  remaining_next_lt := remaining_next_lt
  next_of_end := next_of_end
  rewind_next
    | .memory m => congrArg Input.memory m.rewind_next
    | .files f => congrArg Input.files f.rewind_next
  rewind_rewind
    | .memory _ => rfl
    | .files _ => rfl

end Input

end SvmLight
