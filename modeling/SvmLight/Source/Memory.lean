import SvmLight.Source

/-!
# Lines in memory

Lines in memory are numbered from one and have no location. Asking for one never fails.
-/

namespace SvmLight

/-- Lines in memory, and how many of them have been read. -/
structure MemoryLines where
  /-- all lines -/
  lines : Array Text
  /-- how many have been read -/
  position : Nat := 0
deriving DecidableEq

namespace MemoryLines

/-- The lines of a list, none of them read. -/
def ofList (lines : List Text) : MemoryLines := ⟨lines.toArray, 0⟩

/-- The lines of a block of text, none of them read. -/
def ofText (text : Text) : MemoryLines := ofList text.lines

/-- The next line. -/
def next (m : MemoryLines) : Except IoError (Option SourceLine) × MemoryLines :=
  match m.lines[m.position]? with
  | some text =>
    (.ok (some ⟨text, ⟨m.position + 1, none⟩⟩), { m with position := m.position + 1 })
  | none => (.ok none, m)

/-- Goes back to the first line. -/
def rewind (m : MemoryLines) : MemoryLines := { m with position := 0 }

/-- How many lines are left. -/
def remaining (m : MemoryLines) : Nat := m.lines.size - m.position

theorem remaining_next_lt {m m' : MemoryLines} {line : SourceLine}
    (h : m.next = (.ok (some line), m')) : m'.remaining < m.remaining := by
  rw [next] at h
  split at h
  · rename_i text htext
    obtain ⟨-, rfl⟩ := Prod.mk.inj h
    obtain ⟨hlt, -⟩ := Array.getElem?_eq_some_iff.1 htext
    simp only [remaining]
    omega
  · simp at h

theorem remaining_next_le (m : MemoryLines) : m.next.2.remaining ≤ m.remaining := by
  rw [next]
  split
  · simp only [remaining]
    omega
  · exact Nat.le_refl _

theorem next_of_end {m m' : MemoryLines} (h : m.next = (.ok none, m')) : m'.next.1 = .ok none := by
  rw [next] at h
  split at h
  · simp at h
  · rename_i hend
    obtain ⟨-, rfl⟩ := Prod.mk.inj h
    simp only [next, hend]

theorem rewind_next (m : MemoryLines) : m.next.2.rewind = m.rewind := by
  rw [next]
  split <;> rfl

instance : LineSource MemoryLines where
  next := next
  rewind := rewind
  remaining := remaining
  remaining_next_le := remaining_next_le
  remaining_next_lt := remaining_next_lt
  next_of_end := next_of_end
  rewind_next := rewind_next
  rewind_rewind _ := rfl

end MemoryLines

end SvmLight
