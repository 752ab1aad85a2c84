import SvmLight.Proofs.Source.Events
import SvmLight.Source.Memory

/-!
# The events of lines in memory

Lines in memory have no errors, so their events are the lines that are no comments, and then the
end. `contentsFrom` is the list of these lines with their numbers.

* `next_of_left_cons`, `next_of_left_nil` — asking for a line, in terms of the lines that are left.
* `event_ofList` — the events of a list are its contents.
* `nodup_numbers` — no two of them have the same number.
-/

namespace SvmLight

/-- The lines of a list that are no comments. -/
def Line.contents (lines : List Text) : List Text := lines.filter fun line => !Line.isComment line

namespace MemoryLines

/-! ### Asking for a line -/

/-- The lines that have not been read. -/
def left (m : MemoryLines) : List Text := m.lines.toList.drop m.position

theorem left_ofList (lines : List Text) : (ofList lines).left = lines := rfl

/-- The first line that is left is given away, with its number. -/
theorem next_of_left_cons {m : MemoryLines} {line : Text} {rest : List Text}
    (h : m.left = line :: rest) :
    m.next = (.ok (some ⟨line, ⟨m.position + 1, none⟩⟩), { m with position := m.position + 1 }) ∧
      ({ m with position := m.position + 1 } : MemoryLines).left = rest := by
  have hline : m.lines[m.position]? = some line := by
    rw [← Array.getElem?_toList, ← List.head?_drop]
    exact congrArg List.head? h
  constructor
  · simp only [next, hline]
  · rw [left, ← List.tail_drop]
    exact congrArg List.tail h

theorem next_of_left_nil {m : MemoryLines} (h : m.left = []) : m.next = (.ok none, m) := by
  have hline : m.lines[m.position]? = none := by
    rw [← Array.getElem?_toList, ← List.head?_drop]
    exact congrArg List.head? h
  simp only [next, hline]

/-! ### Contents -/

/-- The lines of a list that are no comments, with their numbers; the first one of the list has the
number `number`. -/
def contentsFrom (number : Nat) (lines : List Text) : List SourceLine :=
  ((lines.zipIdx number).filter fun x => !Line.isComment x.1).map fun x => ⟨x.1, ⟨x.2, none⟩⟩

theorem contentsFrom_of_comment {line : Text} (h : Line.isComment line = true) (number : Nat)
    (lines : List Text) :
    contentsFrom number (line :: lines) = contentsFrom (number + 1) lines := by
  simp [contentsFrom, h]

theorem contentsFrom_of_not_comment {line : Text} (h : Line.isComment line = false) (number : Nat)
    (lines : List Text) :
    contentsFrom number (line :: lines) =
      ⟨line, ⟨number, none⟩⟩ :: contentsFrom (number + 1) lines := by
  simp [contentsFrom, h]

/-- The events that are left are the contents of the lines that are left. -/
theorem event_of_left (lines : List Text) :
    ∀ (m : MemoryLines), m.left = lines →
      ∀ n, LineSource.event m n = .ok (contentsFrom (m.position + 1) lines)[n]? := by
  induction lines with
  | nil =>
    intro m h n
    rw [LineSource.event_of_next_end (congrArg Prod.fst (next_of_left_nil h)) n]
    rfl
  | cons line lines ih =>
    intro m h n
    obtain ⟨hnext, hleft⟩ := next_of_left_cons h
    have hsource : LineSource.next m = _ := hnext
    have hrest := ih _ hleft
    cases hcomment : Line.isComment line with
    | true =>
      -- the number goes on, but the comment is no event
      rw [contentsFrom_of_comment hcomment, ← hrest n,
        LineSource.event_of_comment (by rw [hsource]; exact hcomment), hsource]
    | false =>
      rw [contentsFrom_of_not_comment hcomment]
      have hnot : Event.isComment (LineSource.next m).1 = false := by
        rw [hsource]
        exact hcomment
      cases n with
      | zero =>
        rw [LineSource.event_zero_of_not_comment hnot, hsource]
        rfl
      | succ n =>
        rw [LineSource.event_succ_of_not_comment hnot, hsource, hrest n]
        rfl

/-- **The events of a list of lines are its contents**, and then the end. -/
theorem event_ofList (lines : List Text) (n : Nat) :
    LineSource.event (ofList lines) n = .ok (contentsFrom 1 lines)[n]? :=
  event_of_left lines (ofList lines) (left_ofList lines) n

/-! ### Numbers -/

/-- Without its numbers, the list of contents does not know where it began. -/
theorem map_text_contentsFrom (number : Nat) (lines : List Text) :
    (contentsFrom number lines).map SourceLine.text = Line.contents lines := by
  calc (contentsFrom number lines).map SourceLine.text
      = ((lines.zipIdx number).filter fun x => !Line.isComment x.1).map Prod.fst := by
        rw [contentsFrom, List.map_map]
        rfl
    _ = ((lines.zipIdx number).map Prod.fst).filter fun line => !Line.isComment line := by
        rw [List.filter_map]
        rfl
    _ = Line.contents lines := by rw [List.zipIdx_map_fst, Line.contents]

/-- No two lines have the same number. -/
theorem nodup_numbers (number : Nat) (lines : List Text) :
    ((contentsFrom number lines).map fun line => line.place.line).Nodup := by
  have hsub : (((lines.zipIdx number).filter fun x => !Line.isComment x.1).map Prod.snd).Sublist
      ((lines.zipIdx number).map Prod.snd) := List.filter_sublist.map Prod.snd
  rw [contentsFrom, List.map_map]
  refine hsub.nodup ?_
  rw [List.zipIdx_map_snd]
  exact List.nodup_range'

/-- The lines of a list, some of them left out by their numbers; the first one has number one. -/
def without (numbers : List Nat) (lines : List Text) : List Text :=
  ((lines.zipIdx 1).filter fun x => decide (x.2 ∉ numbers)).map Prod.fst

/-- Leaving lines out leaves them out of the contents. -/
theorem contents_without (numbers : List Nat) (lines : List Text) :
    Line.contents (without numbers lines) =
      ((contentsFrom 1 lines).filter fun line => decide (line.place.line ∉ numbers)).map
        SourceLine.text := by
  rw [Line.contents, without, contentsFrom, List.filter_map, List.filter_map, List.map_map,
    List.filter_filter, List.filter_filter]
  congr 1
  refine List.filter_congr ?_
  intro x _
  exact Bool.and_comm _ _

end MemoryLines

end SvmLight
