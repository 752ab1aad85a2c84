import SvmLight.Decode
import SvmLight.Peekable

/-!
# Readers

A reader turns the lines of a source into records. Comments are passed over; every other line
becomes a record or an error, and after an error one can read on.

* `hasNext` — whether a line is left. Asking again changes nothing.
* `readPlaced`, `read` — the record of the next line. An error in a line comes with its place; at
  the end of the input there is an error, too.
* `next?` — the same, with `none` at the end.
* `readAll` — all records that are left, or the first error.

Each operation gives its result and the reader as it is afterwards. The number of listed labels is
part of the reader and outlives rewinding and switching to another source.
-/

namespace SvmLight

/-- Reads records from a line source. -/
structure Reader (σ : Type) where
  /-- how lines are to be read -/
  settings : Settings
  /-- where lines come from -/
  input : Peekable σ
  /-- the number of labels in every record, once it is known -/
  labelCount : Option Nat

namespace Reader

variable {σ : Type} [LineSource σ]

omit [LineSource σ] in
/-- A reader at the start of a source. -/
def start (settings : Settings) (source : σ) : Reader σ :=
  ⟨settings, ⟨source, none⟩, settings.numLabels⟩

/-! ### Reading one record -/

/-- Whether a line is left that is not a comment. -/
def hasNext (r : Reader σ) : Except IoError Bool × Reader σ :=
  let step := r.input.peek
  (step.1, { r with input := step.2 })

/-- The record of the next line, and where the line was read. -/
def readPlaced (r : Reader σ) : Outcome Error (Record × Place) × Reader σ :=
  match r.input.pop with
  | (.error e, input) => (.error (.io e), { r with input })
  | (.ok none, input) => (.error .endOfInput, { r with input })
  | (.ok (some line), input) =>
    match r.settings.decode r.labelCount line.text with
    | .ok record =>
      (.ok (record, line.place),
        { r with input, labelCount := r.settings.countAfter r.labelCount record })
    | .error e => (.error (.atLine line.place (.decoding e)), { r with input })
    | .oversize => (.oversize, { r with input })

/-- The record of the next line. -/
def read (r : Reader σ) : Outcome Error Record × Reader σ :=
  let step := r.readPlaced
  (Prod.fst <$> step.1, step.2)

/-- The record of the next line; `none` if no line is left. -/
def next? (r : Reader σ) : Option (Outcome Error Record) × Reader σ :=
  match r.hasNext with
  | (.ok true, r) =>
    let step := r.read
    (some step.1, step.2)
  | (.ok false, r) => (none, r)
  | (.error e, r) => (some (.error (.io e)), r)

/-! ### Going elsewhere -/

/-- Goes back to the first line. -/
def rewind (r : Reader σ) : Reader σ := { r with input := r.input.rewind }

omit [LineSource σ] in
/-- Goes on with another source; a pending line of the old one is dropped. -/
def switchTo (r : Reader σ) (source : σ) : Reader σ := { r with input := ⟨source, none⟩ }

/-! ### What is left -/

/-- A bound on how many lines are left. -/
def remaining (r : Reader σ) : Nat := r.input.remaining

theorem remaining_hasNext_le (r : Reader σ) : r.hasNext.2.remaining ≤ r.remaining :=
  r.input.remaining_peek_le

/-- After an answer that a line is left, reading uses that line up. -/
theorem remaining_readPlaced_lt_of_hasNext {r r' : Reader σ} (h : r.hasNext = (.ok true, r')) :
    r'.readPlaced.2.remaining < r.remaining := by
  obtain ⟨hpeek, rfl⟩ := Prod.mk.inj h
  obtain ⟨line, hline⟩ := Peekable.pending_of_peek hpeek
  have hpop : r.input.peek.2.pop = (.ok (some line), r.input.peek.2.clear) := by
    simp only [Peekable.pop, hline, Peekable.clear]
  have hread : ({ r with input := r.input.peek.2 } : Reader σ).readPlaced.2.input
      = r.input.peek.2.clear := by
    simp only [readPlaced, hpop]
    split <;> rfl
  calc ({ r with input := r.input.peek.2 } : Reader σ).readPlaced.2.remaining
      = r.input.peek.2.clear.remaining := by rw [remaining, hread]
    _ < r.input.peek.2.remaining := Peekable.remaining_pop_lt hpop
    _ ≤ r.remaining := r.input.remaining_peek_le

theorem remaining_read_lt_of_hasNext {r r' : Reader σ} (h : r.hasNext = (.ok true, r')) :
    r'.read.2.remaining < r.remaining := remaining_readPlaced_lt_of_hasNext h

theorem remaining_next?_lt {r r' : Reader σ} {record : Record}
    (h : r.next? = (some (.ok record), r')) : r'.remaining < r.remaining := by
  rw [next?] at h
  split at h
  · rename_i r₁ hnext
    obtain ⟨-, rfl⟩ := Prod.mk.inj h
    exact remaining_readPlaced_lt_of_hasNext hnext
  · simp at h
  · simp at h

/-! ### Reading all records -/

/-- Reads on behind the records that are done, the last one first. -/
def readAllOnto (done : List Record) (r : Reader σ) : Outcome Error (List Record) × Reader σ :=
  match _h : r.next? with
  | (none, r') => (.ok done.reverse, r')
  | (some (.ok record), r') => readAllOnto (record :: done) r'
  | (some (.error e), r') => (.error e, r')
  | (some .oversize, r') => (.oversize, r')
termination_by r.remaining
decreasing_by exact remaining_next?_lt _h

/-- All records that are left, or the first error. -/
def readAll (r : Reader σ) : Outcome Error (List Record) × Reader σ := r.readAllOnto []

end Reader

end SvmLight
