import SvmLight.Proofs.Reader.Operation
import SvmLight.Source.Memory

/-!
# A reader without lookahead

The reference reader. A `Cursor` keeps no line: it stands at a **position** in the event stream of
its source, and every answer is read off the event there.

| operation      | at a line                | at an error            | at the end         |
|----------------|--------------------------|------------------------|--------------------|
| `hasNext`      | true; stays              | the error; moves on    | false; stays       |
| `readPlaced`   | decodes it; moves on     | the error; moves on    | an error; stays    |
| `next?`        | decodes it; moves on     | the error; moves on    | none; stays        |

`readAll` and `gather` go on as `next?` does, up to the first failure or the end. Rewinding goes
back to position zero of the rewound source, and a switch goes to position zero of the new one.

* `Tracks` — the simulation relation: a reader and a cursor have the same settings, the same number
  of labels, the same events ahead and the same events after rewinding.
* `Tracks.perform` — it is preserved by every operation, and the answers are equal.
* `Reader.run_eq_cursor_run` — hence a reader answers every sequence of calls as the cursor does.
-/

namespace SvmLight

/-- A reader that stands at a position in the event stream of a source. -/
structure Cursor (σ : Type) where
  /-- how lines are to be read -/
  settings : Settings
  /-- the source, as it was when reading it began -/
  source : σ
  /-- how many of its events have been passed -/
  position : Nat
  /-- the number of labels in every record, once it is known -/
  labelCount : Option Nat

namespace Cursor

variable {σ : Type} [LineSource σ]

omit [LineSource σ] in
/-- A cursor at the start of a source. -/
def start (settings : Settings) (source : σ) : Cursor σ :=
  ⟨settings, source, 0, settings.numLabels⟩

/-- The event at the position. -/
def event (c : Cursor σ) : Event := LineSource.event c.source c.position

omit [LineSource σ] in
/-- Moves past one event. -/
def pass (c : Cursor σ) : Cursor σ := { c with position := c.position + 1 }

/-- Whether a line is left that is not a comment. -/
def hasNext (c : Cursor σ) : Except IoError Bool × Cursor σ :=
  match c.event with
  | .ok (some _) => (.ok true, c)
  | .ok none => (.ok false, c)
  | .error e => (.error e, c.pass)

/-- The record of the next line, and where the line was read. -/
def readPlaced (c : Cursor σ) : Outcome Error (Record × Place) × Cursor σ :=
  match c.event with
  | .error e => (.error (.io e), c.pass)
  | .ok none => (.error .endOfInput, c)
  | .ok (some line) =>
    match c.settings.decode c.labelCount line.text with
    | .ok record =>
      (.ok (record, line.place),
        { c.pass with labelCount := c.settings.countAfter c.labelCount record })
    | .error e => (.error (.atLine line.place (.decoding e)), c.pass)
    | .oversize => (.oversize, c.pass)

/-- The record of the next line. -/
def read (c : Cursor σ) : Outcome Error Record × Cursor σ :=
  (Prod.fst <$> c.readPlaced.1, c.readPlaced.2)

/-- The record of the next line; `none` if no line is left. -/
def next? (c : Cursor σ) : Option (Outcome Error Record) × Cursor σ :=
  match c.event with
  | .ok none => (none, c)
  | _ => (some c.read.1, c.read.2)

theorem readPlaced_of_end {c : Cursor σ} (h : c.event = .ok none) :
    c.readPlaced = (.error .endOfInput, c) := by
  simp only [readPlaced, h]

/-- Before the end, reading moves past what it reads. -/
theorem readPlaced_of_ne_end {c : Cursor σ} (h : c.event ≠ .ok none) :
    c.readPlaced = ((c.settings.readEvent c.labelCount c.event).1,
      { c.pass with labelCount := (c.settings.readEvent c.labelCount c.event).2 }) := by
  rcases hevent : c.event with e | _ | line
  · simp only [readPlaced, hevent]
    rfl
  · exact absurd hevent h
  · simp only [readPlaced, hevent, Settings.readEvent]
    cases c.settings.decode c.labelCount line.text <;> rfl

/-- Goes back to the first line. -/
def rewind (c : Cursor σ) : Cursor σ :=
  { c with source := LineSource.rewind c.source, position := 0 }

omit [LineSource σ] in
/-- Goes on with another source. -/
def switchTo (c : Cursor σ) (source : σ) : Cursor σ := { c with source, position := 0 }

/-- A bound on how many lines are left. -/
def remaining (c : Cursor σ) : Nat :=
  LineSource.remaining (LineSource.passed c.source c.position)

/-- A record is made of a line, which is used up. -/
theorem remaining_next?_lt {c c' : Cursor σ} {record : Record}
    (h : c.next? = (some (.ok record), c')) : c'.remaining < c.remaining := by
  rw [next?] at h
  rcases hevent : c.event with e | _ | line
  · simp [hevent, read, readPlaced] at h
  · simp [hevent] at h
  · rw [hevent] at h
    obtain ⟨-, rfl⟩ := Prod.mk.inj h
    have hlt := LineSource.remaining_passed_lt hevent
    simp only [read, readPlaced, hevent]
    split
    · exact hlt
    · exact hlt
    · exact hlt

/-- All records that are left, or the first error. -/
def readAll (c : Cursor σ) : Outcome Error (List Record) × Cursor σ :=
  match _h : c.next? with
  | (none, c') => (.ok [], c')
  | (some (.ok record), c') =>
    let rest := readAll c'
    ((record :: ·) <$> rest.1, rest.2)
  | (some (.error e), c') => (.error e, c')
  | (some .oversize, c') => (.oversize, c')
termination_by c.remaining
decreasing_by exact remaining_next?_lt _h

/-- Up to so many records, or the first error. -/
def gather : Nat → Cursor σ → Outcome Error (List Record) × Cursor σ
  | 0, c => (.ok [], c)
  | room + 1, c =>
    match c.next? with
    | (none, c') => (.ok [], c')
    | (some (.ok record), c') =>
      let rest := gather room c'
      ((record :: ·) <$> rest.1, rest.2)
    | (some (.error e), c') => (.error e, c')
    | (some .oversize, c') => (.oversize, c')

theorem gather_eq (room : Nat) (c : Cursor σ) :
    c.gather room = ((collectWith next? room c).outcome, (collectWith next? room c).reader) := by
  induction room generalizing c with
  | zero => rfl
  | succ room ih =>
    rw [gather, collectWith]
    rcases c.next? with ⟨_ | record | e | _, c'⟩
    · rfl
    · dsimp only
      rw [ih, Collected.outcome_cons]
      rfl
    · rfl
    · rfl

theorem exists_readAll_eq (c : Cursor σ) :
    ∃ room, (collectWith next? room c).stop ≠ .full ∧
      c.readAll = ((collectWith next? room c).outcome, (collectWith next? room c).reader) := by
  fun_induction readAll c with
  | case1 c c' hnext => exact ⟨1, by simp [collectWith, hnext, Collected.outcome]⟩
  | case2 c record c' hnext rest ih =>
    obtain ⟨room, hstop, hread⟩ := ih
    have hrest : rest = ((collectWith next? room c').outcome, (collectWith next? room c').reader) :=
      hread
    have hcollect : collectWith next? (room + 1) c = (collectWith next? room c').cons record := by
      rw [collectWith, hnext]
    refine ⟨room + 1, ?_, ?_⟩
    · rw [hcollect]
      exact hstop
    · rw [hrest, hcollect, Collected.outcome_cons]
      rfl
  | case3 c e c' hnext => exact ⟨1, by simp [collectWith, hnext, Collected.outcome]⟩
  | case4 c c' hnext => exact ⟨1, by simp [collectWith, hnext, Collected.outcome]⟩

/-- The batch of the next records, `size` at most; `none` if there is none. -/
def readBatch (size : Nat) (c : Cursor σ) : Outcome Error (Option Batch) × Cursor σ :=
  if size * c.settings.numFeatures < 2 ^ 60 then
    (Batch.ofRecords c.settings.numFeatures <$> (c.gather size).1, (c.gather size).2)
  else (.oversize, c)

/-- Performs an operation. -/
def perform (c : Cursor σ) : Operation → Answer × Cursor σ
  | .hasNext => (.hasNext c.hasNext.1, c.hasNext.2)
  | .readPlaced => (.placed c.readPlaced.1, c.readPlaced.2)
  | .read => (.record c.read.1, c.read.2)
  | .next => (.next c.next?.1, c.next?.2)
  | .readAll => (.records c.readAll.1, c.readAll.2)
  | .readBatch size => (.batch (c.readBatch size).1, (c.readBatch size).2)
  | .rewind => (.done, c.rewind)

/-- Answers a call. -/
def call (c : Cursor σ) : Call σ → Answer × Cursor σ
  | .stay operation => c.perform operation
  | .switchTo source => (.done, c.switchTo source)

/-- Answers calls in turn; with each answer goes the number of labels that is known after it. -/
def run : List (Call σ) → Cursor σ → List (Answer × Option Nat) × Cursor σ
  | [], c => ([], c)
  | a :: calls, c =>
    let step := c.call a
    let rest := run calls step.2
    ((step.1, step.2.labelCount) :: rest.1, rest.2)

end Cursor

/-! ## The simulation -/

/-- A reader and a cursor that have the same before them. -/
def Tracks {σ : Type} [LineSource σ] (r : Reader σ) (c : Cursor σ) : Prop :=
  r.Stands c.settings c.labelCount (fun n => LineSource.event c.source (c.position + n))
    (LineSource.event (LineSource.rewind c.source))

namespace Tracks

variable {σ : Type} [LineSource σ] {r : Reader σ} {c : Cursor σ}

theorem start (s : Settings) (source : σ) :
    Tracks (Reader.start s source) (Cursor.start s source) := by
  have hstands := Reader.stands_start s source
  rw [← from_zero (LineSource.event source)] at hstands
  exact hstands

theorem rewind (h : Tracks r c) : Tracks r.rewind c.rewind := by
  have hagain : LineSource.event (LineSource.rewind (LineSource.rewind c.source))
      = LineSource.event (LineSource.rewind c.source) :=
    congrArg LineSource.event (LineSource.rewind_rewind c.source)
  obtain ⟨hsettings, hcount, hnow, hthen⟩ := Reader.Stands.rewind h
  exact Reader.Stands.mk hsettings hcount (hnow.trans (from_zero _).symm)
    (hthen.trans hagain.symm)

theorem switchTo (h : Tracks r c) (source : σ) :
    Tracks (r.switchTo source) (c.switchTo source) := by
  have hstands := Reader.Stands.switchTo h source
  rw [← from_zero (LineSource.event source)] at hstands
  exact hstands

/-- Standing behind the next event is what tracking the cursor that has passed it means. -/
theorem of_later {count : Option Nat}
    (h : r.Stands c.settings count (later fun n => LineSource.event c.source (c.position + n))
      (LineSource.event (LineSource.rewind c.source))) :
    Tracks r { c.pass with labelCount := count } := by
  rw [later_from] at h
  exact h

theorem hasNext (h : Tracks r c) :
    r.hasNext.1 = c.hasNext.1 ∧ Tracks r.hasNext.2 c.hasNext.2 := by
  rw [Cursor.hasNext]
  rcases hevent : c.event with e | _ | line
  · obtain ⟨hask, hstands⟩ := h.hasNext_error hevent
    exact ⟨hask, of_later hstands⟩
  · exact h.hasNext_ok hevent
  · exact h.hasNext_ok hevent

theorem readPlaced (h : Tracks r c) :
    r.readPlaced.1 = c.readPlaced.1 ∧ Tracks r.readPlaced.2 c.readPlaced.2 := by
  obtain ⟨hread, hstands⟩ := Reader.Stands.readPlaced h
  rw [show LineSource.event c.source (c.position + 0) = c.event from rfl] at hread hstands
  by_cases hevent : c.event = .ok none
  · -- nothing has been passed, and behind the end there is nothing else
    rw [Cursor.readPlaced_of_end hevent]
    rw [hevent] at hread hstands
    rw [h.ahead_of_end hevent] at hstands
    exact ⟨hread, hstands⟩
  · rw [Cursor.readPlaced_of_ne_end hevent]
    exact ⟨hread, of_later hstands⟩

theorem read (h : Tracks r c) : r.read.1 = c.read.1 ∧ Tracks r.read.2 c.read.2 :=
  ⟨congrArg (Prod.fst <$> ·) h.readPlaced.1, h.readPlaced.2⟩

theorem next? (h : Tracks r c) : r.next?.1 = c.next?.1 ∧ Tracks r.next?.2 c.next?.2 := by
  by_cases hevent : c.event = .ok none
  · have hcursor : c.next? = (none, c) := by simp only [Cursor.next?, hevent]
    rw [hcursor]
    exact h.next?_end hevent
  · -- before the end the cursor reads at once, and never asks
    have hcursor : c.next? = (some c.read.1, c.read.2) := by
      rw [Cursor.next?]
      rcases hc : c.event with e | _ | line
      · rfl
      · exact absurd hc hevent
      · rfl
    obtain ⟨hread, hstands⟩ := Reader.Stands.next?_event h hevent
    rw [hcursor, Cursor.read, Cursor.readPlaced_of_ne_end hevent]
    exact ⟨hread, of_later hstands⟩

/-- So they collect the same records. -/
theorem lockstep : Lockstep id (Tracks (σ := σ)) Reader.next? Cursor.next? :=
  lockstep_id fun _ _ h => h.next?

theorem readAll (h : Tracks r c) :
    r.readAll.1 = c.readAll.1 ∧ Tracks r.readAll.2 c.readAll.2 := by
  obtain ⟨room, hstop, hread⟩ := r.exists_readAll_eq
  obtain ⟨room', hstop', hread'⟩ := c.exists_readAll_eq
  have hagree := lockstep.agree_all h hstop hstop'
  rw [hread, hread']
  exact ⟨hagree.outcome_eq, hagree.reader⟩

theorem readBatch (h : Tracks r c) (size : Nat) :
    (r.readBatch size).1 = (c.readBatch size).1 ∧
      Tracks (r.readBatch size).2 (c.readBatch size).2 := by
  have hsettings : r.settings = c.settings := h.settings
  by_cases hfits : size * c.settings.numFeatures < 2 ^ 60
  · have hagree := lockstep.agree h size
    rw [Reader.readBatch_of_fits (hsettings ▸ hfits), hsettings, Cursor.readBatch, if_pos hfits,
      Cursor.gather_eq]
    exact ⟨congrArg (Batch.ofRecords c.settings.numFeatures <$> ·) hagree.outcome_eq,
      hagree.reader⟩
  · rw [Reader.readBatch_of_not_fits (hsettings ▸ hfits), Cursor.readBatch, if_neg hfits]
    exact ⟨rfl, h⟩

/-- **One step of the simulation**: the same answer, and the relation again. -/
theorem perform (h : Tracks r c) (operation : Operation) :
    (r.perform operation).1 = (c.perform operation).1 ∧
      Tracks (r.perform operation).2 (c.perform operation).2 := by
  cases operation with
  | hasNext => exact ⟨congrArg Answer.hasNext h.hasNext.1, h.hasNext.2⟩
  | readPlaced => exact ⟨congrArg Answer.placed h.readPlaced.1, h.readPlaced.2⟩
  | read => exact ⟨congrArg Answer.record h.read.1, h.read.2⟩
  | next => exact ⟨congrArg Answer.next h.next?.1, h.next?.2⟩
  | readAll => exact ⟨congrArg Answer.records h.readAll.1, h.readAll.2⟩
  | readBatch size => exact ⟨congrArg Answer.batch (h.readBatch size).1, (h.readBatch size).2⟩
  | rewind => exact ⟨rfl, h.rewind⟩

theorem call (h : Tracks r c) (a : Call σ) :
    (r.call a).1 = (c.call a).1 ∧ Tracks (r.call a).2 (c.call a).2 := by
  cases a with
  | stay operation => exact h.perform operation
  | switchTo source => exact ⟨rfl, h.switchTo source⟩

theorem run (h : Tracks r c) (calls : List (Call σ)) :
    (r.run calls).1 = (c.run calls).1 := by
  induction calls generalizing r c with
  | nil => rfl
  | cons a calls ih =>
    obtain ⟨hans, htracks⟩ := h.call a
    have hcount : (r.call a).2.labelCount = (c.call a).2.labelCount := htracks.labelCount
    simp only [Reader.run, Cursor.run, hans, hcount, ih htracks]

end Tracks

/-! ## Every sequence of calls -/

/-- **A reader answers as the cursor does**, whatever it is asked, in whatever order and on
whatever source, and always has the same number of labels; and where there is room for records and
batches, every call has an answer. -/
theorem Reader.run_eq_cursor_run {σ : Type} [LineSource σ] {s : Settings} (hs : s.Fits)
    (source : σ) {calls : List (Call σ)} (hcalls : ∀ c ∈ calls, c.Fits s) :
    ((Reader.start s source).run calls).1 = ((Cursor.start s source).run calls).1 ∧
      ∀ answer ∈ ((Reader.start s source).run calls).1, answer.1.outcome ≠ .oversize := by
  refine ⟨(Tracks.start s source).run calls, ?_⟩
  have hstart : (Reader.start s source).settings = s := rfl
  exact ((Reader.invariant_fits hs).run hstart hcalls fun _ _ _ h => h).1

/-- A line is pending when the source is switched, and a batch ends at a malformed line. -/
theorem Reader.run_eq_cursor_run_pending :
    let calls : List (Call MemoryLines) :=
      [.stay .hasNext, .switchTo (MemoryLines.ofList [['#'], ['1'], ['x']]), .stay (.readBatch 5),
        .stay .rewind, .stay .readPlaced]
    let source := MemoryLines.ofList [['2']]
    (Settings.plain 2).Fits ∧ (∀ c ∈ calls, c.Fits (Settings.plain 2)) ∧
      ((Reader.start (Settings.plain 2) source).run calls).1 =
        ((Cursor.start (Settings.plain 2) source).run calls).1 ∧
      ∀ answer ∈ ((Reader.start (Settings.plain 2) source).run calls).1,
        answer.1.outcome ≠ .oversize := by
  intro calls source
  have hs : (Settings.plain 2).Fits := Settings.fits_plain (by decide)
  have hcalls : ∀ c ∈ calls, c.Fits (Settings.plain 2) := by
    simp [calls, Call.Fits, Operation.Fits, Settings.plain]
  exact ⟨hs, hcalls, Reader.run_eq_cursor_run hs source hcalls⟩

end SvmLight
