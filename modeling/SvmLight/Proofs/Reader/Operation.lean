import SvmLight.Proofs.Reader.Collect

/-!
# Operations of a reader

All that can be asked of a reader, as data, so that statements can speak of any sequence of
requests.

* `Operation` — a request that stays with the source; `Call` — this, or the switch to another one.
* `Answer` — what comes back. `Answer.outcome` keeps no more of it than whether it is a failure.
* `Reader.run` — a sequence of calls: every answer, with the number of labels known after it.

Reading all records and reading a batch are made of asking and reading. `Reader.Invariant.perform`
draws the consequence once: what asking, reading and rewinding preserve is preserved by every
operation, and what holds of the outcomes of the first two holds of every outcome.
-/

namespace SvmLight

/-- What an outcome is, its value left out. -/
def Outcome.void {ε α : Type} (x : Outcome ε α) : Outcome ε Unit := (fun _ => ()) <$> x

@[simp] theorem Outcome.void_map {ε α β : Type} (f : α → β) (x : Outcome ε α) :
    (f <$> x).void = x.void := by
  cases x <;> rfl

theorem Outcome.void_ne_oversize {ε α : Type} {x : Outcome ε α} (h : x ≠ .oversize) :
    x.void ≠ .oversize := by
  cases x with
  | ok a => simp [Outcome.void]
  | error e => simp [Outcome.void]
  | oversize => exact absurd rfl h

theorem Outcome.void_ne_error {ε α : Type} {x : Outcome ε α} {e : ε} (h : x ≠ .error e) :
    x.void ≠ .error e := by
  cases x with
  | ok a => simp [Outcome.void]
  | error e' =>
    intro heq
    exact h (congrArg Outcome.error (Outcome.error.inj heq))
  | oversize => simp [Outcome.void]

/-- What can be asked of a reader that stays with its source. -/
inductive Operation where
  /-- whether a line is left -/
  | hasNext
  /-- the next record and its place -/
  | readPlaced
  /-- the next record -/
  | read
  /-- the next record, if there is one -/
  | next
  /-- all records that are left -/
  | readAll
  /-- a batch of at most so many records -/
  | readBatch (size : Nat)
  /-- to go back to the first line -/
  | rewind
deriving DecidableEq

/-- What a reader answers. -/
inductive Answer where
  /-- whether a line is left -/
  | hasNext (answer : Except IoError Bool)
  /-- a record and its place -/
  | placed (outcome : Outcome Error (Record × Place))
  /-- a record -/
  | record (outcome : Outcome Error Record)
  /-- a record, if there is one -/
  | next (outcome? : Option (Outcome Error Record))
  /-- several records -/
  | records (outcome : Outcome Error (List Record))
  /-- a batch, if there is one -/
  | batch (outcome : Outcome Error (Option Batch))
  /-- nothing -/
  | done

/-- Whether an answer is a failure, and which one. -/
def Answer.outcome : Answer → Outcome Error Unit
  | .hasNext (.ok _) => .ok ()
  | .hasNext (.error e) => .error (.io e)
  | .placed x => x.void
  | .record x => x.void
  | .next none => .ok ()
  | .next (some x) => x.void
  | .records x => x.void
  | .batch x => x.void
  | .done => .ok ()

/-- There is room for the rows that an operation asks for. -/
def Operation.Fits (s : Settings) : Operation → Prop
  | .readBatch size => size * s.numFeatures < 2 ^ 60
  | _ => True

/-- What can be asked of a reader. -/
inductive Call (σ : Type) where
  /-- something about the source at hand -/
  | stay (operation : Operation)
  /-- to go on with another source -/
  | switchTo (source : σ)

/-- There is room for the rows that a call asks for. -/
def Call.Fits {σ : Type} (s : Settings) : Call σ → Prop
  | .stay operation => operation.Fits s
  | .switchTo _ => True

namespace Reader

variable {σ : Type} [LineSource σ]

/-- Performs an operation. -/
def perform (r : Reader σ) : Operation → Answer × Reader σ
  | .hasNext => (.hasNext r.hasNext.1, r.hasNext.2)
  | .readPlaced => (.placed r.readPlaced.1, r.readPlaced.2)
  | .read => (.record r.read.1, r.read.2)
  | .next => (.next r.next?.1, r.next?.2)
  | .readAll => (.records r.readAll.1, r.readAll.2)
  | .readBatch size => (.batch (r.readBatch size).1, (r.readBatch size).2)
  | .rewind => (.done, r.rewind)

/-- Answers a call. -/
def call (r : Reader σ) : Call σ → Answer × Reader σ
  | .stay operation => r.perform operation
  | .switchTo source => (.done, r.switchTo source)

/-- Answers calls in turn; with each answer goes the number of labels that is known after it. -/
def run : List (Call σ) → Reader σ → List (Answer × Option Nat) × Reader σ
  | [], r => ([], r)
  | c :: calls, r =>
    let step := r.call c
    let rest := run calls step.2
    ((step.1, step.2.labelCount) :: rest.1, rest.2)

/-! ### Invariants -/

/-- A property of readers with certain settings that asking, reading and rewinding preserve, and a
property of outcomes that asking and reading have where it holds. -/
structure Invariant (s : Settings) (Inv : Reader σ → Prop) (P : Outcome Error Unit → Prop) :
    Prop where
  /-- the settings stay what they are -/
  settings : ∀ r, Inv r → r.settings = s
  /-- to succeed is always permitted -/
  ok : P (.ok ())
  /-- asking for a line -/
  hasNext : ∀ r, Inv r → P (Answer.hasNext r.hasNext.1).outcome ∧ Inv r.hasNext.2
  /-- reading a record -/
  readPlaced : ∀ r, Inv r → P r.readPlaced.1.void ∧ Inv r.readPlaced.2
  /-- rewinding -/
  rewind : ∀ r, Inv r → Inv r.rewind

namespace Invariant

variable {s : Settings} {Inv : Reader σ → Prop} {P : Outcome Error Unit → Prop}

theorem read (hI : Invariant s Inv P) {r : Reader σ} (h : Inv r) :
    P r.read.1.void ∧ Inv r.read.2 := by
  obtain ⟨hP, hInv⟩ := hI.readPlaced r h
  rw [Reader.read, Outcome.void_map]
  exact ⟨hP, hInv⟩

theorem next? (hI : Invariant s Inv P) {r : Reader σ} (h : Inv r) :
    P (Answer.next r.next?.1).outcome ∧ Inv r.next?.2 := by
  obtain ⟨hP, hInv⟩ := hI.hasNext r h
  rw [next?_eq]
  rcases hask : r.hasNext.1 with e | _ | _
  · rw [hask] at hP
    exact ⟨hP, hInv⟩
  · exact ⟨hI.ok, hInv⟩
  · exact hI.read hInv

/-- What has been collected is no failure, so collecting fails only as a request does. -/
theorem collect (hI : Invariant s Inv P) {r : Reader σ} (h : Inv r) (room : Nat) :
    P (r.collect room).outcome.void ∧ Inv (r.collect room).reader := by
  induction room generalizing r with
  | zero => exact ⟨hI.ok, h⟩
  | succ room ih =>
    obtain ⟨hP, hInv⟩ := hI.next? h
    rw [collect_succ]
    rcases hstep : r.next?.1 with _ | record | e | _
    · exact ⟨hI.ok, hInv⟩
    · dsimp only
      rw [Collected.outcome_cons, Outcome.void_map]
      exact ih hInv
    · rw [hstep] at hP
      exact ⟨hP, hInv⟩
    · rw [hstep] at hP
      exact ⟨hP, hInv⟩

/-- **Every operation keeps what asking, reading and rewinding keep**, and its outcome is of the
kind that asking and reading have. -/
theorem perform (hI : Invariant s Inv P) {r : Reader σ} (h : Inv r) {operation : Operation}
    (hfits : operation.Fits s) :
    P (r.perform operation).1.outcome ∧ Inv (r.perform operation).2 := by
  cases operation with
  | hasNext => exact hI.hasNext r h
  | readPlaced => exact hI.readPlaced r h
  | read => exact hI.read h
  | next => exact hI.next? h
  | readAll =>
    obtain ⟨room, -, hread⟩ := r.exists_readAll_eq
    simp only [Reader.perform, hread, Answer.outcome]
    exact hI.collect h room
  | readBatch size =>
    rw [← hI.settings r h] at hfits
    simp only [Reader.perform, readBatch_of_fits hfits, Answer.outcome, Outcome.void_map]
    exact hI.collect h size
  | rewind => exact ⟨hI.ok, hI.rewind r h⟩

/-- So does every sequence of calls, if switching keeps it, too. -/
theorem run (hI : Invariant s Inv P) {r : Reader σ} (h : Inv r) {calls : List (Call σ)}
    (hfits : ∀ c ∈ calls, c.Fits s)
    (hswitch : ∀ source, .switchTo source ∈ calls → ∀ r, Inv r → Inv (r.switchTo source)) :
    (∀ answer ∈ (r.run calls).1, P answer.1.outcome) ∧ Inv (r.run calls).2 := by
  induction calls generalizing r with
  | nil => exact ⟨fun answer hmem => absurd hmem List.not_mem_nil, h⟩
  | cons c calls ih =>
    have hcall : P (r.call c).1.outcome ∧ Inv (r.call c).2 := by
      cases c with
      | stay operation => exact hI.perform h (hfits _ List.mem_cons_self)
      | switchTo source => exact ⟨hI.ok, hswitch source List.mem_cons_self r h⟩
    obtain ⟨hrest, hInv⟩ := ih hcall.2 (fun c hc => hfits c (List.mem_cons_of_mem _ hc))
      fun source hmem => hswitch source (List.mem_cons_of_mem _ hmem)
    refine ⟨fun answer hmem => ?_, hInv⟩
    rcases List.mem_cons.1 hmem with rfl | hmem
    · exact hcall.1
    · exact hrest answer hmem

/-- So does every sequence of operations. -/
theorem run_stay (hI : Invariant s Inv P) {r : Reader σ} (h : Inv r) {operations : List Operation}
    (hfits : ∀ operation ∈ operations, operation.Fits s) :
    (∀ answer ∈ (r.run (operations.map .stay)).1, P answer.1.outcome) ∧
      Inv (r.run (operations.map .stay)).2 := by
  refine hI.run h ?_ ?_
  · intro call hcall
    obtain ⟨operation, hmem, rfl⟩ := List.mem_map.1 hcall
    exact hfits operation hmem
  · intro source hcall
    obtain ⟨operation, -, hne⟩ := List.mem_map.1 hcall
    cases hne

end Invariant

/-- With settings that fit, nothing that is read is beyond the address space. -/
theorem invariant_fits {s : Settings} (hs : s.Fits) :
    Invariant s (fun r : Reader σ => r.settings = s) (· ≠ .oversize) where
  settings _ h := h
  ok := by simp
  hasNext r h := by
    refine ⟨?_, h⟩
    cases r.hasNext.1 <;> simp [Answer.outcome]
  readPlaced r h := by
    rw [readPlaced_eq]
    refine ⟨Outcome.void_ne_oversize ?_, h⟩
    exact Settings.readEvent_ne_oversize (h ▸ hs : r.settings.Fits) r.labelCount (r.event 0)
  rewind _ h := h

end Reader

end SvmLight
