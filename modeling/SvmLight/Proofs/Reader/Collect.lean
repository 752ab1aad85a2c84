import SvmLight.Batch
import SvmLight.Proofs.Reader.Events

/-!
# Collecting records

Several records are read by asking for one after another, until there are enough of them, or none
is left, or none can be had. Nothing else matters of what is asked than how it answers a request, so
a reader, or anything that is to be compared with one, is a **state** and a function `next` here.

* `collectWith` — asking for records one by one; `Collected.outcome` — what it comes to.
* `Lockstep` — related states answer alike, up to a renaming of errors, and stay related;
  `Lockstep.agree`, `Lockstep.agree_all` — **then they also collect the same**.
* `Reader.gather_eq`, `Reader.readBatch_of_fits`, `Reader.exists_readAll_eq` — the operations of a
  reader that read several records collect them.
-/

namespace SvmLight

/-- Why no more records are collected. -/
inductive Stop where
  /-- there are as many as there may be -/
  | full
  /-- no line is left -/
  | ended
  /-- a line cannot be had, or is no record -/
  | failed (cause : Error)
  /-- a record is beyond the address space -/
  | oversize
deriving DecidableEq

/-- Renames the error. -/
def Stop.mapError (f : Error → Error) : Stop → Stop
  | .failed e => .failed (f e)
  | stop => stop

/-- What comes of asking for records one by one. -/
structure Collected (ρ : Type) where
  /-- the records, one after another -/
  records : List Record
  /-- why there are no more of them -/
  stop : Stop
  /-- the reader as it is afterwards, or what stands in for one -/
  reader : ρ

namespace Collected

variable {ρ τ : Type}

/-- All records, if it was no failure to stop. -/
def outcome (c : Collected ρ) : Outcome Error (List Record) :=
  match c.stop with
  | .full => .ok c.records
  | .ended => .ok c.records
  | .failed e => .error e
  | .oversize => .oversize

/-- One more record in front. -/
def cons (record : Record) (c : Collected ρ) : Collected ρ :=
  { c with records := record :: c.records }

theorem outcome_cons (record : Record) (c : Collected ρ) :
    (c.cons record).outcome = (record :: ·) <$> c.outcome := by
  obtain ⟨records, stop, reader⟩ := c
  cases stop <;> rfl

/-- The same records for the same reason, up to a renaming of errors, and related states
afterwards. -/
structure Agree (f : Error → Error) (R : ρ → τ → Prop) (c : Collected ρ) (d : Collected τ) :
    Prop where
  /-- the same records -/
  records : c.records = d.records
  /-- the same reason -/
  stop : c.stop = d.stop.mapError f
  /-- related states -/
  reader : R c.reader d.reader

variable {f : Error → Error} {R : ρ → τ → Prop} {c : Collected ρ} {d : Collected τ}

theorem Agree.cons (h : c.Agree f R d) (record : Record) :
    (c.cons record).Agree f R (d.cons record) :=
  ⟨congrArg (record :: ·) h.records, h.stop, h.reader⟩

theorem Agree.outcome (h : c.Agree f R d) : c.outcome = d.outcome.mapError f := by
  rw [Collected.outcome, Collected.outcome, h.records, h.stop]
  cases d.stop <;> rfl

theorem Agree.outcome_eq (h : c.Agree id R d) : c.outcome = d.outcome := by
  rw [h.outcome]
  cases d.outcome <;> rfl

end Collected

/-! ### Any function that answers requests -/

section Collecting

variable {ρ τ : Type} {next : ρ → Option (Outcome Error Record) × ρ}
  {next' : τ → Option (Outcome Error Record) × τ} {x : ρ} {y : τ}

/-- Asks for so many records, one by one. -/
def collectWith (next : ρ → Option (Outcome Error Record) × ρ) : Nat → ρ → Collected ρ
  | 0, x => ⟨[], .full, x⟩
  | room + 1, x =>
    match (next x).1 with
    | none => ⟨[], .ended, (next x).2⟩
    | some (.ok record) => (collectWith next room (next x).2).cons record
    | some (.error e) => ⟨[], .failed e, (next x).2⟩
    | some .oversize => ⟨[], .oversize, (next x).2⟩

/-- What is collected with room to spare does not depend on the room. -/
theorem collectWith_of_le {room room' : Nat} (hle : room ≤ room')
    (h : (collectWith next room x).stop ≠ .full) :
    collectWith next room' x = collectWith next room x := by
  induction room generalizing x room' with
  | zero => exact absurd rfl h
  | succ room ih =>
    obtain ⟨more, rfl⟩ := Nat.exists_eq_add_of_le hle
    rw [Nat.add_right_comm] at hle ⊢
    rw [collectWith] at h ⊢
    rw [collectWith]
    rcases hanswer : (next x).1 with _ | record | e | _
    · rfl
    · rw [hanswer] at h
      exact congrArg (Collected.cons record) (ih (Nat.le_of_succ_le_succ hle) h)
    · rfl
    · rfl

/-- Related states answer alike, up to a renaming of errors, and stay related. -/
def Lockstep (f : Error → Error) (R : ρ → τ → Prop)
    (next : ρ → Option (Outcome Error Record) × ρ)
    (next' : τ → Option (Outcome Error Record) × τ) : Prop :=
  ∀ x y, R x y → (next x).1 = (next' y).1.map (Outcome.mapError f) ∧ R (next x).2 (next' y).2

variable {f : Error → Error} {R : ρ → τ → Prop}

theorem lockstep_id
    (h : ∀ x y, R x y → (next x).1 = (next' y).1 ∧ R (next x).2 (next' y).2) :
    Lockstep id R next next' := by
  intro x y hxy
  obtain ⟨hanswer, hrest⟩ := h x y hxy
  refine ⟨?_, hrest⟩
  rw [hanswer]
  rcases (next' y).1 with _ | _ | _ | _ <;> rfl

/-- **Related states collect the same.** -/
theorem Lockstep.agree (hstep : Lockstep f R next next') (h : R x y) (room : Nat) :
    (collectWith next room x).Agree f R (collectWith next' room y) := by
  induction room generalizing x y with
  | zero => exact ⟨rfl, rfl, h⟩
  | succ room ih =>
    obtain ⟨hanswer, hrest⟩ := hstep x y h
    rw [collectWith, collectWith, hanswer]
    rcases (next' y).1 with _ | record | e | _
    · exact ⟨rfl, rfl, hrest⟩
    · exact (ih hrest).cons record
    · exact ⟨rfl, rfl, hrest⟩
    · exact ⟨rfl, rfl, hrest⟩

/-- So they do if there is as much room as it takes, which may be more for one of them. -/
theorem Lockstep.agree_all (hstep : Lockstep f R next next') (h : R x y) {room room' : Nat}
    (hstop : (collectWith next room x).stop ≠ .full)
    (hstop' : (collectWith next' room' y).stop ≠ .full) :
    (collectWith next room x).Agree f R (collectWith next' room' y) := by
  -- with room for both of them nothing else is collected
  rw [← collectWith_of_le (Nat.le_max_left room room') hstop,
    ← collectWith_of_le (Nat.le_max_right room room') hstop']
  exact hstep.agree h (max room room')

end Collecting

/-! ### Readers -/

/-- One more record is put behind those that are done. -/
theorem map_cons_append (record : Record) (done : List Record) (x : Outcome Error (List Record)) :
    ((done.reverse ++ ·) <$> (record :: ·) <$> x) = ((record :: done).reverse ++ ·) <$> x := by
  cases x <;> simp

/-- Nothing is done yet. -/
theorem map_nil_append (x : Outcome Error (List Record)) :
    ((([] : List Record).reverse ++ ·) <$> x) = x := by
  cases x <;> simp

namespace Reader

variable {σ : Type} [LineSource σ]

/-- Asks for so many records, one by one. -/
def collect (room : Nat) (r : Reader σ) : Collected (Reader σ) := collectWith next? room r

theorem collect_zero (r : Reader σ) : r.collect 0 = ⟨[], .full, r⟩ := rfl

theorem collect_succ (room : Nat) (r : Reader σ) :
    r.collect (room + 1) =
      match r.next?.1 with
      | none => ⟨[], .ended, r.next?.2⟩
      | some (.ok record) => (r.next?.2.collect room).cons record
      | some (.error e) => ⟨[], .failed e, r.next?.2⟩
      | some .oversize => ⟨[], .oversize, r.next?.2⟩ := rfl

/-- Reading up to so many records is reading one record after another, too. -/
theorem gather_succ (room : Nat) (done : List Record) (r : Reader σ) :
    r.gather (room + 1) done =
      match r.next?.1 with
      | none => (.ok done.reverse, r.next?.2)
      | some (.ok record) => r.next?.2.gather room (record :: done)
      | some (.error e) => (.error e, r.next?.2)
      | some .oversize => (.oversize, r.next?.2) := by
  rw [gather, next?]
  rcases r.hasNext with ⟨e | _ | _, r'⟩
  · rfl
  · rfl
  · simp only
    rcases r'.read with ⟨record | e | _, r''⟩
    · rfl
    · rfl
    · rfl

/-- **Gathering records is collecting them.** -/
theorem gather_eq (room : Nat) (done : List Record) (r : Reader σ) :
    r.gather room done =
      ((done.reverse ++ ·) <$> (r.collect room).outcome, (r.collect room).reader) := by
  induction room generalizing r done with
  | zero => simp [gather, collect_zero, Collected.outcome]
  | succ room ih =>
    rw [gather_succ, collect_succ]
    rcases r.next?.1 with _ | record | e | _
    · simp [Collected.outcome]
    · dsimp only
      rw [ih, Collected.outcome_cons, map_cons_append]
      rfl
    · rfl
    · rfl

/-- Without room for its rows a batch is not begun, else its records are collected. -/
theorem readBatch_of_fits {size : Nat} {r : Reader σ}
    (h : size * r.settings.numFeatures < 2 ^ 60) :
    r.readBatch size =
      (Batch.ofRecords r.settings.numFeatures <$> (r.collect size).outcome,
        (r.collect size).reader) := by
  have hroom : (Outcome.reserve (size * r.settings.numFeatures) Features.bytesPerFeature :
      Outcome Error Unit) = .ok () := by
    apply Outcome.reserve_of_lt
    simp only [Outcome.addressSpace, Features.bytesPerFeature]
    omega
  rw [readBatch, hroom]
  dsimp only
  rw [gather_eq, map_nil_append]

theorem readBatch_of_not_fits {size : Nat} {r : Reader σ}
    (h : ¬size * r.settings.numFeatures < 2 ^ 60) : r.readBatch size = (.oversize, r) := by
  have hroom : (Outcome.reserve (size * r.settings.numFeatures) Features.bytesPerFeature :
      Outcome Error Unit) = .oversize := by
    apply if_neg
    simp only [Outcome.addressSpace, Features.bytesPerFeature]
    omega
  rw [readBatch, hroom]

/-- **Reading all records is collecting them**, if there is room for enough of them. -/
theorem exists_readAllOnto_eq (done : List Record) (r : Reader σ) :
    ∃ room, (r.collect room).stop ≠ .full ∧ r.readAllOnto done =
      ((done.reverse ++ ·) <$> (r.collect room).outcome, (r.collect room).reader) := by
  fun_induction readAllOnto done r with
  | case1 done r r' hnext =>
    refine ⟨1, ?_, ?_⟩
    · simp [collect_succ, hnext]
    · simp [collect_succ, hnext, Collected.outcome]
  | case2 done r record r' hnext ih =>
    obtain ⟨room, hstop, hread⟩ := ih
    have hcollect : r.collect (room + 1) = (r'.collect room).cons record := by
      rw [collect_succ, hnext]
    refine ⟨room + 1, ?_, ?_⟩
    · rw [hcollect]
      exact hstop
    · rw [hread, hcollect, Collected.outcome_cons, map_cons_append]
      rfl
  | case3 done r e r' hnext =>
    refine ⟨1, ?_, ?_⟩
    · simp [collect_succ, hnext]
    · simp [collect_succ, hnext, Collected.outcome]
  | case4 done r r' hnext =>
    refine ⟨1, ?_, ?_⟩
    · simp [collect_succ, hnext]
    · simp [collect_succ, hnext, Collected.outcome]

theorem exists_readAll_eq (r : Reader σ) :
    ∃ room, (r.collect room).stop ≠ .full ∧
      r.readAll = ((r.collect room).outcome, (r.collect room).reader) := by
  obtain ⟨room, hstop, hread⟩ := exists_readAllOnto_eq [] r
  refine ⟨room, hstop, ?_⟩
  rw [readAll, hread, map_nil_append]

end Reader

end SvmLight
