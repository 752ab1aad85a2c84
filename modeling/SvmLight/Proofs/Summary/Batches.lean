import SvmLight.Proofs.Reader.Batches
import SvmLight.Proofs.Summary.Harvest

/-!
# Counting batches

Batches are read until the end or the first error. Only the records in front of it matter: they
fill batches one after another, and what is left of them is a batch at the end, but not at an error.

* `Batched` — how many batches some outcomes make, and which error ends them.
* `Serves` — so many requests are answered with batches, and the next one is not.
* `Drains.exists_serves` — the records fill as many batches as they can.
* `Drains.exists_countBatches` — how many batches are counted.
-/

namespace SvmLight

/-- How many batches of some size come of the outcomes, and which error ends them, if one does, when
the lines are read again. -/
inductive Batched : List (Outcome Error (Record × Place)) → Nat → Nat → Option Error → Prop where
  /-- batches of no records are none -/
  | empty (outcomes : List (Outcome Error (Record × Place))) : Batched outcomes 0 0 none
  /-- the last batch may have fewer records than the others -/
  | ended {size : Nat} {placed : List (Record × Place)} (pos : 0 < size) :
      Batched (placed.map Outcome.ok) size ((placed.length + size - 1) / size) none
  /-- the records in front of the first error make full batches -/
  | failed {size : Nat} {placed : List (Record × Place)} {e e' : Error}
      {back : List (Outcome Error (Record × Place))} (pos : 0 < size)
      (again : Outcome.Again (.error e) (.error e')) :
      Batched (placed.map Outcome.ok ++ .error e :: back) size (placed.length / size) (some e')

theorem Batched.le_length {outcomes : List (Outcome Error (Record × Place))}
    {size batches : Nat} {e? : Option Error} (h : Batched outcomes size batches e?) :
    batches ≤ outcomes.length := by
  cases h with
  | empty => exact Nat.zero_le _
  | @ended size placed pos =>
    have hmul : placed.length ≤ placed.length * size := Nat.le_mul_of_pos_right _ pos
    rw [List.length_map, ← Nat.lt_succ_iff, Nat.div_lt_iff_lt_mul pos, Nat.succ_mul]
    omega
  | @failed size placed e e' back pos again =>
    rw [List.length_append, List.length_map]
    exact Nat.le_trans (Nat.div_le_self _ _) (Nat.le_add_right _ _)

namespace Reader

variable {σ : Type} [LineSource σ] {s : Settings} {r : Reader σ} {placed : List (Record × Place)}
  {outcomes outcomes' rest : List (Outcome Error (Record × Place))}
  {last : Outcome Error (Record × Place)} {size : Nat}
  {answer : Outcome Error (Option Batch)}

/-! ### Counting answers -/

/-- So many requests are answered with batches, and then there is this answer. -/
structure Serves (r : Reader σ) (size batches : Nat) (answer : Outcome Error (Option Batch)) :
    Prop where
  /-- batches come first -/
  batch : ∀ n < batches, ∃ batch, r.batchOutcome size n = .ok (some batch)
  /-- what comes next -/
  answer : r.batchOutcome size batches = answer

theorem countBatchesFrom_eq (size : Nat) (done : Counter) (r : Reader σ) :
    r.countBatchesFrom size done =
      match (r.readBatch size).1 with
      | .ok (some _) =>
        match done.succ? with
        | some done => (r.readBatch size).2.countBatchesFrom size done
        | none => ⟨done, some .overflow, (r.readBatch size).2⟩
      | .ok none => ⟨done, none, (r.readBatch size).2⟩
      | .error e => ⟨done, some (.failed e), (r.readBatch size).2⟩
      | .oversize => ⟨done, some .oversize, (r.readBatch size).2⟩ := by
  rcases hread : r.readBatch size with ⟨(_ | batch) | e | _, r'⟩
  · rw [countBatchesFrom, hread]
  · rewrite [countBatchesFrom, hread]
    cases done.succ? <;> rfl
  · rw [countBatchesFrom, hread]
  · rw [countBatchesFrom, hread]

/-- **The answers are counted up to the first one that is no batch**, which is the end or an error,
as long as the counter suffices. -/
theorem Serves.countBatchesFrom {batches : Nat} {e? : Option Error}
    (h : r.Serves size batches (e?.elim (.ok none) .error)) (done : Nat)
    (hdone : done < 2 ^ 31) :
    (r.countBatchesFrom size (Int32.ofNat done)).ComesTo (done + batches)
      (Int32.ofNat (done + batches)) (e?.map .failed) := by
  induction batches generalizing r done with
  | zero =>
    have hread : (r.readBatch size).1 = e?.elim (.ok none) .error := h.answer
    rw [countBatchesFrom_eq, hread]
    cases e? with
    | none => exact ⟨fun _ => ⟨rfl, rfl⟩, fun hle => absurd hdone (Nat.not_lt.2 hle)⟩
    | some e => exact ⟨fun _ => ⟨rfl, rfl⟩, fun hle => absurd hdone (Nat.not_lt.2 hle)⟩
  | succ batches ih =>
    obtain ⟨batch, hread⟩ := h.batch 0 (Nat.succ_pos batches)
    have hread' : (r.readBatch size).1 = .ok (some batch) := hread
    have hrest : (r.readBatch size).2.Serves size batches (e?.elim (.ok none) .error) := by
      refine ⟨?_, ?_⟩
      · intro n hn
        rw [← batchOutcome_succ]
        exact h.batch (n + 1) (Nat.succ_lt_succ hn)
      · rw [← batchOutcome_succ]
        exact h.answer
    rw [countBatchesFrom_eq, hread']
    by_cases hmore : done + 1 < 2 ^ 31
    · rw [Counter.succ?_ofNat hmore, Nat.add_comm batches 1, ← Nat.add_assoc]
      exact ih hrest (done + 1) hmore
    · -- the counter has reached its last number
      obtain rfl : done = 2 ^ 31 - 1 := by omega
      rw [Counter.succ?_last]
      exact ⟨fun hlt => by omega, fun _ => rfl⟩

/-! ### What is counted -/

section Fits

variable (hfits : size * s.numFeatures < 2 ^ 60) (hsize : 0 < size)
include hfits hsize

/-- **Records fill batches one after another.** -/
theorem Drains.readBatches (batches : Nat) (hlength : placed.length = batches * size)
    (h : r.Drains s (placed.map Outcome.ok ++ rest) last) :
    (∀ n < batches, ∃ batch, r.batchOutcome size n = .ok (some batch)) ∧
      (r.afterBatches size batches).Drains s rest last := by
  induction batches generalizing r placed with
  | zero =>
    rw [Nat.zero_mul] at hlength
    obtain rfl := List.eq_nil_of_length_eq_zero hlength
    exact ⟨fun n hn => absurd hn (Nat.not_lt_zero n), h⟩
  | succ batches ih =>
    rw [Nat.succ_mul] at hlength
    obtain ⟨hread, hafter⟩ := h.readBatch hfits (.inl (by omega))
    have hne : (placed.map Prod.fst).take size ≠ [] := by
      rw [← List.length_pos_iff, List.length_take, List.length_map]
      omega
    obtain ⟨batch, hbatch, -⟩ := Batch.exists_holds s.numFeatures hne
    have hdrop : (placed.drop size).length = batches * size := by
      rw [List.length_drop]
      omega
    obtain ⟨hbatches, hdrains⟩ := ih hdrop hafter
    rw [afterBatches_succ]
    refine ⟨?_, hdrains⟩
    intro n hn
    cases n with
    | zero => exact ⟨batch, hread.trans (congrArg Outcome.ok hbatch)⟩
    | succ n =>
      rw [batchOutcome_succ]
      exact hbatches n (Nat.lt_of_succ_lt_succ hn)

/-- **At an error only full batches have been read.** -/
theorem Drains.serves_error {e : Error}
    (h : r.Drains s (placed.map Outcome.ok ++ .error e :: rest) last) :
    r.Serves size (placed.length / size) (.error e) := by
  have hdivmod : size * (placed.length / size) + placed.length % size = placed.length :=
    Nat.div_add_mod _ _
  rw [Nat.mul_comm] at hdivmod
  have htake : (placed.take (placed.length / size * size)).length =
      placed.length / size * size := by
    rw [List.length_take]
    omega
  have hleft : (placed.drop (placed.length / size * size)).length < size := by
    have hmod := Nat.mod_lt placed.length hsize
    rw [List.length_drop]
    omega
  rw [← List.take_append_drop (placed.length / size * size) placed, List.map_append,
    List.append_assoc] at h
  obtain ⟨hbatches, hdrains⟩ := h.readBatches hfits hsize _ htake
  exact ⟨hbatches, hdrains.readBatch_error hfits hleft⟩

/-- **At the end the last batch may have fewer records.** -/
theorem Drains.serves_end (h : r.Drains s (placed.map Outcome.ok) (.error .endOfInput)) :
    r.Serves size ((placed.length + size - 1) / size) (.ok none) := by
  obtain ⟨batches, hdelivers⟩ := h.exists_delivers hfits hsize
  have hlength := hdelivers.length_eq
  rw [List.length_map] at hlength
  rw [← hlength]
  refine ⟨?_, ?_⟩
  · intro n hn
    exact ⟨batches[n], by rw [hdelivers.outcome, List.getElem?_eq_getElem hn]⟩
  · rw [hdelivers.outcome, List.getElem?_eq_none (Nat.le_refl _)]

end Fits

/-- Batches of no records are none. -/
theorem serves_zero (r : Reader σ) : r.Serves 0 0 (.ok none) := by
  have hfits : 0 * r.settings.numFeatures < 2 ^ 60 := by
    rw [Nat.zero_mul]
    decide
  refine ⟨fun n hn => absurd hn (Nat.not_lt_zero n), ?_⟩
  have hread : r.batchOutcome 0 0 = (r.readBatch 0).1 := rfl
  rw [hread, readBatch_of_fits hfits]
  rfl

/-- The records in front of the first error. -/
theorem exists_front (hbefore : ∀ x ∈ outcomes, x.BeforeEnd) :
    ∃ placed : List (Record × Place), outcomes = placed.map Outcome.ok ∨
      ∃ e back, outcomes = placed.map Outcome.ok ++ .error e :: back := by
  induction outcomes with
  | nil => exact ⟨[], .inl rfl⟩
  | cons x outcomes ih =>
    obtain ⟨placed, hplaced⟩ := ih fun y hmem => hbefore y (List.mem_cons_of_mem _ hmem)
    cases hbefore x List.mem_cons_self with
    | malformed place cause => exact ⟨[], .inr ⟨_, outcomes, rfl⟩⟩
    | io cause => exact ⟨[], .inr ⟨_, outcomes, rfl⟩⟩
    | record record place =>
      refine ⟨(record, place) :: placed, ?_⟩
      rcases hplaced with rfl | ⟨e, back, rfl⟩
      · exact .inl rfl
      · exact .inr ⟨e, back, rfl⟩

/-- Records are the same when their lines are read again. -/
theorem exists_again
    (h : List.Forall₂ Outcome.Again (placed.map Outcome.ok ++ rest) outcomes') :
    ∃ rest', outcomes' = placed.map Outcome.ok ++ rest' ∧
      List.Forall₂ Outcome.Again rest rest' := by
  induction placed generalizing outcomes' with
  | nil => exact ⟨outcomes', rfl, h⟩
  | cons x placed ih =>
    cases h with
    | cons hx hplaced =>
      obtain ⟨rest', rfl, hrest⟩ := ih hplaced
      exact ⟨rest', congrArg (· :: _) hx.eq_ok, hrest⟩

/-- **The batches of the outcomes are served** when their lines are read again. -/
theorem Drains.exists_serves (hfits : size * s.numFeatures < 2 ^ 60)
    (hbefore : ∀ x ∈ outcomes, x.BeforeEnd) (hagain : List.Forall₂ Outcome.Again outcomes outcomes')
    (hclosed : Closes outcomes last) (h : r.Drains s outcomes' last) :
    ∃ batches e?, Batched outcomes size batches e? ∧
      r.Serves size batches (e?.elim (.ok none) .error) := by
  rcases Nat.eq_zero_or_pos size with rfl | hsize
  · exact ⟨0, none, .empty outcomes, serves_zero r⟩
  · obtain ⟨placed, rfl | ⟨e, back, rfl⟩⟩ := exists_front hbefore
    · -- there are only records, so the end is behind them
      have hfree : ∀ x ∈ placed.map Outcome.ok, x.io? = none := by
        intro x hmem
        obtain ⟨both, -, rfl⟩ := List.mem_map.1 hmem
        rfl
      obtain rfl := hclosed.eq_end hfree
      rw [← List.append_nil (placed.map Outcome.ok)] at hagain
      obtain ⟨rest', rfl, hrest⟩ := exists_again hagain
      obtain rfl := List.forall₂_nil_left_iff.1 hrest
      rw [List.append_nil] at h
      exact ⟨_, none, .ended hsize, h.serves_end hfits hsize⟩
    · obtain ⟨rest', rfl, hrest⟩ := exists_again hagain
      cases hrest with
      | cons hx _ =>
        obtain ⟨e', rfl⟩ := hx.exists_error
        exact ⟨_, some e', .failed hsize hx, h.serves_error hfits hsize⟩

/-- **They are counted**, as long as the counter suffices. -/
theorem Drains.exists_countBatches (hfits : size * s.numFeatures < 2 ^ 60)
    (hbefore : ∀ x ∈ outcomes, x.BeforeEnd) (hagain : List.Forall₂ Outcome.Again outcomes outcomes')
    (hclosed : Closes outcomes last) (h : r.Drains s outcomes' last) :
    ∃ batches e?, Batched outcomes size batches e? ∧
      (r.countBatches size).ComesTo batches (Int32.ofNat batches) (e?.map .failed) := by
  obtain ⟨batches, e?, hbatched, hserves⟩ := h.exists_serves hfits hbefore hagain hclosed
  refine ⟨batches, e?, hbatched, ?_⟩
  have hcount := hserves.countBatchesFrom 0 (by decide)
  rw [Nat.zero_add] at hcount
  exact hcount

end Reader

end SvmLight
