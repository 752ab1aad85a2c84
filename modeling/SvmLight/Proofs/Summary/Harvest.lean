import SvmLight.Proofs.Reader.Drained
import SvmLight.Summary

/-!
# Harvests

A harvest reads record by record, up to a limit. It passes over malformed lines and stops at an
input error, so it is laid down by what the reader drains. Its counter ends it, too, if there are
`2 ^ 31` malformed lines or more.

* `HasRoom` — a limit that some records do not reach.
* `Harvest.gathered` — what has been gathered of some outcomes.
* `Drains.exists_harvestOnto` — without an input error and below the limit, a harvest goes on
  gathering.
* `Skips` — which malformed lines a harvest passes over.
* `Pass.ComesTo` — what a pass comes to, whether its counter suffices or not.
* `Drains.harvest_error`, `Drains.harvest_all`, `Drains.harvest_reached` — the ways in which a
  harvest ends.
* `Drains.harvest_ok` — the two without an error, as one.
-/

namespace SvmLight

/-! ### Counting -/

/-- Counting goes on below `2 ^ 31`. -/
theorem Counter.succ?_ofNat {n : Nat} (h : n + 1 < 2 ^ 31) :
    Counter.succ? (Int32.ofNat n) = some (Int32.ofNat (n + 1)) := by
  have hne : Int32.ofNat n ≠ Int32.maxValue := by
    rw [Ne, ← Int32.toInt_inj, Int32.toInt_ofNat_of_lt (by omega), Int32.toInt_maxValue]
    omega
  rw [Counter.succ?, if_neg hne, Int32.ofNat_add]
  rfl

/-- It ends there. -/
theorem Counter.succ?_last : Counter.succ? (Int32.ofNat (2 ^ 31 - 1)) = none := by decide

theorem Counter.toString_ofNat {n : Nat} (h : n < 2 ^ 31) :
    toString (Int32.ofNat n : Counter) = toString n := by
  calc toString (Int32.ofNat n) = toString (Int32.ofNat n).toInt := rfl
    _ = toString (n : Int) := by rw [Int32.toInt_ofNat_of_lt h]
    _ = toString n := rfl

/-! ### Limits -/

/-- One more record than these is within the limit. -/
def HasRoom (limit : Option Nat) (count : Nat) : Prop := ∀ bound ∈ limit, count < bound

theorem HasRoom.mono {limit : Option Nat} {m n : Nat} (h : HasRoom limit n) (hle : m ≤ n) :
    HasRoom limit m := fun bound hbound => Nat.lt_of_le_of_lt hle (h bound hbound)

theorem HasRoom.ne_zero {limit : Option Nat} {n : Nat} (h : HasRoom limit n) : limit ≠ some 0 := by
  rintro rfl
  exact Nat.not_lt_zero n (h 0 rfl)

theorem HasRoom.map_sub {limit : Option Nat} {m n : Nat} (h : HasRoom limit (m + n)) :
    HasRoom (limit.map (· - m)) n := by
  intro bound hbound
  obtain ⟨bound', hmem, rfl⟩ := Option.map_eq_some_iff.1 hbound
  have := h bound' hmem
  omega

/-! ### What is skipped -/

/-- The error of a line that is no record. -/
def Outcome.skipped? : Outcome Error (Record × Place) → Option Error
  | .error (.atLine place (.decoding cause)) => some (.atLine place (.decoding cause))
  | _ => none

theorem Outcome.exists_of_skipped? {x : Outcome Error (Record × Place)} {e : Error}
    (h : x.skipped? = some e) :
    ∃ place cause, x = .error (.atLine place (.decoding cause)) ∧
      e = .atLine place (.decoding cause) := by
  match x with
  | .error (.atLine place (.decoding cause)) => exact ⟨place, cause, rfl, (Option.some.inj h).symm⟩

/-- The errors of the malformed lines that a harvest of these outcomes passes over: all of them if
the limit is not reached, and else those in front of the last record within it. -/
inductive Skips (outcomes : List (Outcome Error (Record × Place))) :
    Option Nat → List Error → Prop where
  /-- the limit is not reached -/
  | all {limit : Option Nat} (left : HasRoom limit (outcomes.filterMap Outcome.record?).length) :
      Skips outcomes limit (outcomes.filterMap Outcome.skipped?)
  /-- nothing is read -/
  | nothing : Skips outcomes (some 0) []
  /-- the record that reaches the limit -/
  | reached {front back : List (Outcome Error (Record × Place))} {record : Record} {place : Place}
      {bound : Nat} (outcomes_eq : outcomes = front ++ .ok (record, place) :: back)
      (count : (front.filterMap Outcome.record?).length = bound) :
      Skips outcomes (some (bound + 1)) (front.filterMap Outcome.skipped?)

theorem Skips.length_le {outcomes : List (Outcome Error (Record × Place))} {limit : Option Nat}
    {skipped : List Error} (h : Skips outcomes limit skipped) :
    skipped.length ≤ outcomes.length := by
  cases h with
  | all left => exact List.length_filterMap_le _ _
  | nothing => exact Nat.zero_le _
  | reached outcomes_eq count =>
    rw [outcomes_eq, List.length_append]
    exact Nat.le_trans (List.length_filterMap_le _ _) (Nat.le_add_right _ _)

/-! ### What is gathered -/

/-- What has been gathered when these outcomes have been read, the last one first. -/
def Harvest.gathered (outcomes : List (Outcome Error (Record × Place))) : Harvest :=
  ⟨(outcomes.filterMap Outcome.record?).reverse, (outcomes.filterMap Outcome.skipped?).reverse,
    Int32.ofNat (outcomes.filterMap Outcome.skipped?).length⟩

theorem Harvest.gathered_record (outcomes : List (Outcome Error (Record × Place)))
    (record : Record) (place : Place) :
    (gathered outcomes).keep record = gathered (outcomes ++ [.ok (record, place)]) := by
  have hrecord : [Outcome.ok (record, place)].filterMap Outcome.record? = [record] := rfl
  have hskipped : [Outcome.ok (record, place)].filterMap Outcome.skipped? = [] := rfl
  simp only [gathered, keep, List.filterMap_append, hrecord, hskipped, List.append_nil,
    List.reverse_append, List.reverse_singleton, List.singleton_append]

theorem Harvest.gathered_skipped (outcomes : List (Outcome Error (Record × Place)))
    (place : Place) (cause : DecodeError) :
    { (gathered outcomes).report (.atLine place (.decoding cause)) with
        skipped := Int32.ofNat ((outcomes.filterMap Outcome.skipped?).length + 1) } =
      gathered (outcomes ++ [.error (.atLine place (.decoding cause))]) := by
  have hrecord : [Outcome.error (.atLine place (.decoding cause))].filterMap Outcome.record? = [] :=
    rfl
  have hskipped : [Outcome.error (.atLine place (.decoding cause))].filterMap Outcome.skipped? =
      [.atLine place (.decoding cause)] := rfl
  simp only [gathered, report, List.filterMap_append, hrecord, hskipped, List.append_nil,
    List.reverse_append, List.reverse_singleton, List.singleton_append, List.length_append,
    List.length_singleton]

theorem Harvest.reverse_gathered (outcomes : List (Outcome Error (Record × Place))) :
    (gathered outcomes).reverse =
      ⟨outcomes.filterMap Outcome.record?, outcomes.filterMap Outcome.skipped?,
        Int32.ofNat (outcomes.filterMap Outcome.skipped?).length⟩ := by
  simp [gathered, reverse]

/-- What a pass comes to that counts something: if there is too much of it, the counter halts the
pass. -/
structure Pass.ComesTo {σ α : Type} (p : Pass σ α) (count : Nat) (value : α)
    (halt? : Option Halt) : Prop where
  /-- the counter suffices -/
  counted : count < 2 ^ 31 → p.value = value ∧ p.halt? = halt?
  /-- the counter does not -/
  overflow : 2 ^ 31 ≤ count → p.halt? = some .overflow

/-- The place of the element that gives one value more. -/
theorem exists_of_lt_length_filterMap {α β : Type} {f : α → Option β} {xs : List α} {n : Nat}
    (h : n < (xs.filterMap f).length) :
    ∃ front x back y, xs = front ++ x :: back ∧ f x = some y ∧
      (front.filterMap f).length = n := by
  have hsplit : xs.filterMap f =
      (xs.filterMap f).take n ++ (xs.filterMap f)[n] :: (xs.filterMap f).drop (n + 1) := by
    rw [List.getElem_cons_drop, List.take_append_drop]
  obtain ⟨first, rest, rfl, hfirst, hrest⟩ := List.filterMap_eq_append_iff.1 hsplit
  obtain ⟨nones, x, back, rfl, hnones, hx, -⟩ := List.filterMap_eq_cons_iff.1 hrest
  refine ⟨first ++ nones, x, back, _, (List.append_assoc _ _ _).symm, hx, ?_⟩
  rw [List.filterMap_append, List.filterMap_eq_nil_iff.2 hnones, List.append_nil, hfirst,
    List.length_take]
  exact Nat.min_eq_left (Nat.le_of_lt h)

namespace Reader

variable {σ : Type} [LineSource σ] {s : Settings} {r : Reader σ}
  {front back outcomes : List (Outcome Error (Record × Place))}
  {last : Outcome Error (Record × Place)} {limit room : Option Nat}

/-! ### One step -/

theorem harvestOnto_full (done : Harvest) (r : Reader σ) :
    r.harvestOnto (some 0) done = ⟨done.reverse, none, r⟩ := by
  rw [harvestOnto, if_pos rfl]

theorem harvestOnto_eq (hroom : room ≠ some 0) (done : Harvest) (r : Reader σ) :
    r.harvestOnto room done =
      match r.hasNext.1 with
      | .error e => ⟨done.reverse, some (.failed (.io e)), r.hasNext.2⟩
      | .ok false => ⟨done.reverse, none, r.hasNext.2⟩
      | .ok true =>
        match r.hasNext.2.read.1 with
        | .ok record =>
          r.hasNext.2.read.2.harvestOnto (room.map (· - 1)) (done.keep record)
        | .error e =>
          match done.skipped.succ? with
          | some skipped => r.hasNext.2.read.2.harvestOnto room { done.report e with skipped }
          | none => ⟨(done.report e).reverse, some .overflow, r.hasNext.2.read.2⟩
        | .oversize => ⟨done.reverse, some .oversize, r.hasNext.2.read.2⟩ := by
  rcases hnext : r.hasNext with ⟨e | _ | _, r'⟩
  · rw [harvestOnto, if_neg hroom, hnext]
  · rw [harvestOnto, if_neg hroom, hnext]
  · rewrite [harvestOnto, if_neg hroom, hnext]
    cases hread : r'.read.1 with
    | ok record => simp only [hread]
    | error cause =>
      cases done.skipped.succ? with
      | none => simp only [hread]
      | some skipped => simp only [hread]
    | oversize => simp only [hread]

/-- A record is kept. -/
theorem Drains.harvestOnto_record {record : Record} {place : Place} (hroom : room ≠ some 0)
    (h : r.Drains s (.ok (record, place) :: outcomes) last) (done : Harvest) :
    ∃ r' : Reader σ, r'.Drains s outcomes last ∧ r.harvestOnto room done =
      r'.harvestOnto (room.map (· - 1)) (done.keep record) := by
  obtain ⟨hask, hread, hdrains⟩ := h.hasNext_line rfl
  refine ⟨_, hdrains, ?_⟩
  rw [harvestOnto_eq hroom, hask]
  simp only [read, hread, Outcome.map_ok]

/-- A malformed line is reported, and counted as long as the counter suffices. -/
theorem Drains.harvestOnto_skipped {place : Place} {cause : DecodeError} (hroom : room ≠ some 0)
    (h : r.Drains s (.error (.atLine place (.decoding cause)) :: outcomes) last) (done : Harvest) :
    ∃ r' : Reader σ, r'.Drains s outcomes last ∧ r.harvestOnto room done =
      match done.skipped.succ? with
      | some skipped =>
        r'.harvestOnto room { done.report (.atLine place (.decoding cause)) with skipped }
      | none => ⟨(done.report (.atLine place (.decoding cause))).reverse, some .overflow, r'⟩ := by
  obtain ⟨hask, hread, hdrains⟩ := h.hasNext_line rfl
  refine ⟨_, hdrains, ?_⟩
  rw [harvestOnto_eq hroom, hask]
  simp only [read, hread, Outcome.map_error]

/-! ### Many steps -/

/-- **Without an input error and below the limit, a harvest goes on**: it gathers all that it
meets. -/
theorem Drains.exists_harvestOnto (hfront : ∀ x ∈ front, x.io? = none)
    (hroom : HasRoom room (front.filterMap Outcome.record?).length)
    (h : r.Drains s (front ++ back) last) (met : List (Outcome Error (Record × Place)))
    (hcount : ((met ++ front).filterMap Outcome.skipped?).length < 2 ^ 31) :
    ∃ r' : Reader σ, r'.Drains s back last ∧ r.harvestOnto room (.gathered met) =
      r'.harvestOnto (room.map (· - (front.filterMap Outcome.record?).length))
        (.gathered (met ++ front)) := by
  -- each outcome is met, and takes up room if it is a record
  induction front generalizing r room met with
  | nil =>
    refine ⟨r, h, ?_⟩
    rw [List.append_nil]
    cases room <;> rfl
  | cons x front ih =>
    have hrest : ∀ x ∈ front, x.io? = none := fun x hmem => hfront x (List.mem_cons_of_mem _ hmem)
    rw [List.append_cons] at hcount ⊢
    cases h.before_end x List.mem_cons_self with
    | record record place =>
      have hrecords : (Outcome.ok (record, place) :: front).filterMap Outcome.record? =
          record :: front.filterMap Outcome.record? := rfl
      rw [hrecords, List.length_cons, Nat.add_comm] at hroom
      obtain ⟨r₁, hdrains₁, hstep⟩ := h.harvestOnto_record hroom.ne_zero (.gathered met)
      rw [Harvest.gathered_record met record place] at hstep
      obtain ⟨r', hdrains, hsteps⟩ := ih hrest hroom.map_sub hdrains₁ _ hcount
      refine ⟨r', hdrains, ?_⟩
      have hsub : ((fun n => n - (front.filterMap Outcome.record?).length) ∘ fun n => n - 1) =
          fun n => n - ((front.filterMap Outcome.record?).length + 1) := by
        funext n
        simp only [Function.comp_apply]
        omega
      rw [hstep, hsteps, hrecords, List.length_cons, Option.map_map, hsub]
    | malformed place cause =>
      have hrecords : (Outcome.error (.atLine place (.decoding cause)) :: front).filterMap
          Outcome.record? = front.filterMap Outcome.record? := rfl
      rw [hrecords] at hroom ⊢
      have hmore : (met.filterMap Outcome.skipped?).length + 1 < 2 ^ 31 := by
        rw [List.filterMap_append, List.filterMap_append, List.length_append,
          List.length_append] at hcount
        exact Nat.lt_of_le_of_lt (Nat.le_add_right _ _) hcount
      obtain ⟨r₁, hdrains₁, hstep⟩ := h.harvestOnto_skipped hroom.ne_zero (.gathered met)
      obtain ⟨r', hdrains, hsteps⟩ := ih hrest hroom hdrains₁ _ hcount
      refine ⟨r', hdrains, ?_⟩
      rw [hstep, Harvest.gathered, Counter.succ?_ofNat hmore]
      dsimp only
      rw [← Harvest.gathered, Harvest.gathered_skipped, hsteps]
    | io cause => cases hfront _ List.mem_cons_self

/-- **Too many malformed lines halt a harvest**, with the one that cannot be counted. -/
theorem Drains.harvest_overflow (hfront : ∀ x ∈ front, x.io? = none)
    (hroom : HasRoom limit (front.filterMap Outcome.record?).length)
    (h : r.Drains s (front ++ back) last)
    (hcount : 2 ^ 31 ≤ (front.filterMap Outcome.skipped?).length) :
    (r.harvest limit).halt? = some .overflow := by
  -- the malformed line that finds the counter at its last number
  have hlast : 2 ^ 31 - 1 < (front.filterMap Outcome.skipped?).length :=
    Nat.lt_of_lt_of_le (by decide) hcount
  obtain ⟨first, x, rest, e, rfl, hx, hfirst⟩ := exists_of_lt_length_filterMap hlast
  obtain ⟨place, cause, rfl, -⟩ := Outcome.exists_of_skipped? hx
  have hrecords : (first.filterMap Outcome.record?).length ≤
      ((first ++ .error (.atLine place (.decoding cause)) :: rest).filterMap
        Outcome.record?).length := by
    rw [List.filterMap_append, List.length_append]
    exact Nat.le_add_right _ _
  rw [List.append_assoc, List.cons_append] at h
  obtain ⟨r', hdrains, hsteps⟩ := h.exists_harvestOnto
    (fun x hmem => hfront x (List.mem_append_left _ hmem)) (hroom.mono hrecords) []
    (by rw [List.nil_append, hfirst]; decide)
  have hleft : limit.map (· - (first.filterMap Outcome.record?).length) ≠ some 0 :=
    (HasRoom.map_sub (n := 0) (hroom.mono hrecords)).ne_zero
  obtain ⟨r'', -, hstep⟩ := hdrains.harvestOnto_skipped hleft (.gathered ([] ++ first))
  have hnone : (Harvest.gathered ([] ++ first)).skipped.succ? = none := by
    rw [List.nil_append, Harvest.gathered, hfirst]
    exact Counter.succ?_last
  have hstart : r.harvest limit = r.harvestOnto limit (.gathered []) := rfl
  rw [hstart, hsteps, hstep, hnone]

/-! ### The end of a harvest -/

/-- What a harvest comes to, by what it comes to when the first outcomes have been gathered. -/
theorem Drains.harvest_comesTo (hfront : ∀ x ∈ front, x.io? = none)
    (hroom : HasRoom limit (front.filterMap Outcome.record?).length)
    (h : r.Drains s (front ++ back) last) {value : Harvest} {halt? : Option Halt}
    (hend : ∀ r' : Reader σ, r'.Drains s back last → ∃ r'' : Reader σ,
      r'.harvestOnto (limit.map (· - (front.filterMap Outcome.record?).length))
        (.gathered front) = ⟨value, halt?, r''⟩) :
    (r.harvest limit).ComesTo (front.filterMap Outcome.skipped?).length value halt? where
  counted := by
    intro hcount
    obtain ⟨r', hdrains, hsteps⟩ := h.exists_harvestOnto hfront hroom [] hcount
    obtain ⟨r'', hlast⟩ := hend r' hdrains
    have hstart : r.harvest limit = r.harvestOnto limit (.gathered []) := rfl
    rw [hstart, hsteps, List.nil_append, hlast]
    exact ⟨rfl, rfl⟩
  overflow := h.harvest_overflow hfront hroom

/-- **An input error below the limit ends a harvest**, and the first one does. -/
theorem Drains.harvest_error {e : IoError} (hfront : ∀ x ∈ front, x.io? = none)
    (hroom : HasRoom limit (front.filterMap Outcome.record?).length)
    (h : r.Drains s (front ++ .error (.io e) :: back) last) :
    (r.harvest limit).ComesTo (front.filterMap Outcome.skipped?).length
      (Harvest.gathered front).reverse (some (.failed (.io e))) := by
  refine h.harvest_comesTo hfront hroom ?_
  intro r' hdrains
  rw [harvestOnto_eq (HasRoom.map_sub (n := 0) hroom).ne_zero, hdrains.hasNext_io.1]
  exact ⟨_, rfl⟩

/-- The first input error of several. -/
theorem exists_first_error {e : IoError} (h : outcomes = front ++ .error (.io e) :: back) :
    ∃ first e' rest, outcomes = first ++ .error (.io e') :: rest ∧
      (∀ x ∈ first, x.io? = none) ∧ first <+: front := by
  induction front generalizing outcomes with
  | nil => exact ⟨[], e, back, h, by simp, List.prefix_rfl⟩
  | cons x front ih =>
    cases hx : x.io? with
    | some e' =>
      refine ⟨[], e', front ++ .error (.io e) :: back, ?_, by simp, List.nil_prefix⟩
      rw [h, Outcome.eq_of_io? hx]
      rfl
    | none =>
      obtain ⟨first, e', rest, heq, hfirst, hprefix⟩ := ih rfl
      refine ⟨x :: first, e', rest, ?_, ?_, (List.prefix_cons_inj x).2 hprefix⟩
      · rw [h, List.cons_append, heq, List.cons_append]
      · intro y hy
        rcases List.mem_cons.1 hy with rfl | hy
        · exact hx
        · exact hfirst y hy

/-- **A harvest that does not reach its limit** has all records. -/
theorem Drains.harvest_all (h : r.Drains s outcomes (.error .endOfInput))
    (hfree : ∀ x ∈ outcomes, x.io? = none)
    (hroom : HasRoom limit (outcomes.filterMap Outcome.record?).length) :
    (r.harvest limit).ComesTo (outcomes.filterMap Outcome.skipped?).length
      (Harvest.gathered outcomes).reverse none := by
  rw [← List.append_nil outcomes] at h
  refine h.harvest_comesTo hfree hroom ?_
  intro r' hdrains
  rw [harvestOnto_eq (HasRoom.map_sub (n := 0) hroom).ne_zero, hdrains.hasNext_end.1]
  exact ⟨_, rfl⟩

/-- **A harvest that reaches its limit** ends with the record that reaches it. -/
theorem Drains.harvest_reached {record : Record} {place : Place}
    (h : r.Drains s (front ++ .ok (record, place) :: back) last)
    (hfree : ∀ x ∈ front, x.io? = none) :
    (r.harvest (some ((front.filterMap Outcome.record?).length + 1))).ComesTo
      (front.filterMap Outcome.skipped?).length
      (Harvest.gathered (front ++ [.ok (record, place)])).reverse none := by
  have hroom : HasRoom (some ((front.filterMap Outcome.record?).length + 1))
      (front.filterMap Outcome.record?).length := by
    rintro bound ⟨⟩
    exact Nat.lt_succ_self _
  have hone : (some ((front.filterMap Outcome.record?).length + 1)).map
      (· - (front.filterMap Outcome.record?).length) = some 1 := by
    rw [Option.map_some, Nat.add_sub_cancel_left]
  have hlimit : some 1 ≠ some 0 := by decide
  refine h.harvest_comesTo hfree hroom ?_
  intro r' hdrains
  obtain ⟨r'', -, hlast⟩ := hdrains.harvestOnto_record hlimit (.gathered front)
  rw [hone, hlast, Option.map_some, Nat.sub_self, harvestOnto_full,
    Harvest.gathered_record front record place]
  exact ⟨_, rfl⟩

/-- What stands below the limit is no input error, if no input error stands below the limit. -/
theorem io?_eq_none_of_hasRoom
    (hno : ∀ front e back, outcomes = front ++ .error (.io e) :: back →
      ¬HasRoom limit (front.filterMap Outcome.record?).length)
    (heq : outcomes = front ++ back)
    (hroom : HasRoom limit (front.filterMap Outcome.record?).length) :
    ∀ x ∈ front, x.io? = none := by
  intro x hmem
  by_contra hx
  obtain ⟨e, hio⟩ := Option.ne_none_iff_exists'.1 hx
  obtain ⟨front', back', rfl⟩ := List.append_of_mem hmem
  rw [Outcome.eq_of_io? hio, List.append_assoc] at heq
  refine hno front' e _ heq (hroom.mono ?_)
  rw [List.filterMap_append, List.length_append]
  exact Nat.le_add_right _ _

/-- **Without an input error below the limit, a harvest has the first records of all**, as many as
the limit permits. -/
theorem Drains.harvest_ok (h : r.Drains s outcomes last) (hclosed : Closes outcomes last)
    (hno : ∀ front e back, outcomes = front ++ .error (.io e) :: back →
      ¬HasRoom limit (front.filterMap Outcome.record?).length) :
    ∃ skipped, Skips outcomes limit skipped ∧
      (r.harvest limit).ComesTo skipped.length
        ⟨limit.elim (outcomes.filterMap Outcome.record?)
          (outcomes.filterMap Outcome.record?).take, skipped, Int32.ofNat skipped.length⟩ none := by
  by_cases hroom : HasRoom limit (outcomes.filterMap Outcome.record?).length
  · refine ⟨_, Skips.all hroom, ?_⟩
    have hfree := io?_eq_none_of_hasRoom hno (List.append_nil outcomes).symm hroom
    -- a fault would be an input error among them
    obtain rfl := hclosed.eq_end hfree
    have hall := h.harvest_all hfree hroom
    rw [Harvest.reverse_gathered] at hall
    cases limit with
    | none => exact hall
    | some bound =>
      rw [Option.elim_some, List.take_of_length_le (Nat.le_of_lt (hroom bound rfl))]
      exact hall
  · obtain ⟨bound, rfl, hbound⟩ : ∃ bound, limit = some bound ∧
        bound ≤ (outcomes.filterMap Outcome.record?).length := by
      simp only [HasRoom, not_forall, Nat.not_lt] at hroom
      obtain ⟨bound, hmem, hle⟩ := hroom
      exact ⟨bound, hmem, hle⟩
    cases bound with
    | zero =>
      refine ⟨[], Skips.nothing, ?_⟩
      rw [harvest, harvestOnto_full]
      exact ⟨fun _ => ⟨rfl, rfl⟩, fun hle => absurd hle (by decide)⟩
    | succ bound =>
      obtain ⟨front, x, back, record, rfl, hx, rfl⟩ := exists_of_lt_length_filterMap hbound
      obtain ⟨place, rfl⟩ := Outcome.exists_of_record? hx
      refine ⟨_, Skips.reached rfl rfl, ?_⟩
      have hbelow : HasRoom (some ((front.filterMap Outcome.record?).length + 1))
          (front.filterMap Outcome.record?).length := by
        rintro bound ⟨⟩
        exact Nat.lt_succ_self _
      have hreached := h.harvest_reached (io?_eq_none_of_hasRoom hno rfl hbelow)
      have hrecord : [Outcome.ok (record, place)].filterMap Outcome.record? = [record] := rfl
      have hskipped : [Outcome.ok (record, place)].filterMap Outcome.skipped? = [] := rfl
      rw [Harvest.reverse_gathered, List.filterMap_append, List.filterMap_append, hrecord, hskipped,
        List.append_nil] at hreached
      rw [Option.elim_some, List.filterMap_append, List.take_length_add_append]
      exact hreached

/-! ### Behind a harvest -/

/-- What asking and reading preserve is preserved by a harvest. -/
theorem Invariant.harvestOnto {Inv : Reader σ → Prop} {P : Outcome Error Unit → Prop}
    (hI : Invariant s Inv P) (h : Inv r) (room : Option Nat) (done : Harvest) :
    Inv (r.harvestOnto room done).reader := by
  -- a harvest asks, reads, and goes on
  have hasked : ∀ {r r' : Reader σ} {answer : Except IoError Bool}, Inv r →
      r.hasNext = (answer, r') → Inv r' := by
    intro r r' answer h hask
    have hkept := (hI.hasNext r h).2
    rw [hask] at hkept
    exact hkept
  fun_induction Reader.harvestOnto room done r with
  | case1 => exact h
  | case2 room done r _ e r' hask => exact hasked h hask
  | case3 room done r _ r' hask => exact hasked h hask
  | case4 room done r _ r' hask record _ ih => exact ih (hI.read (hasked h hask)).2
  | case5 room done r _ r' hask e _ skipped _ ih => exact ih (hI.read (hasked h hask)).2
  | case6 room done r _ r' hask e _ _ => exact (hI.read (hasked h hask)).2
  | case7 room done r _ r' hask _ => exact (hI.read (hasked h hask)).2

end Reader

end SvmLight
