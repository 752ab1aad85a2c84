import Mathlib
import SvmLight.Proofs.Reader.Drained
import SvmLight.Proofs.Reader.OneByOne

/-!
# Batches

A batch holds the records that asking one by one comes to. If records are all that a reader gives,
it does not matter how many of them go into a batch: the batches hold the same numbers.

* `Batch.Holds` — the records in a batch; `Answers` — what the answer is, however collecting stops.
* `Drains.exists_collect`, `Drains.readBatch` — a batch takes records from the front.
* `Drains.exists_delivers` — so the records are delivered in batches.
* `readBatch_one_by_one` — **a batch is read one by one**.
-/

namespace SvmLight

/-! ### The records of a batch -/

/-- The batch holds these records, of which there is at least one. -/
structure Batch.Holds (numFeatures : Nat) (records : List Record) (batch : Batch) : Prop where
  /-- each record is a row -/
  rows_eq : batch.rows = records.length
  /-- the features of one record after another -/
  features_eq : batch.features = records.flatMap Record.features
  /-- the labels of one record after another -/
  labels_eq : batch.labels = records.flatMap fun record => record.labels.map Value.toDouble
  /-- the number of features is the one that is set -/
  numFeatures_eq : batch.numFeatures = numFeatures
  /-- the number of labels is that of the first record -/
  labelWidth_eq : some batch.labelWidth = records.head?.map fun record => record.labels.length

theorem Batch.ofRecords_eq_some_iff {numFeatures : Nat} {records : List Record} {batch : Batch} :
    Batch.ofRecords numFeatures records = some batch ↔ batch.Holds numFeatures records := by
  cases records with
  | nil =>
    refine iff_of_false (by simp [ofRecords]) ?_
    intro h
    cases h.labelWidth_eq
  | cons first records =>
    constructor
    · intro h
      cases h
      exact ⟨rfl, rfl, rfl, rfl, rfl⟩
    · rintro ⟨hrows, hfeatures, hlabels, hnumFeatures, hwidth⟩
      obtain ⟨features, labels, rows, numFeatures', labelWidth⟩ := batch
      dsimp only at hrows hfeatures hlabels hnumFeatures hwidth
      cases hwidth
      rw [hrows, hfeatures, hlabels, hnumFeatures, ofRecords]

/-- Some records are a batch. -/
theorem Batch.exists_holds {records : List Record} (numFeatures : Nat) (h : records ≠ []) :
    ∃ batch, Batch.ofRecords numFeatures records = some batch ∧
      batch.Holds numFeatures records := by
  cases records with
  | nil => exact absurd rfl h
  | cons record records => exact ⟨_, rfl, ofRecords_eq_some_iff.1 rfl⟩

/-- The answer to a request for a batch, if these records are collected for it. -/
inductive Collected.Answers {σ : Type} (numFeatures : Nat) (c : Collected σ) :
    Outcome Error (Option Batch) → Prop where
  /-- no record, and no failure -/
  | none (stop : c.stop = .full ∨ c.stop = .ended) (records : c.records = []) :
      Answers numFeatures c (.ok none)
  /-- records, and no failure -/
  | some {batch : Batch} (stop : c.stop = .full ∨ c.stop = .ended)
      (holds : batch.Holds numFeatures c.records) : Answers numFeatures c (.ok (some batch))
  /-- a failure, and the records in front of it are dropped -/
  | failed {e : Error} (stop : c.stop = .failed e) : Answers numFeatures c (.error e)
  /-- a line that is beyond the address space -/
  | oversize (stop : c.stop = .oversize) : Answers numFeatures c .oversize

theorem Collected.answers_ofRecords {σ : Type} (numFeatures : Nat) (c : Collected σ) :
    c.Answers numFeatures (Batch.ofRecords numFeatures <$> c.outcome) := by
  have hsome : c.stop = .full ∨ c.stop = .ended →
      c.Answers numFeatures (.ok (Batch.ofRecords numFeatures c.records)) := by
    intro hstop
    by_cases hnil : c.records = []
    · rw [hnil]
      exact .none hstop hnil
    · obtain ⟨batch, hbatch, hholds⟩ := Batch.exists_holds numFeatures hnil
      rw [hbatch]
      exact .some hstop hholds
  rw [outcome]
  cases hstop : c.stop with
  | full => exact hsome (.inl hstop)
  | ended => exact hsome (.inr hstop)
  | failed e => exact .failed hstop
  | oversize => exact .oversize hstop

namespace Reader

variable {σ : Type} [LineSource σ] {s : Settings} {r r' : Reader σ} {records : List Record}
  {placed : List (Record × Place)} {rest : List (Outcome Error (Record × Place))}
  {last : Outcome Error (Record × Place)} {size : Nat}

/-! ### One batch -/

/-- **Records are collected from the front**, as long as there is room. -/
theorem Drains.exists_collect (h : r.Drains s (placed.map Outcome.ok ++ rest) last) (room : Nat) :
    ∃ r' : Reader σ, r'.Drains s rest last ∧
      r.collect (placed.length + room) =
        { r'.collect room with records := placed.map Prod.fst ++ (r'.collect room).records } := by
  induction placed generalizing r with
  | nil =>
    refine ⟨r, h, ?_⟩
    rw [List.length_nil, Nat.zero_add]
    rfl
  | cons x placed ih =>
    obtain ⟨hnext, hafter⟩ := h.next?_cons
    obtain ⟨r', hdrains, hcollect⟩ := ih hafter
    refine ⟨r', hdrains, ?_⟩
    rw [List.length_cons, Nat.add_right_comm, collect_succ, hnext, Outcome.map_ok]
    exact congrArg (Collected.cons x.1) hcollect

section Fits

variable (hfits : size * s.numFeatures < 2 ^ 60)
include hfits

/-- The first records are a batch, if there are enough of them or the end comes next. -/
theorem Drains.readBatch (h : r.Drains s (placed.map Outcome.ok ++ rest) last)
    (hnext : size ≤ placed.length ∨ rest = [] ∧ last = .error .endOfInput) :
    (r.readBatch size).1 =
        .ok (Batch.ofRecords s.numFeatures ((placed.map Prod.fst).take size)) ∧
      (r.readBatch size).2.Drains s ((placed.drop size).map Outcome.ok ++ rest) last := by
  have hsettings := h.settings
  subst hsettings
  rw [readBatch_of_fits hfits]
  rcases Nat.lt_or_ge placed.length size with hlt | hle
  · obtain ⟨rfl, rfl⟩ := hnext.resolve_left (Nat.not_le.2 hlt)
    obtain ⟨k, rfl⟩ := Nat.exists_eq_add_of_lt hlt
    obtain ⟨r', hdrains, hcollect⟩ := h.exists_collect (k + 1)
    obtain ⟨hend, hafter⟩ := hdrains.next?_end
    have hshort : (placed.map Prod.fst).length ≤ placed.length + (k + 1) := by
      rw [List.length_map]
      exact Nat.le_add_right _ _
    rw [collect_succ, hend] at hcollect
    rw [Nat.add_assoc, hcollect, List.take_of_length_le hshort,
      List.drop_eq_nil_of_le (Nat.le_add_right _ _)]
    simp only [Collected.outcome, List.append_nil]
    exact ⟨rfl, hafter⟩
  · have htake : (placed.take size).length = size := List.length_take_of_le hle
    rw [← List.take_append_drop size placed, List.map_append, List.append_assoc] at h
    obtain ⟨r', hdrains, hcollect⟩ := h.exists_collect 0
    rw [Nat.add_zero, htake, collect_zero] at hcollect
    rw [hcollect, ← List.map_take]
    simp only [Collected.outcome, List.append_nil]
    exact ⟨rfl, hdrains⟩

/-- At an error they are dropped. -/
theorem Drains.readBatch_error {e : Error}
    (h : r.Drains s (placed.map Outcome.ok ++ .error e :: rest) last)
    (hlt : placed.length < size) :
    (r.readBatch size).1 = .error e := by
  rw [← h.settings] at hfits
  obtain ⟨k, rfl⟩ := Nat.exists_eq_add_of_lt hlt
  obtain ⟨r', hdrains, hcollect⟩ := h.exists_collect (k + 1)
  obtain ⟨hnext, -⟩ := hdrains.next?_cons
  rw [collect_succ, hnext] at hcollect
  rw [readBatch_of_fits hfits, Nat.add_assoc, hcollect]
  rfl

end Fits

/-! ### Many batches -/

/-- The reader after so many batches have been asked for. -/
def afterBatches (size : Nat) (r : Reader σ) : Nat → Reader σ
  | 0 => r
  | n + 1 => ((r.afterBatches size n).readBatch size).2

/-- What the `n`-th request for a batch comes to. -/
def batchOutcome (size : Nat) (r : Reader σ) (n : Nat) : Outcome Error (Option Batch) :=
  ((r.afterBatches size n).readBatch size).1

theorem afterBatches_succ (size : Nat) (r : Reader σ) (n : Nat) :
    r.afterBatches size (n + 1) = (r.readBatch size).2.afterBatches size n := by
  induction n with
  | zero => rfl
  | succ n ih => exact congrArg (fun r : Reader σ => (r.readBatch size).2) ih

theorem batchOutcome_succ (size : Nat) (r : Reader σ) (n : Nat) :
    r.batchOutcome size (n + 1) = (r.readBatch size).2.batchOutcome size n := by
  rw [batchOutcome, afterBatches_succ, batchOutcome]

/-- The records come in these batches, and then there is none for ever. -/
structure Delivers (r : Reader σ) (size : Nat) (records : List Record) (batches : List Batch) :
    Prop where
  /-- the answers, one after another -/
  outcome : ∀ n, r.batchOutcome size n = .ok batches[n]?
  /-- there are as many as it takes -/
  length_eq : batches.length = (records.length + size - 1) / size
  /-- all but the last one are full -/
  rows : ∀ batch ∈ batches.dropLast, batch.rows = size
  /-- the features of all records, row after row -/
  features : batches.flatMap Batch.features = records.flatMap Record.features
  /-- the labels of all records, row after row -/
  labels : batches.flatMap Batch.labels =
    records.flatMap fun record => record.labels.map Value.toDouble

/-- How many batches are left when one has been read. -/
theorem ceil_sub {size n : Nat} (hsize : 0 < size) (hn : 0 < n) :
    (n + size - 1) / size = (n - size + size - 1) / size + 1 := by
  have hone : n + size - 1 = n - 1 + size := by omega
  rw [hone, Nat.add_div_right _ hsize]
  rcases Nat.lt_or_ge n size with hlt | hle
  · rw [Nat.div_eq_of_lt (by omega), Nat.div_eq_of_lt (by omega)]
  · have hsub : n - size + size - 1 = n - 1 := by omega
    rw [hsub]

/-- At the end there is no batch, and nothing changes. -/
theorem Drains.readBatch_end (hfits : size * s.numFeatures < 2 ^ 60)
    (h : r.Drains s [] (.error .endOfInput)) :
    (r.readBatch size).1 = .ok none ∧
      (r.readBatch size).2.Drains s [] (.error .endOfInput) := by
  have hempty : r.Drains s (([] : List (Record × Place)).map Outcome.ok ++ [])
      (.error .endOfInput) := h
  obtain ⟨hread, hafter⟩ := hempty.readBatch hfits (.inr ⟨rfl, rfl⟩)
  rw [List.map_nil, List.take_nil] at hread
  rw [List.drop_nil] at hafter
  exact ⟨hread, hafter⟩

/-- So there is none, however often one asks. -/
theorem Drains.batchOutcome_end (hfits : size * s.numFeatures < 2 ^ 60)
    (h : r.Drains s [] (.error .endOfInput)) (n : Nat) : r.batchOutcome size n = .ok none := by
  obtain ⟨hread, hafter⟩ := h.readBatch_end hfits
  induction n generalizing r with
  | zero => exact hread
  | succ n ih =>
    rw [batchOutcome_succ]
    obtain ⟨hread', hafter'⟩ := hafter.readBatch_end hfits
    exact ih hafter hread' hafter'

theorem Drains.delivers_nil (hfits : size * s.numFeatures < 2 ^ 60) (hsize : 0 < size)
    (h : r.Drains s [] (.error .endOfInput)) : r.Delivers size [] [] where
  outcome := h.batchOutcome_end hfits
  length_eq := by
    refine (Nat.div_eq_of_lt ?_).symm
    rw [List.length_nil]
    omega
  rows := by simp
  features := rfl
  labels := rfl

/-- One batch, and those that follow it. -/
theorem Delivers.cons {batch : Batch} {batches : List Batch} {numFeatures : Nat}
    (hrest : (r.readBatch size).2.Delivers size (records.drop size) batches) (hsize : 0 < size)
    (hne : records ≠ []) (hread : (r.readBatch size).1 = .ok (some batch))
    (hholds : batch.Holds numFeatures (records.take size)) :
    r.Delivers size records (batch :: batches) where
  outcome := by
    intro n
    cases n with
    | zero => exact hread
    | succ n =>
      rw [batchOutcome_succ]
      exact hrest.outcome n
  length_eq := by
    rw [List.length_cons, hrest.length_eq, List.length_drop,
      ceil_sub hsize (List.length_pos_iff.2 hne)]
  rows := by
    intro other hmem
    cases batches with
    | nil => cases hmem
    | cons second batches =>
      rw [List.dropLast_cons_cons] at hmem
      rcases List.mem_cons.1 hmem with rfl | hmem
      · -- there is a second batch, so records are left for it
        have hleft : size ≤ records.length := by
          by_contra hless
          have hlength := hrest.length_eq
          rw [List.length_drop, Nat.div_eq_of_lt (by omega)] at hlength
          cases hlength
        rw [hholds.rows_eq, List.length_take_of_le hleft]
      · exact hrest.rows other hmem
  features := by
    rw [List.flatMap_cons, hholds.features_eq, hrest.features, ← List.flatMap_append,
      List.take_append_drop]
  labels := by
    rw [List.flatMap_cons, hholds.labels_eq, hrest.labels, ← List.flatMap_append,
      List.take_append_drop]

/-- **Records are delivered in batches**, one batch after another. -/
theorem Drains.exists_delivers (hfits : size * s.numFeatures < 2 ^ 60) (hsize : 0 < size)
    (h : r.Drains s (placed.map Outcome.ok) (.error .endOfInput)) :
    ∃ batches, r.Delivers size (placed.map Prod.fst) batches := by
  induction hlength : placed.length using Nat.strong_induction_on generalizing r placed with
  | _ length ih =>
    subst hlength
    by_cases hnil : placed = []
    · subst hnil
      exact ⟨[], h.delivers_nil hfits hsize⟩
    · have hpos := List.length_pos_iff.2 hnil
      rw [← List.append_nil (placed.map Outcome.ok)] at h
      obtain ⟨hread, hafter⟩ := h.readBatch hfits (.inr ⟨rfl, rfl⟩)
      rw [List.append_nil] at hafter
      have hless : (placed.drop size).length < placed.length := by
        rw [List.length_drop]
        omega
      obtain ⟨batches, hbatches⟩ := ih _ hless hafter rfl
      rw [List.map_drop] at hbatches
      have hne : (placed.map Prod.fst).take size ≠ [] := by
        rw [← List.length_pos_iff, List.length_take, List.length_map]
        omega
      have hrecords : placed.map Prod.fst ≠ [] := by simpa using hnil
      obtain ⟨batch, hbatch, hholds⟩ := Batch.exists_holds s.numFeatures hne
      rw [hbatch] at hread
      exact ⟨batch :: batches, hbatches.cons hsize hrecords hread hholds⟩

/-! ### Readers that give only records -/

/-- Each request comes to a record, or to the end. -/
def Clean (r : Reader σ) : Prop :=
  ∀ n, (∃ x, r.outcome n = .ok x) ∨ r.outcome n = .error .endOfInput

/-- Outcomes that are all records have their places, too. -/
theorem exists_placed {outcomes : List (Outcome Error (Record × Place))}
    (h : outcomes.map Outcome.record? = records.map some) :
    ∃ placed : List (Record × Place), outcomes = placed.map Outcome.ok ∧
      placed.map Prod.fst = records := by
  induction outcomes generalizing records with
  | nil =>
    obtain rfl := List.map_eq_nil_iff.1 h.symm
    exact ⟨[], rfl, rfl⟩
  | cons x outcomes ih =>
    obtain ⟨record, records, rfl, hx, hrest⟩ := List.map_eq_cons_iff.1 h.symm
    obtain ⟨place, rfl⟩ := Outcome.exists_of_record? hx.symm
    obtain ⟨placed, rfl, rfl⟩ := ih hrest.symm
    exact ⟨(record, place) :: placed, rfl, rfl⟩

/-- **All records of such a reader can be read at once**, and one by one. -/
theorem Clean.exists_drains (h : r.Clean) :
    ∃ placed : List (Record × Place), r.readAll.1 = .ok (placed.map Prod.fst) ∧
      r.Drains r.settings (placed.map Outcome.ok) (.error .endOfInput) := by
  obtain ⟨room, hnotFull, hread⟩ := r.exists_readAll_eq
  have hgets := r.collect_getsTo room
  have hrecord : ∀ k < (r.collect room).records.length,
      ∃ record place, r.outcome k = .ok (record, place) := fun k hk => hgets.exists_record hk
  obtain ⟨hrecords, hstops⟩ := hgets
  generalize r.collect room = c at hnotFull hread hrecord hrecords hstops
  obtain ⟨records, stop, r'⟩ := c
  dsimp only at hnotFull hrecord hrecords hstops
  cases hstops with
  | full _ _ => exact absurd rfl hnotFull
  | failed _ event_ne outcome_eq _ =>
    rcases h records.length with ⟨x, hx⟩ | hend
    · rw [hx] at outcome_eq
      cases outcome_eq
    · exact absurd (event_of_outcome_end hend) event_ne
  | oversize _ outcome_eq =>
    rcases h records.length with ⟨x, hx⟩ | hend
    · rw [hx] at outcome_eq
      cases outcome_eq
    · rw [hend] at outcome_eq
      cases outcome_eq
  | ended _ event_eq _ =>
    have hends : r.EndsAt records.length := by
      refine ⟨outcome_of_event_end event_eq, ?_⟩
      intro k hk
      obtain ⟨record, place, hx⟩ := hrecord k hk
      simp [hx]
    have hdrains : r.Drains r.settings (r.outcomes records.length) (.error .endOfInput) := by
      refine ⟨rfl, hends.outcome_eq, ?_⟩
      intro x hmem
      obtain ⟨k, hk, rfl⟩ := List.mem_map.1 hmem
      obtain ⟨record, place, hx⟩ := hrecord k (List.mem_range.1 hk)
      rw [hx]
      exact .record record place
    obtain ⟨placed, hplaced, rfl⟩ := exists_placed hrecords
    rw [hplaced] at hdrains
    exact ⟨placed, congrArg Prod.fst hread, hdrains⟩

/-! ### Later batches -/

/-- The batch holds what the requests come to, from the `n`-th on. -/
def HoldsFrom (r : Reader σ) (n : Nat) (batch : Batch) : Prop :=
  ∃ records, batch.Holds r.settings.numFeatures records ∧
    ((r.after n).outcomes records.length).map Outcome.record? = records.map some

/-- Whatever `r'` is asked but to rewind, its batches hold what the requests of `r` come to, from
the `n`-th on, and nothing before. -/
def BatchesFrom (r : Reader σ) (n : Nat) (r' : Reader σ) : Prop :=
  ∀ operations : List Operation, .rewind ∉ operations →
    ∀ answer ∈ (r'.run (operations.map .stay)).1, ∀ batch ∈ answer.1.batch?,
      ∃ m, n ≤ m ∧ r.HoldsFrom m batch

/-- A batch holds what comes next. -/
theorem holdsFrom_of_readBatch {n : Nat} {batch : Batch} (h : r'.Abreast (r.after n))
    (hread : (r'.readBatch size).1 = .ok (some batch)) : r.HoldsFrom n batch := by
  by_cases hfits : size * r'.settings.numFeatures < 2 ^ 60
  · rw [readBatch_of_fits hfits] at hread
    obtain ⟨hrecords, hstops⟩ := r'.collect_getsTo size
    have hsettings : r'.settings = r.settings := h.settings.trans (settings_after r n)
    have hsame : r'.outcomes (r'.collect size).records.length =
        (r.after n).outcomes (r'.collect size).records.length :=
      List.map_congr_left fun k _ => h.outcome k
    refine ⟨_, ?_, hsame ▸ hrecords⟩
    rw [← hsettings]
    dsimp only at hread
    have hanswers := (r'.collect size).answers_ofRecords r'.settings.numFeatures
    rw [hread] at hanswers
    cases hanswers with
    | some _ holds => exact holds
  · rw [readBatch_of_not_fits hfits] at hread
    cases hread

/-- Nothing but rewinding gets back to what has been passed. -/
theorem Abreast.perform {n : Nat} (h : r'.Abreast (r.after n)) {operation : Operation}
    (hne : operation ≠ .rewind) :
    (∃ m, n ≤ m ∧ (r'.perform operation).2.Abreast (r.after m)) ∧
      ∀ batch ∈ (r'.perform operation).1.batch?, r.HoldsFrom n batch := by
  constructor
  · obtain ⟨records, hreads⟩ := r'.exists_readsOn hne
    obtain ⟨k, habreast⟩ := hreads.exists_abreast
    have hboth := habreast.trans (h.after k)
    rw [← after_add] at hboth
    exact ⟨n + k, Nat.le_add_right n k, hboth⟩
  · intro batch hmem
    cases operation with
    | readBatch size =>
      refine holdsFrom_of_readBatch h (?_ : (r'.readBatch size).1 = .ok (some batch))
      simp only [Reader.perform] at hmem
      rcases hread : (r'.readBatch size).1 with batch? | e | _
      · rw [hread] at hmem
        exact congrArg Outcome.ok hmem
      · rw [hread] at hmem
        cases hmem
      · rw [hread] at hmem
        cases hmem
    | rewind => exact absurd rfl hne
    | hasNext => cases hmem
    | readPlaced => cases hmem
    | read => cases hmem
    | next => cases hmem
    | readAll => cases hmem

/-- **No batch holds what has been passed**, unless the reader is rewound. -/
theorem Abreast.batchesFrom {n : Nat} (h : r'.Abreast (r.after n)) : r.BatchesFrom n r' := by
  intro operations hrewind
  induction operations generalizing r' n with
  | nil => simp [Reader.run]
  | cons operation operations ih =>
    rw [List.mem_cons, not_or] at hrewind
    obtain ⟨⟨m, hle, habreast⟩, hbatch⟩ := h.perform (Ne.symm hrewind.1)
    intro answer hmem batch hb
    rcases List.mem_cons.1 hmem with rfl | hmem
    · exact ⟨n, Nat.le_refl n, hbatch batch hb⟩
    · obtain ⟨k, hk, hholds⟩ := ih habreast hrewind.2 answer hmem batch hb
      exact ⟨k, Nat.le_trans hle hk, hholds⟩

/-! ### Batches and records -/

/-- **A batch is read one by one**: the answer and the reader are those that asking for one record
after another comes to, and after a failure no later batch holds a record in front of it. So if all
that is left are records, they are delivered in batches of any size. -/
theorem readBatch_one_by_one (r : Reader σ) :
    (∀ size, size * r.settings.numFeatures < 2 ^ 60 →
      (r.collect size).Answers r.settings.numFeatures (r.readBatch size).1 ∧
        (r.readBatch size).2 = (r.collect size).reader ∧
        r.GetsTo size (r.collect size) ∧
        ∀ e, (r.readBatch size).1 = .error e →
          r.BatchesFrom ((r.collect size).records.length + 1) (r.readBatch size).2) ∧
      (r.Clean → ∃ records, r.readAll.1 = .ok records ∧
        ∀ size, 0 < size → size * r.settings.numFeatures < 2 ^ 60 →
          ∃ batches, r.Delivers size records batches) := by
  constructor
  · intro size hfits
    have hanswers := (r.collect size).answers_ofRecords r.settings.numFeatures
    have hgets := r.collect_getsTo size
    rw [readBatch_of_fits hfits]
    refine ⟨hanswers, rfl, hgets, ?_⟩
    intro e he
    dsimp only at he
    rw [he] at hanswers
    cases hanswers with
    | failed hstop =>
      have hstops := hgets.stops
      rw [hstop] at hstops
      cases hstops with
      | failed _ _ _ abreast => exact abreast.batchesFrom
  · intro hclean
    obtain ⟨placed, hread, hdrains⟩ := hclean.exists_drains
    refine ⟨placed.map Prod.fst, hread, ?_⟩
    intro size hsize hfits
    exact hdrains.exists_delivers hfits hsize

/-- The second of four lines is malformed, so the record in front of it is dropped. The reader
stands behind it then, and the records that are left come in one batch of three, or in batches of
one. -/
theorem readBatch_one_by_one_dropped :
    let r := start (Settings.plain 1) (MemoryLines.ofList [['1'], ['x'], ['#'], ['2'], ['3']])
    let r' := (r.readBatch 3).2
    (∃ e, (r.readBatch 3).1 = .error e ∧ (r.collect 3).records.length = 1 ∧
        r'.Abreast (r.after 2) ∧ r.BatchesFrom 2 r') ∧
      r'.Clean ∧
      ∃ records, r'.readAll.1 = .ok records ∧
        (∃ batches, r'.Delivers 3 records batches) ∧ ∃ batches, r'.Delivers 1 records batches := by
  have hread :
      let r := start (Settings.plain 1) (MemoryLines.ofList [['1'], ['x'], ['#'], ['2'], ['3']])
      (r.readBatch 3).1 = .error (.atLine ⟨2, none⟩ (.decoding (.malformedLabel ['x']))) ∧
        (r.collect 3).records.length = 1 ∧ (r.outcome 2).record?.isSome = true ∧
        (r.outcome 3).record?.isSome = true ∧ r.outcome 4 = .error .endOfInput := by
    cbv
    exact ⟨rfl, trivial⟩
  intro r r'
  obtain ⟨herror, hlength, htwo, hthree, hend⟩ := hread
  have hrecord : ∀ n, (r.outcome n).record?.isSome = true → ∃ x, r.outcome n = .ok x := by
    intro n hn
    obtain ⟨record, hrecord⟩ := Option.isSome_iff_exists.1 hn
    obtain ⟨place, hx⟩ := Outcome.exists_of_record? hrecord
    exact ⟨_, hx⟩
  obtain ⟨hbatch, -⟩ := readBatch_one_by_one r
  obtain ⟨hanswers, hreader, ⟨-, hstops⟩, hfrom⟩ := hbatch 3 (by decide)
  have habreast : r'.Abreast (r.after 2) := by
    rw [herror] at hanswers
    cases hanswers with
    | failed hstop =>
      rw [hstop, hlength] at hstops
      cases hstops with
      | failed _ _ _ abreast => rwa [← hreader] at abreast
  have hclean : r'.Clean := by
    intro n
    rw [habreast.outcome, outcome_after]
    rcases n with _ | _ | n
    · exact .inl (hrecord 2 htwo)
    · exact .inl (hrecord 3 hthree)
    · refine .inr (outcome_of_event_end (event_of_event_end (event_of_outcome_end hend) ?_))
      omega
  have hsettings : r'.settings = Settings.plain 1 := habreast.settings.trans (settings_after r 2)
  obtain ⟨-, hrecords⟩ := readBatch_one_by_one r'
  obtain ⟨records, hall, hdelivers⟩ := hrecords hclean
  rw [hsettings] at hdelivers
  rw [hlength] at hfrom
  exact ⟨⟨_, herror, hlength, habreast, hfrom _ herror⟩, hclean, records, hall,
    hdelivers 3 (by decide) (by decide), hdelivers 1 (by decide) (by decide)⟩

end Reader

end SvmLight
