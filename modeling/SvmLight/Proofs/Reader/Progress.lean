import SvmLight.Proofs.Reader.Operation

/-!
# What a reader reads on the way

Every operation but rewinding is made of asking for lines and reading records.
`ReadsOn r records r'` says that the reader `r` becomes `r'` in this way, and that `records` are
read meanwhile, also those that no answer holds because of an error behind them.

* `readsOn_perform` — what an operation reads, and which of it the answer delivers.
* `ReadsOn.exists_passed` — reading on passes some events, and the number of labels is the one
  behind these.
* `Abreast` — readers with the same before them; `ReadsOn.exists_abreast` says that reading on leads
  where requests for records lead, one after another.
-/

namespace SvmLight

/-! ### What an answer delivers -/

/-- The value of a computation, if it has one. -/
def Outcome.value? {ε α : Type} : Outcome ε α → Option α
  | .ok a => some a
  | _ => none

/-- The records in an answer. -/
def Answer.delivered : Answer → List Record
  | .placed x => x.record?.toList
  | .record x => x.value?.toList
  | .next x? => (x?.bind Outcome.value?).toList
  | .records x => x.value?.getD []
  | _ => []

/-- The batch in an answer. -/
def Answer.batch? : Answer → Option Batch
  | .batch (.ok batch?) => batch?
  | _ => none

theorem Outcome.value?_map {ε α β : Type} (f : α → β) (x : Outcome ε α) :
    (f <$> x).value? = x.value?.map f := by
  cases x <;> rfl

/-- What is collected without a failure is all of it. -/
theorem Collected.eq_of_value? {ρ : Type} {c : Collected ρ} {all : List Record}
    (h : all ∈ c.outcome.value?) : all = c.records := by
  rw [Collected.outcome] at h
  cases hstop : c.stop with
  | full | ended =>
    rw [hstop] at h
    exact (Option.some.inj h).symm
  | failed e | oversize =>
    rw [hstop] at h
    cases h

/-- The record of a line is what is read of it, its place left out. -/
theorem Outcome.value?_fst (x : Outcome Error (Record × Place)) :
    (Prod.fst <$> x).value? = x.record? := by
  cases x <;> rfl

/-- Reading some events and then some more. -/
theorem Settings.countAfterEvents_add (s : Settings) (count : Option Nat) (events : Nat → Event)
    (m n : Nat) :
    s.countAfterEvents count events (m + n) =
      s.countAfterEvents (s.countAfterEvents count events m) (fun i => events (m + i)) n := by
  induction n with
  | zero => rfl
  | succ n ih => rw [← Nat.add_assoc, countAfterEvents, countAfterEvents, ih]

namespace Reader

variable {σ : Type} [LineSource σ]

/-- The reader becomes another one by asking and reading, and these records are read on the way. -/
inductive ReadsOn : Reader σ → List Record → Reader σ → Prop where
  /-- nothing is asked -/
  | refl (r : Reader σ) : ReadsOn r [] r
  /-- a line is asked for -/
  | hasNext {r r' : Reader σ} {records : List Record} (rest : ReadsOn r.hasNext.2 records r') :
      ReadsOn r records r'
  /-- a record is read, or is tried to -/
  | readPlaced {r r' : Reader σ} {records : List Record}
      (rest : ReadsOn r.readPlaced.2 records r') :
      ReadsOn r (r.readPlaced.1.record?.toList ++ records) r'

variable {r r' r'' : Reader σ} {records records' : List Record}

theorem ReadsOn.trans (h : ReadsOn r records r') (h' : ReadsOn r' records' r'') :
    ReadsOn r (records ++ records') r'' := by
  induction h with
  | refl r => exact h'
  | hasNext _ ih => exact .hasNext (ih h')
  | readPlaced _ ih =>
    rw [List.append_assoc]
    exact .readPlaced (ih h')

/-! ### Operations -/

theorem readsOn_readPlaced (r : Reader σ) :
    ReadsOn r r.readPlaced.1.record?.toList r.readPlaced.2 := by
  have h := ReadsOn.readPlaced (.refl r.readPlaced.2)
  rw [List.append_nil] at h
  exact h

theorem readsOn_read (r : Reader σ) : ReadsOn r r.read.1.value?.toList r.read.2 := by
  have h := readsOn_readPlaced r
  rw [← Outcome.value?_fst] at h
  exact h

theorem readsOn_next? (r : Reader σ) :
    ReadsOn r (r.next?.1.bind Outcome.value?).toList r.next?.2 := by
  rw [next?_eq]
  cases r.hasNext.1 with
  | error e => exact .hasNext (.refl _)
  | ok answer =>
    cases answer with
    | false => exact .hasNext (.refl _)
    | true => exact .hasNext (readsOn_read _)

/-- **Collecting reads the records that are collected**, also where it fails behind them. -/
theorem readsOn_collect (r : Reader σ) (room : Nat) :
    ReadsOn r (r.collect room).records (r.collect room).reader := by
  induction room generalizing r with
  | zero => exact .refl r
  | succ room ih =>
    have h := readsOn_next? r
    rw [collect_succ]
    rcases hnext : r.next?.1 with _ | record | e | _
    · rw [hnext] at h
      exact h
    · rw [hnext] at h
      exact h.trans (ih r.next?.2)
    · rw [hnext] at h
      exact h
    · rw [hnext] at h
      exact h

/-- All records are read, or those in front of the first error. -/
theorem readsOn_readAll (r : Reader σ) :
    ∃ records, ReadsOn r records r.readAll.2 ∧ ∀ all ∈ r.readAll.1.value?, all = records := by
  obtain ⟨room, -, hread⟩ := r.exists_readAll_eq
  rw [hread]
  exact ⟨_, readsOn_collect r room, fun all => Collected.eq_of_value?⟩

/-- A batch is the batch of the records that are read for it. -/
theorem readsOn_readBatch (r : Reader σ) (size : Nat) :
    ∃ records, ReadsOn r records (r.readBatch size).2 ∧
      ∀ batch? ∈ (r.readBatch size).1.value?,
        batch? = Batch.ofRecords r.settings.numFeatures records := by
  by_cases hfits : size * r.settings.numFeatures < 2 ^ 60
  · rw [readBatch_of_fits hfits]
    refine ⟨_, readsOn_collect r size, ?_⟩
    intro batch? hbatch
    rw [Outcome.value?_map] at hbatch
    obtain ⟨all, hmem, rfl⟩ := Option.map_eq_some_iff.1 hbatch
    rw [Collected.eq_of_value? hmem]
  · rw [readBatch_of_not_fits hfits]
    exact ⟨[], .refl r, by simp [Outcome.value?]⟩

/-- **What an operation reads**: it rewinds, or it reads some records; the records and the batch of
its answer are of these. -/
theorem readsOn_perform (r : Reader σ) (operation : Operation) :
    ((r.perform operation).1.delivered = [] ∧ (r.perform operation).1.batch? = none ∧
        (r.perform operation).2 = r.rewind) ∨
      ∃ records, ReadsOn r records (r.perform operation).2 ∧
        (∀ record ∈ (r.perform operation).1.delivered, record ∈ records) ∧
        ∀ batch ∈ (r.perform operation).1.batch?,
          Batch.ofRecords r.settings.numFeatures records = some batch := by
  cases operation with
  | hasNext => exact .inr ⟨[], .hasNext (.refl _), by simp [perform, Answer.delivered],
      by simp [perform, Answer.batch?]⟩
  | readPlaced => exact .inr ⟨_, readsOn_readPlaced r, fun record h => h, by
      simp [perform, Answer.batch?]⟩
  | read => exact .inr ⟨_, readsOn_read r, fun record h => h, by simp [perform, Answer.batch?]⟩
  | next => exact .inr ⟨_, readsOn_next? r, fun record h => h, by simp [perform, Answer.batch?]⟩
  | readAll =>
    obtain ⟨records, hreads, hall⟩ := r.readsOn_readAll
    refine .inr ⟨records, hreads, ?_, by simp [perform, Answer.batch?]⟩
    intro record hmem
    simp only [perform, Answer.delivered] at hmem
    cases hread : r.readAll.1.value? with
    | none =>
      rw [hread] at hmem
      cases hmem
    | some all =>
      rw [hread, hall all hread] at hmem
      exact hmem
  | readBatch size =>
    obtain ⟨records, hreads, hbatch⟩ := readsOn_readBatch r size
    refine .inr ⟨records, hreads, by simp [perform, Answer.delivered], ?_⟩
    intro batch hmem
    refine (hbatch (some batch) ?_).symm
    simp only [perform] at hmem
    cases hread : (r.readBatch size).1 with
    | ok batch? =>
      rw [hread] at hmem
      exact congrArg some hmem
    | error e =>
      rw [hread] at hmem
      cases hmem
    | oversize =>
      rw [hread] at hmem
      cases hmem
  | rewind => exact .inl ⟨rfl, rfl, rfl⟩

/-- Every operation but rewinding reads on. -/
theorem exists_readsOn (r : Reader σ) {operation : Operation} (h : operation ≠ .rewind) :
    ∃ records, ReadsOn r records (r.perform operation).2 := by
  cases operation with
  | hasNext => exact ⟨[], .hasNext (.refl _)⟩
  | readPlaced => exact ⟨_, readsOn_readPlaced r⟩
  | read => exact ⟨_, readsOn_read r⟩
  | next => exact ⟨_, readsOn_next? r⟩
  | readAll =>
    obtain ⟨records, hreads, -⟩ := r.readsOn_readAll
    exact ⟨records, hreads⟩
  | readBatch size =>
    obtain ⟨records, hreads, -⟩ := readsOn_readBatch r size
    exact ⟨records, hreads⟩
  | rewind => exact absurd rfl h

/-! ### Settings and events -/

theorem ReadsOn.settings_eq (h : ReadsOn r records r') : r'.settings = r.settings := by
  induction h with
  | refl r => rfl
  | hasNext _ ih => exact ih
  | @readPlaced r r' records _ ih =>
    rw [ih, readPlaced_eq]

/-- A reader that has passed one event, and then passes some more. -/
theorem exists_passed_of_later {again : Nat → Event} {r₁ : Reader σ}
    (h : r₁.Stands r.settings (r.settings.readEvent r.labelCount (r.event 0)).2 (later r.event)
      again) {passed : Nat} (hahead : r'.event = fun n => r₁.event (passed + n))
    (hcount : r'.labelCount = r₁.settings.countAfterEvents r₁.labelCount r₁.event passed) :
    ∃ passed, r'.event = (fun n => r.event (passed + n)) ∧
      r'.labelCount = r.settings.countAfterEvents r.labelCount r.event passed := by
  have hlater : later r.event = fun n => r.event (1 + n) := by
    funext n
    rw [later, Nat.add_comm]
  refine ⟨1 + passed, ?_, ?_⟩
  · rw [hahead, h.ahead, hlater]
    funext n
    rw [Nat.add_assoc]
  · rw [hcount, h.settings, h.labelCount, h.ahead, hlater, Settings.countAfterEvents_add]
    rfl

/-- **Reading on passes events**, and the number of labels is the one behind these. -/
theorem ReadsOn.exists_passed (h : ReadsOn r records r') :
    ∃ passed, r'.event = (fun n => r.event (passed + n)) ∧
      r'.labelCount = r.settings.countAfterEvents r.labelCount r.event passed := by
  induction h with
  | refl r => exact ⟨0, (from_zero r.event).symm, rfl⟩
  | @hasNext r r' records _ ih =>
    obtain ⟨passed, hahead, hcount⟩ := ih
    cases hevent : r.event 0 with
    | ok line? =>
      -- asking has not moved past anything
      obtain ⟨-, hstands⟩ := (stands_self r).hasNext_ok hevent
      rw [hstands.settings, hstands.labelCount, hstands.ahead] at hcount
      rw [hstands.ahead] at hahead
      exact ⟨passed, hahead, hcount⟩
    | error e =>
      obtain ⟨-, hstands⟩ := (stands_self r).hasNext_error hevent
      -- an error fixes no number of labels
      have hlater : r.hasNext.2.Stands r.settings
          (r.settings.readEvent r.labelCount (r.event 0)).2 (later r.event) r.rewind.event := by
        rw [hevent]
        exact hstands
      exact exists_passed_of_later hlater hahead hcount
  | @readPlaced r r' records _ ih =>
    obtain ⟨passed, hahead, hcount⟩ := ih
    obtain ⟨-, hstands⟩ := (stands_self r).readPlaced
    exact exists_passed_of_later hstands hahead hcount

/-! ### Side by side -/

/-- Readers with the same before them; where they go after rewinding does not matter. -/
structure Abreast (r r' : Reader σ) : Prop where
  /-- they read lines alike -/
  settings : r.settings = r'.settings
  /-- they know the same number of labels, or none -/
  labelCount : r.labelCount = r'.labelCount
  /-- the same events are still to come -/
  event : r.event = r'.event

theorem Stands.abreast {s : Settings} {count : Option Nat} {ahead again again' : Nat → Event}
    (h : r.Stands s count ahead again) (h' : r'.Stands s count ahead again') : r.Abreast r' :=
  ⟨h.settings.trans h'.settings.symm, h.labelCount.trans h'.labelCount.symm,
    h.ahead.trans h'.ahead.symm⟩

theorem Abreast.stands (h : r.Abreast r') :
    r.Stands r'.settings r'.labelCount r'.event r.rewind.event :=
  ⟨h.settings, h.labelCount, h.event, rfl⟩

theorem Abreast.trans (h : r.Abreast r') (h' : r'.Abreast r'') : r.Abreast r'' :=
  ⟨h.settings.trans h'.settings, h.labelCount.trans h'.labelCount, h.event.trans h'.event⟩

/-- They stay side by side when both are asked for records. -/
theorem Abreast.after (h : r.Abreast r') (n : Nat) : (r.after n).Abreast (r'.after n) :=
  (h.stands.after n).abreast ((stands_self r').after n)

theorem Abreast.outcome (h : r.Abreast r') (n : Nat) : r.outcome n = r'.outcome n :=
  (h.stands.outcome n).trans ((stands_self r').outcome n).symm

/-- **Reading on leads where requests lead.** -/
theorem ReadsOn.exists_abreast (h : ReadsOn r records r') : ∃ n, r'.Abreast (r.after n) := by
  obtain ⟨passed, hahead, hcount⟩ := h.exists_passed
  have hafter := (stands_self r).after passed
  refine ⟨passed, ?_, ?_, ?_⟩
  · rw [h.settings_eq, hafter.settings]
  · rw [hcount, hafter.labelCount]
  · rw [hahead, hafter.ahead]

end Reader

end SvmLight
