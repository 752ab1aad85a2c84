import Mathlib
import SvmLight.Proofs.Reader.Progress
import SvmLight.Proofs.Reader.Replay

/-!
# The shape of records

All records of a reader have one shape for its whole life, whatever fails in between and however
often it is rewound or switched to another source. The settings fix the number of features. The
number of labels is set, or it is fixed once, by the first line that is decoded.

* `Settings.LabelCount` — the numbers of labels that a reader can have.
* `Settings.Shapes`, `Settings.ShapesBatch` — records and batches that have the shape.
* `shapes_of_decode` — a line is decoded into a record that has it.
* `ReadsOn.shapes` — so all records have it that are read on the way, from a step to a whole run.
* `run_shape` — the theorem about all calls.
-/

namespace SvmLight

namespace Settings

variable {s : Settings} {count : Option Nat} {record : Record}

/-! ### Numbers of labels -/

/-- The numbers of labels that a reader with these settings can have. -/
inductive LabelCount (s : Settings) : Option Nat → Prop where
  /-- the one that is set, if any is -/
  | configured : LabelCount s s.numLabels
  /-- the one that a record has brought, where labels are listed and no number is set -/
  | inferred {k : Nat} (mode : s.labelMode = .listed) (numLabels : s.numLabels = none)
      (pos : 1 ≤ k) : LabelCount s (some k)

/-- A record that has the shape, where so many labels are known. -/
structure Shapes (s : Settings) (count : Option Nat) (record : Record) : Prop where
  /-- there is a value for every feature -/
  features : record.features.length = s.numFeatures
  /-- labels are kept, and there are as many as known -/
  kept : s.appendLabel = true → count = some record.labels.length
  /-- labels are left out -/
  omitted : s.appendLabel = false → record.labels = []

/-- A batch that has the shape, where so many labels are known. -/
structure ShapesBatch (s : Settings) (count : Option Nat) (batch : Batch) : Prop where
  /-- a row of features has the number that is set -/
  numFeatures : batch.numFeatures = s.numFeatures
  /-- the features are whole rows -/
  features : batch.features.length = batch.rows * batch.numFeatures
  /-- the labels are whole rows -/
  labels : batch.labels.length = batch.rows * batch.labelWidth
  /-- labels are kept, and a row has as many as known -/
  kept : s.appendLabel = true → count = some batch.labelWidth
  /-- labels are left out -/
  omitted : s.appendLabel = false → batch.labelWidth = 0

/-! ### One line -/

theorem length_of_decodeFeatures {tokens : List Text} {features : List Double}
    (h : Features.decode s tokens = .ok features) : features.length = s.numFeatures := by
  obtain ⟨-, -, h⟩ := Outcome.bind_eq_ok h
  obtain ⟨entries, -, h⟩ := Outcome.bind_eq_ok h
  cases h
  exact length_scatter _ _ _

theorem length_of_indicator {base : IndexBase} {numLabels : Nat} {field : Text}
    {labels : List Value} (h : Labels.indicator base numLabels field = .ok labels) :
    labels.length = numLabels := by
  obtain ⟨-, -, h⟩ := Outcome.bind_eq_ok h
  obtain ⟨indices, -, h⟩ := Outcome.bind_eq_ok h
  cases h
  exact length_scatter _ _ _

/-- A listed field has a piece, also where it is empty. -/
theorem length_of_listed {field : Text} {labels : List Value}
    (h : Labels.listed count field = .ok labels) :
    1 ≤ labels.length ∧ ∀ k, count = some k → labels.length = k := by
  obtain ⟨hcount, hopen⟩ := Labels.listed_eq_ok_iff.1 h
  rw [Labels.length_of_listed_eq_ok hopen]
  exact ⟨List.length_pos_iff.2 (List.splitOn_ne_nil ',' field), hcount⟩

/-- Where labels are not listed, no record brings a number of labels. -/
theorem LabelCount.of_ne_listed (h : s.LabelCount count) (hmode : s.labelMode ≠ .listed) :
    count = s.numLabels := by
  cases h with
  | configured => rfl
  | inferred mode => exact absurd mode hmode

/-- While the number of labels is open, none is set. -/
theorem LabelCount.numLabels_eq_none (h : s.LabelCount count) (hopen : count = none) :
    s.numLabels = none := by
  cases h with
  | configured => exact hopen
  | inferred => cases hopen

/-- A number of labels that is not set comes from a record, and a record has a label. -/
theorem LabelCount.pos (h : s.LabelCount count) (hset : s.numLabels = none) {k : Nat}
    (hk : count = some k) : 1 ≤ k := by
  cases h with
  | configured =>
    rw [hset] at hk
    cases hk
  | inferred _ _ pos =>
    cases hk
    exact pos

/-- The number of listed labels stays if it is known; else a record brings it. -/
theorem LabelCount.or_some (h : s.LabelCount count) (hmode : s.labelMode = .listed) {k : Nat}
    (hpos : 1 ≤ k) : s.LabelCount (count.or (some k)) := by
  cases h with
  | configured =>
    cases hnumLabels : s.numLabels with
    | none => exact .inferred hmode hnumLabels hpos
    | some n =>
      rw [Option.some_or, ← hnumLabels]
      exact .configured
  | inferred mode numLabels pos =>
    rw [Option.some_or]
    exact .inferred mode numLabels pos

/-- The labels of a line that is decoded, and the number of labels behind it. -/
theorem labels_of_decodeLabels (hcount : s.LabelCount count) (features : List Double)
    {field : Text} {labels : List Value} (h : s.decodeLabels count field = .ok labels) :
    let after := s.countAfter count ⟨features, labels⟩
    s.LabelCount after ∧ (s.appendLabel = true → after = some labels.length) ∧
      (s.appendLabel = false → labels = []) := by
  cases hmode : s.labelMode with
  | omitted =>
    have happend := labelMode_eq_omitted_iff.1 hmode
    simp only [decodeLabels, countAfter, hmode] at h ⊢
    refine ⟨hcount, ?_, ?_⟩
    · intro hkept
      rw [happend] at hkept
      cases hkept
    · intro _
      exact (Outcome.ok.inj h).symm
  | indicator n =>
    obtain ⟨happend, -, hnumLabels⟩ := labelMode_eq_indicator_iff.1 hmode
    have hset : count = some n := by
      rw [hcount.of_ne_listed (by rw [hmode]; simp), hnumLabels]
    simp only [decodeLabels, countAfter, hmode] at h ⊢
    refine ⟨hcount, ?_, ?_⟩
    · intro _
      rw [hset, length_of_indicator h]
    · intro hleft
      rw [happend] at hleft
      cases hleft
  | listed =>
    obtain ⟨happend, -⟩ := labelMode_eq_listed_iff.1 hmode
    simp only [decodeLabels, countAfter, hmode] at h ⊢
    obtain ⟨hpos, hknown⟩ := length_of_listed (Outcome.eq_ok_of_ofExcept h)
    have hnumber : count.or (some labels.length) = some labels.length := by
      cases count with
      | none => rfl
      | some k => rw [hknown k rfl, Option.some_or]
    refine ⟨hcount.or_some hmode hpos, fun _ => hnumber, ?_⟩
    intro hleft
    rw [happend] at hleft
    cases hleft

/-- **A line is decoded into a record that has the shape.** -/
theorem shapes_of_decode (hcount : s.LabelCount count) {line : Text}
    (h : s.decode count line = .ok record) :
    s.LabelCount (s.countAfter count record) ∧ s.Shapes (s.countAfter count record) record := by
  rw [decode_eq] at h
  obtain ⟨features, hfeatures, h⟩ := Outcome.bind_eq_ok h
  obtain ⟨labels, hlabels, h⟩ := Outcome.bind_eq_ok h
  cases h
  obtain ⟨hafter, hkept, homitted⟩ := labels_of_decodeLabels hcount features hlabels
  exact ⟨hafter, length_of_decodeFeatures hfeatures, hkept, homitted⟩

/-- Reading an event brings no other number of labels, and no record that has not the shape. -/
theorem shapes_of_readEvent (hcount : s.LabelCount count) (e : Event) :
    s.LabelCount (s.readEvent count e).2 ∧
      ∀ record ∈ (s.readEvent count e).1.record?, s.Shapes (s.readEvent count e).2 record := by
  rcases e with cause | _ | line
  · exact ⟨hcount, by simp [readEvent, Outcome.record?]⟩
  · exact ⟨hcount, by simp [readEvent, Outcome.record?]⟩
  · cases hdecode : s.decode count line.text with
    | ok record =>
      obtain ⟨hafter, hshapes⟩ := shapes_of_decode hcount hdecode
      simp only [readEvent, hdecode, Outcome.record?]
      refine ⟨hafter, ?_⟩
      rintro record' ⟨⟩
      exact hshapes
    | error cause =>
      simp only [readEvent, hdecode, Outcome.record?]
      exact ⟨hcount, by simp⟩
    | oversize =>
      simp only [readEvent, hdecode, Outcome.record?]
      exact ⟨hcount, by simp⟩

/-! ### Many records -/

/-- What has the shape keeps it, when a number of labels becomes known. -/
theorem Shapes.mono {count' : Option Nat} (h : s.Shapes count record)
    (hknown : ∀ k, count = some k → count' = some k) : s.Shapes count' record :=
  ⟨h.features, fun happend => hknown _ (h.kept happend), h.omitted⟩

theorem ShapesBatch.mono {count' : Option Nat} {batch : Batch} (h : s.ShapesBatch count batch)
    (hknown : ∀ k, count = some k → count' = some k) : s.ShapesBatch count' batch :=
  ⟨h.numFeatures, h.features, h.labels, fun happend => hknown _ (h.kept happend), h.omitted⟩

/-- Rows of one width, one after another. -/
theorem length_flatMap_of_forall {α β : Type} {f : α → List β} {width : Nat} {xs : List α}
    (h : ∀ x ∈ xs, (f x).length = width) : (xs.flatMap f).length = xs.length * width := by
  induction xs with
  | nil => rw [List.flatMap_nil, List.length_nil, List.length_nil, Nat.zero_mul]
  | cons x xs ih =>
    rw [List.flatMap_cons, List.length_append, List.length_cons, Nat.succ_mul,
      h x List.mem_cons_self, ih fun y hy => h y (List.mem_cons_of_mem _ hy), Nat.add_comm]

/-- All records that have the shape have as many labels. -/
theorem Shapes.length_labels_eq {record' : Record} (h : s.Shapes count record)
    (h' : s.Shapes count record') : record.labels.length = record'.labels.length := by
  cases happend : s.appendLabel with
  | false => rw [h.omitted happend, h'.omitted happend]
  | true => exact Option.some.inj ((h.kept happend).symm.trans (h'.kept happend))

/-- All batches that have the shape have rows of labels of one width. -/
theorem ShapesBatch.labelWidth_eq {batch batch' : Batch} (h : s.ShapesBatch count batch)
    (h' : s.ShapesBatch count batch') : batch.labelWidth = batch'.labelWidth := by
  cases happend : s.appendLabel with
  | false => rw [h.omitted happend, h'.omitted happend]
  | true => exact Option.some.inj ((h.kept happend).symm.trans (h'.kept happend))

/-- **Records that have the shape make a rectangular batch.** -/
theorem shapesBatch_of_shapes {records : List Record} {batch : Batch}
    (h : ∀ record ∈ records, s.Shapes count record)
    (hbatch : Batch.ofRecords s.numFeatures records = some batch) : s.ShapesBatch count batch := by
  cases records with
  | nil => cases hbatch
  | cons first records =>
    have hfirst := h first List.mem_cons_self
    cases hbatch
    constructor
    · rfl
    · exact length_flatMap_of_forall fun record hmem => (h record hmem).features
    · refine length_flatMap_of_forall fun record hmem => ?_
      rw [List.length_map]
      exact (h record hmem).length_labels_eq hfirst
    · exact hfirst.kept
    · intro happend
      rw [hfirst.omitted happend, List.length_nil]

end Settings

namespace Reader

variable {σ : Type} [LineSource σ] {s : Settings} {r r' : Reader σ} {records : List Record}

/-! ### Reading on -/

theorem ReadsOn.known (h : ReadsOn r records r') {k : Nat} (hk : r.labelCount = some k) :
    r'.labelCount = some k := by
  obtain ⟨passed, -, hcount⟩ := h.exists_passed
  rw [hcount]
  exact Settings.countAfterEvents_known (Nat.zero_le passed) hk

/-- **All records that are read on the way have the shape**, with the number of labels that is known
in the end. -/
theorem ReadsOn.shapes (h : ReadsOn r records r') (hs : r.settings = s)
    (hcount : s.LabelCount r.labelCount) :
    s.LabelCount r'.labelCount ∧ ∀ record ∈ records, s.Shapes r'.labelCount record := by
  induction h with
  | refl r => exact ⟨hcount, by simp⟩
  | hasNext _ ih => exact ih hs hcount
  | @readPlaced r r' records rest ih =>
    subst hs
    obtain ⟨hafter, hshapes⟩ := Settings.shapes_of_readEvent hcount (r.event 0)
    have hread := readPlaced_eq r
    have hlabelCount : r.readPlaced.2.labelCount =
        (r.settings.readEvent r.labelCount (r.event 0)).2 := by rw [hread]
    obtain ⟨hend, hrest⟩ := ih (by rw [hread]) (by rw [hlabelCount]; exact hafter)
    refine ⟨hend, ?_⟩
    intro record hmem
    rcases List.mem_append.1 hmem with hfirst | hmem
    · -- the number of labels that is known behind the first record stays
      rw [hread] at hfirst
      refine (hshapes record (Option.mem_toList.1 hfirst)).mono ?_
      intro k hk
      exact rest.known (hlabelCount.trans hk)
    · exact hrest record hmem

/-- The number of labels comes from a line that is decoded on the way. -/
structure Brings (r r' : Reader σ) (k : Nat) : Prop where
  /-- among the events that are passed there is such a line -/
  line : ∃ passed n line record, n < passed ∧ r'.event = (fun i => r.event (passed + i)) ∧
    r.event n = .ok (some line) ∧ r.settings.decode none line.text = .ok record ∧
    record.labels.length = k
  /-- records keep their labels -/
  appendLabel : r.settings.appendLabel = true
  /-- labels are no indices -/
  multilabel : r.settings.multilabel = false
  /-- a record has a label -/
  pos : 1 ≤ k

/-- A number of labels that was open is known only because a line has been decoded. -/
theorem ReadsOn.brings (h : ReadsOn r records r') (hs : r.settings = s)
    (hcount : s.LabelCount r.labelCount) (hopen : r.labelCount = none) {k : Nat}
    (hk : r'.labelCount = some k) : Brings r r' k := by
  subst hs
  obtain ⟨passed, hahead, hlabelCount⟩ := h.exists_passed
  rw [hk, hopen] at hlabelCount
  obtain ⟨n, line, record, hevent, hdecode, hmode, hlength, hbefore, -⟩ :=
    Settings.exists_first_record hlabelCount.symm
  have hlt : n < passed := by
    by_contra hle
    have := Settings.countAfterEvents_open (Nat.le_of_not_lt hle) hbefore
    rw [← hlabelCount] at this
    cases this
  have hset := hcount.numLabels_eq_none hopen
  obtain ⟨happend, hmulti⟩ := Settings.labelMode_eq_listed_iff.1 hmode
  obtain ⟨hend, -⟩ := h.shapes rfl hcount
  exact ⟨⟨passed, n, line, record, hlt, hahead, hevent, hdecode, hlength⟩, happend, hmulti,
    hend.pos hset hk⟩

/-! ### Calls

A call reads on, or it goes back or elsewhere and leaves the number of labels alone. -/

theorem readsOn_call (r : Reader σ) (c : Call σ) :
    ((r.call c).1.delivered = [] ∧ (r.call c).1.batch? = none ∧
        (r.call c).2.settings = r.settings ∧ (r.call c).2.labelCount = r.labelCount) ∨
      ∃ records, ReadsOn r records (r.call c).2 ∧
        (∀ record ∈ (r.call c).1.delivered, record ∈ records) ∧
        ∀ batch ∈ (r.call c).1.batch?,
          Batch.ofRecords r.settings.numFeatures records = some batch := by
  cases c with
  | switchTo source => exact .inl ⟨rfl, rfl, rfl, rfl⟩
  | stay operation =>
    rcases readsOn_perform r operation with ⟨hdelivered, hbatch, hrewind⟩ | hreads
    · refine .inl ⟨hdelivered, hbatch, ?_, ?_⟩
      · rw [Reader.call, hrewind, Reader.rewind]
      · rw [Reader.call, hrewind, Reader.rewind]
    · exact .inr hreads

/-- What is kept by every call. -/
structure Shaped (s : Settings) (r : Reader σ) : Prop where
  /-- the settings stay what they are -/
  settings : r.settings = s
  /-- the number of labels is one that there can be -/
  labelCount : s.LabelCount r.labelCount

omit [LineSource σ] in
theorem shaped_start (s : Settings) (source : σ) : Shaped s (start s source) :=
  ⟨rfl, .configured⟩

/-- **One call**: the invariant, and the shape of what the answer holds. -/
theorem Shaped.call (h : Shaped s r) (c : Call σ) :
    Shaped s (r.call c).2 ∧
      (∀ record ∈ (r.call c).1.delivered, s.Shapes (r.call c).2.labelCount record) ∧
      ∀ batch ∈ (r.call c).1.batch?, s.ShapesBatch (r.call c).2.labelCount batch := by
  obtain ⟨rfl, hcount⟩ := h
  rcases readsOn_call r c with ⟨hdelivered, hbatch, hsettings, hlabelCount⟩ |
    ⟨records, hreads, hdelivered, hbatch⟩
  · rw [hdelivered, hbatch]
    exact ⟨⟨hsettings, hlabelCount ▸ hcount⟩, by simp, by simp⟩
  · obtain ⟨hend, hshapes⟩ := hreads.shapes rfl hcount
    refine ⟨⟨hreads.settings_eq, hend⟩, ?_, ?_⟩
    · intro record hmem
      exact hshapes record (hdelivered record hmem)
    · intro batch hmem
      exact Settings.shapesBatch_of_shapes hshapes (hbatch batch hmem)

theorem labelCount_call {k : Nat} (hk : r.labelCount = some k) (c : Call σ) :
    (r.call c).2.labelCount = some k := by
  rcases readsOn_call r c with ⟨-, -, -, hlabelCount⟩ | ⟨records, hreads, -, -⟩
  · rw [hlabelCount, hk]
  · exact hreads.known hk

theorem Shaped.brings (h : Shaped s r) (c : Call σ) (hopen : r.labelCount = none) {k : Nat}
    (hk : (r.call c).2.labelCount = some k) : Brings r (r.call c).2 k := by
  rcases readsOn_call r c with ⟨-, -, -, hlabelCount⟩ | ⟨records, hreads, -, -⟩
  · -- going elsewhere brings no number of labels
    rw [hlabelCount, hopen] at hk
    cases hk
  · exact hreads.brings h.settings h.labelCount hopen hk

/-! ### Whole runs -/

theorem labelCount_run {k : Nat} (hk : r.labelCount = some k) (calls : List (Call σ)) :
    (r.run calls).2.labelCount = some k := by
  induction calls generalizing r with
  | nil => exact hk
  | cons c calls ih => exact ih (labelCount_call hk c)

/-- The invariant holds in the end, and all batches have the shape that records have then. -/
theorem Shaped.run (h : Shaped s r) (calls : List (Call σ)) :
    Shaped s (r.run calls).2 ∧
      ∀ answer ∈ (r.run calls).1, ∀ batch ∈ answer.1.batch?,
        s.ShapesBatch (r.run calls).2.labelCount batch := by
  induction calls generalizing r with
  | nil => exact ⟨h, by simp [Reader.run]⟩
  | cons c calls ih =>
    obtain ⟨hnext, -, hbatch⟩ := h.call c
    obtain ⟨hend, hbatches⟩ := ih hnext
    refine ⟨hend, ?_⟩
    intro answer hmem
    rcases List.mem_cons.1 hmem with rfl | hmem
    · intro batch hb
      exact (hbatch batch hb).mono fun k hk => labelCount_run hk calls
    · exact hbatches answer hmem

/-- **The shape of records is fixed for the whole life of a reader.** A new reader has the number of
labels that is set. Whatever it has been asked by now: a number of labels that is known stays; one
that was open becomes known only in a call that decodes a line; and all records and batches that
are delivered have the shape. All batches have rows of one width. -/
theorem run_shape (s : Settings) (source : σ) (calls : List (Call σ)) :
    let r := ((start s source).run calls).2
    (start s source).labelCount = s.numLabels ∧
      (∀ k, r.labelCount = some k → ∀ more, (r.run more).2.labelCount = some k) ∧
      (∀ c : Call σ,
        (∀ k, r.labelCount = none → (r.call c).2.labelCount = some k →
          Brings r (r.call c).2 k) ∧
        (∀ record ∈ (r.call c).1.delivered, s.Shapes (r.call c).2.labelCount record) ∧
        ∀ batch ∈ (r.call c).1.batch?, s.ShapesBatch (r.call c).2.labelCount batch) ∧
      ∀ answer ∈ ((start s source).run calls).1, ∀ answer' ∈ ((start s source).run calls).1,
        ∀ batch ∈ answer.1.batch?, ∀ batch' ∈ answer'.1.batch?,
          batch.labelWidth = batch'.labelWidth := by
  intro r
  obtain ⟨hshaped, hbatches⟩ := (shaped_start s source).run calls
  refine ⟨rfl, ?_, ?_, ?_⟩
  · intro k hk more
    exact labelCount_run hk more
  · intro c
    obtain ⟨-, hdelivered, hbatch⟩ := hshaped.call c
    exact ⟨fun k hopen hk => hshaped.brings c hopen hk, hdelivered, hbatch⟩
  · intro answer hmem answer' hmem' batch hbatch batch' hbatch'
    exact (hbatches answer hmem batch hbatch).labelWidth_eq (hbatches answer' hmem' batch' hbatch')

/-- The first line is malformed. A batch fails at the third one, but the second one has brought a
number of labels by then, and what is read behind it has the shape. -/
theorem run_shape_batch_failed :
    let source := MemoryLines.ofList
      [['x'], ['1', ',', '2'], ['3'], ['n', 'a', 'n', ',', 'i', 'n', 'f']]
    let r := ((start (Settings.plain 1) source).run [.stay .readPlaced]).2
    let r' := ((start (Settings.plain 1) source).run [.stay .readPlaced, .stay (.readBatch 2)]).2
    (r.labelCount = none ∧ (r.call (.stay (.readBatch 2))).2.labelCount = some 2 ∧
        Brings r (r.call (.stay (.readBatch 2))).2 2) ∧
      (r'.labelCount = some 2 ∧ (r'.run [.switchTo source, .stay .read]).2.labelCount = some 2) ∧
      (∃ record ∈ (r'.call (.stay .next)).1.delivered,
        (Settings.plain 1).Shapes (r'.call (.stay .next)).2.labelCount record) ∧
      ∃ batch ∈ (r'.call (.stay (.readBatch 2))).1.batch?,
        (Settings.plain 1).ShapesBatch (r'.call (.stay (.readBatch 2))).2.labelCount batch := by
  have hread :
      let source := MemoryLines.ofList
        [['x'], ['1', ',', '2'], ['3'], ['n', 'a', 'n', ',', 'i', 'n', 'f']]
      let r := ((start (Settings.plain 1) source).run [.stay .readPlaced]).2
      let r' := ((start (Settings.plain 1) source).run [.stay .readPlaced, .stay (.readBatch 2)]).2
      r.labelCount = none ∧ r'.labelCount = some 2 ∧
        0 < (r'.call (.stay .next)).1.delivered.length ∧
        (r'.call (.stay (.readBatch 2))).1.batch?.isSome = true := by
    cbv
  intro source r r'
  obtain ⟨hopen, hknown, hrecord, hbatch⟩ := hread
  obtain ⟨-, -, hcall, -⟩ := run_shape (Settings.plain 1) source [.stay .readPlaced]
  obtain ⟨-, hstays, hcall', -⟩ :=
    run_shape (Settings.plain 1) source [.stay .readPlaced, .stay (.readBatch 2)]
  obtain ⟨record, hmem⟩ := List.exists_mem_of_length_pos hrecord
  obtain ⟨batch, hmem'⟩ := Option.isSome_iff_exists.1 hbatch
  exact ⟨⟨hopen, hknown, (hcall _).1 2 hopen hknown⟩, ⟨hknown, hstays 2 hknown _⟩,
    ⟨record, hmem, (hcall' _).2.1 record hmem⟩, batch, hmem', (hcall' _).2.2 batch hmem'⟩

end Reader

end SvmLight
