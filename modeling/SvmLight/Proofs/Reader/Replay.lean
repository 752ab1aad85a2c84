import SvmLight.Proofs.Reader.Operation
import SvmLight.Source.Memory

/-!
# Reading again

A reader that has been rewound reads the events of its source for a second time, but it may know a
number of labels that it did not know the first time. That number was fixed by the first record of
the first reading, so the second one comes to the same records and the same errors — with one
exception: a line in front of that record can have a malformed label, and have another number of
labels as well. The number is looked at first, but only once it is known.

* `countAfterEvents_again` — reading a stream again, up to some event, leaves the number of labels
  that the longer one of the two readings leaves.
* `exists_first_record` — a number of labels that was open comes from a first record.
* `Within` — the invariant: a reader has passed some events, and its number of labels is the one
  after these events or after later ones.
* `Within.outcome_rewind` — a reader within that, once it is rewound, reads what a new one reads.
* `outcome_rewind_run` — the same after any operations.
-/

namespace SvmLight

namespace Settings

variable {s : Settings} {events : Nat → Event}

/-! ### The number of labels -/

/-- A number of labels that is known is known from then on. -/
theorem countAfterEvents_known {count : Option Nat} {n m known : Nat} (hle : n ≤ m)
    (h : s.countAfterEvents count events n = some known) :
    s.countAfterEvents count events m = some known := by
  induction hle with
  | refl => exact h
  | step _ ih =>
    rw [countAfterEvents, ih]
    exact readEvent_known s known _

/-- What is open after some events has been open all the time. -/
theorem countAfterEvents_open {count : Option Nat} {n m : Nat} (hle : n ≤ m)
    (h : s.countAfterEvents count events m = none) :
    s.countAfterEvents count events n = none := by
  cases hn : s.countAfterEvents count events n with
  | none => rfl
  | some known =>
    rw [countAfterEvents_known hle hn] at h
    cases h

/-- An event that has been read does not change the number of labels when it is read again. -/
theorem readEvent_again (count : Option Nat) {n m : Nat} (hlt : n < m) :
    (s.readEvent (s.countAfterEvents count events m) (events n)).2 =
      s.countAfterEvents count events m := by
  cases hm : s.countAfterEvents count events m with
  | some known => exact readEvent_known s known _
  | none =>
    -- nothing up to `m` has fixed the number, and this event is one of those
    have hbefore := countAfterEvents_open (Nat.le_of_lt hlt) hm
    have hafter := countAfterEvents_open (Nat.succ_le_of_lt hlt) hm
    rw [countAfterEvents, hbefore] at hafter
    exact hafter

/-- Reading the first events again, and some more of them perhaps. -/
theorem countAfterEvents_again (count : Option Nat) (m n : Nat) :
    s.countAfterEvents (s.countAfterEvents count events m) events n =
      s.countAfterEvents count events (max m n) := by
  induction n with
  | zero => rw [Nat.max_zero, countAfterEvents]
  | succ n ih =>
    rw [countAfterEvents, ih]
    by_cases hlt : n < m
    · rw [Nat.max_eq_left (Nat.le_of_lt hlt), Nat.max_eq_left (Nat.succ_le_of_lt hlt)]
      exact readEvent_again count hlt
    · have hle : m ≤ n := Nat.le_of_not_lt hlt
      rw [Nat.max_eq_right hle, Nat.max_eq_right (Nat.le_succ_of_le hle), countAfterEvents]

/-! ### The first record -/

/-- An event that fixes the number of labels is a line that is decoded. -/
theorem of_readEvent_fixes {e : Event} {known : Nat} (h : (s.readEvent none e).2 = some known) :
    ∃ line record, e = .ok (some line) ∧ s.decode none line.text = .ok record ∧
      s.labelMode = .listed ∧ record.labels.length = known := by
  match e with
  | .error cause => cases h
  | .ok none => cases h
  | .ok (some line) =>
    cases hdecode : s.decode none line.text with
    | ok record =>
      simp only [readEvent, hdecode] at h
      exact ⟨line, record, rfl, hdecode, of_countAfter_eq_some h⟩
    | error cause => simp [readEvent, hdecode] at h
    | oversize => simp [readEvent, hdecode] at h

/-- A number of labels that was open comes from the first line that is decoded: it is open in front
of that line and known behind it. -/
theorem exists_first_record {q known : Nat} (h : s.countAfterEvents none events q = some known) :
    ∃ m line record, events m = .ok (some line) ∧ s.decode none line.text = .ok record ∧
      s.labelMode = .listed ∧ record.labels.length = known ∧
      s.countAfterEvents none events m = none ∧
      s.countAfterEvents none events (m + 1) = some known := by
  induction q with
  | zero => cases h
  | succ q ih =>
    cases hq : s.countAfterEvents none events q with
    | some known' =>
      rw [countAfterEvents_known (Nat.le_succ q) hq] at h
      cases h
      exact ih hq
    | none =>
      have hfixes := h
      rw [countAfterEvents, hq] at hfixes
      obtain ⟨line, record, hevent, hdecode, hmode, hlength⟩ := of_readEvent_fixes hfixes
      exact ⟨q, line, record, hevent, hdecode, hmode, hlength, hq, h⟩

/-- Where labels are listed and their number is still open afterwards, nothing was decoded. -/
theorem readEvent_ne_ok_of_open (hmode : s.labelMode = .listed) {e : Event}
    (h : (s.readEvent none e).2 = none) (x : Record × Place) : (s.readEvent none e).1 ≠ .ok x := by
  match e with
  | .error cause => simp [readEvent]
  | .ok none => simp [readEvent]
  | .ok (some line) =>
    cases hdecode : s.decode none line.text with
    | ok record =>
      simp only [readEvent, hdecode, countAfter_listed hmode] at h
      cases h
    | error cause => simp [readEvent, hdecode]
    | oversize => simp [readEvent, hdecode]

/-! ### One event, read twice -/

/-- A line that is decoded and fixes the number of labels is decoded alike with that number. -/
theorem readEvent_record_again (hmode : s.labelMode = .listed) {line : SourceLine}
    {record : Record} (h : s.decode none line.text = .ok record) :
    (s.readEvent (some record.labels.length) (.ok (some line))).1 =
      (s.readEvent none (.ok (some line))).1 := by
  simp only [readEvent, h, decode_known_of_ok hmode h]

/-- An event that is no record, and left the number of labels open, is no record when the number is
known: it comes to the same, or a malformed label has become a wrong number of labels. -/
theorem readEvent_failure_again (hs : s.Fits) (hmode : s.labelMode = .listed) {e : Event}
    (h : (s.readEvent none e).2 = none) (known : Nat) :
    (s.readEvent (some known) e).1 = (s.readEvent none e).1 ∨
      ∃ place token found,
        (s.readEvent none e).1 = .error (.atLine place (.decoding (.malformedLabel token))) ∧
        (s.readEvent (some known) e).1 =
          .error (.atLine place (.decoding (.labelCountMismatch found known))) := by
  rcases e with cause | _ | line
  · exact .inl rfl
  · exact .inl rfl
  cases hdecode : s.decode none line.text with
  | oversize => exact absurd hdecode (decode_ne_oversize hs _ _)
  | ok record =>
    -- a record would have fixed the number
    have hfixed : (s.readEvent none (.ok (some line))).1 = .ok (record, line.place) := by
      simp only [readEvent, hdecode]
    exact absurd hfixed (readEvent_ne_ok_of_open hmode h _)
  | error cause =>
    rcases decode_known_of_error hmode hdecode known with hsame | ⟨token, found, rfl, hother⟩
    · left
      simp only [readEvent, hdecode, hsame]
    · right
      refine ⟨line.place, token, found, ?_, ?_⟩
      · simp only [readEvent, hdecode]
      · simp only [readEvent, hother]

end Settings

namespace Reader

variable {σ : Type} [LineSource σ]

/-- The first record that is read is the `m`-th outcome. -/
def FirstRecord (r : Reader σ) (m : Nat) (record : Record) : Prop :=
  (∃ place, r.outcome m = .ok (record, place)) ∧ ∀ k < m, ∀ x, r.outcome k ≠ .ok x

/-- The one way in which an outcome may differ from the `n`-th one of a new reader: a malformed
label has become a wrong number of labels, on a line in front of the first record, and that record
has the expected number. -/
structure Miscounted (fresh : Reader σ) (n : Nat) (outcome : Outcome Error (Record × Place)) :
    Prop where
  /-- the same line fails, for another reason -/
  cause : ∃ place token found m record,
    fresh.outcome n = .error (.atLine place (.decoding (.malformedLabel token))) ∧
      outcome = .error (.atLine place
        (.decoding (.labelCountMismatch found record.labels.length))) ∧
      n < m ∧ fresh.FirstRecord m record
  /-- records keep their labels -/
  appendLabel : fresh.settings.appendLabel = true
  /-- labels are no indices -/
  multilabel : fresh.settings.multilabel = false
  /-- their number is not set -/
  numLabels : fresh.settings.numLabels = none

variable {s : Settings} {events : Nat → Event}

/-! ### The invariant -/

/-- A reader with these settings has come so far, or has been rewound to where it is: it stands
behind some of the events of a rewound source, and its number of labels is the one behind as many
events or more. -/
def Within (s : Settings) (events : Nat → Event) (r : Reader σ) : Prop :=
  ∃ p q, p ≤ q ∧
    r.Stands s (s.countAfterEvents s.numLabels events q) (fun k => events (p + k)) events

/-- A reader that has moved past one more event. -/
theorem within_of_later {r : Reader σ} {p q : Nat} (hle : p ≤ q)
    (h : r.Stands s (s.readEvent (s.countAfterEvents s.numLabels events q) (events p)).2
      (later fun k => events (p + k)) events) : Within s events r := by
  rw [later_from] at h
  by_cases hlt : p < q
  · rw [Settings.readEvent_again _ hlt] at h
    exact ⟨p + 1, q, hlt, h⟩
  · -- the event is a new one
    have hpq : p = q := Nat.le_antisymm hle (Nat.le_of_not_lt hlt)
    subst hpq
    exact ⟨p + 1, p + 1, Nat.le_refl _, h⟩

theorem within_start (s : Settings) (source : σ) :
    Within s (LineSource.event (LineSource.rewind source))
      (start s (LineSource.rewind source)) := by
  have hstands := stands_start s (LineSource.rewind source)
  rw [LineSource.rewind_rewind] at hstands
  refine ⟨0, 0, Nat.le_refl 0, ?_⟩
  rw [from_zero]
  exact hstands

/-- **Reading keeps within what has been read.** -/
theorem invariant_within (hs : s.Fits) :
    Invariant s (Within s events : Reader σ → Prop) (· ≠ .oversize) where
  settings := by
    rintro r ⟨p, q, -, h⟩
    exact h.settings
  ok := by simp
  hasNext := by
    rintro r ⟨p, q, hle, h⟩
    cases hevent : events p with
    | ok line? =>
      obtain ⟨hask, hstands⟩ := h.hasNext_ok hevent
      rw [hask]
      exact ⟨by simp [Answer.outcome], p, q, hle, hstands⟩
    | error e =>
      obtain ⟨hask, hstands⟩ := h.hasNext_error hevent
      rw [hask]
      refine ⟨by simp [Answer.outcome], within_of_later hle ?_⟩
      rw [hevent]
      exact hstands
  readPlaced := by
    rintro r ⟨p, q, hle, h⟩
    obtain ⟨hread, hstands⟩ := h.readPlaced
    refine ⟨?_, within_of_later hle hstands⟩
    rw [hread]
    exact Outcome.void_ne_oversize (Settings.readEvent_ne_oversize hs _ _)
  rewind := by
    rintro r ⟨p, q, -, h⟩
    refine ⟨0, q, Nat.zero_le q, ?_⟩
    rw [from_zero]
    exact h.rewind

/-! ### The second reading -/

/-- What a reader that has been rewound reads from then on. -/
theorem Within.exists_outcome_rewind {r : Reader σ} (h : Within s events r) :
    ∃ q, ∀ n, r.rewind.outcome n =
      (s.readEvent (s.countAfterEvents s.numLabels events (max q n)) (events n)).1 := by
  obtain ⟨p, q, -, hstands⟩ := h
  refine ⟨q, ?_⟩
  intro n
  rw [hstands.rewind.outcome n, Settings.countAfterEvents_again]

/-- Until the first line that is decoded, a new reader reads no record. -/
theorem firstRecord_of_decode {fresh : Reader σ} {again : Nat → Event}
    (hfresh : fresh.Stands s none events again) (hmode : s.labelMode = .listed) {m : Nat}
    {line : SourceLine} {record : Record} (hevent : events m = .ok (some line))
    (hdecode : s.decode none line.text = .ok record)
    (hopen : s.countAfterEvents none events m = none) : fresh.FirstRecord m record := by
  constructor
  · refine ⟨line.place, ?_⟩
    rw [hfresh.outcome m, hopen, hevent]
    simp only [Settings.readEvent, hdecode]
  · intro k hk x
    have hk_open := Settings.countAfterEvents_open (Nat.le_of_lt hk) hopen
    have hk_after := Settings.countAfterEvents_open (Nat.succ_le_of_lt hk) hopen
    rw [Settings.countAfterEvents, hk_open] at hk_after
    rw [hfresh.outcome k, hk_open]
    exact Settings.readEvent_ne_ok_of_open hmode hk_after x

/-- An event is read while the number of labels is open, and read again when it is known from a
record behind it or from the event itself. -/
theorem eq_or_miscounted {fresh : Reader σ} {again : Nat → Event} (hs : s.Fits)
    (hfresh : fresh.Stands s s.numLabels events again) {n q known : Nat}
    (hopen : s.countAfterEvents s.numLabels events n = none)
    (hknown : s.countAfterEvents s.numLabels events q = some known) :
    (s.readEvent (some known) (events n)).1 = fresh.outcome n ∨
      Miscounted fresh n (s.readEvent (some known) (events n)).1 := by
  have hnumLabels : s.numLabels = none := Settings.countAfterEvents_open (Nat.zero_le n) hopen
  rw [hnumLabels] at hfresh hopen hknown
  rw [hfresh.outcome n, hopen]
  obtain ⟨m, line, record, hevent, hdecode, hmode, rfl, hm_open, hm_known⟩ :=
    Settings.exists_first_record hknown
  -- in front of the event the number is open, so the first record cannot stand there
  have hle : n ≤ m := by
    by_contra hlt
    have := Settings.countAfterEvents_known (Nat.succ_le_of_lt (Nat.lt_of_not_le hlt)) hm_known
    rw [hopen] at this
    cases this
  rcases Nat.eq_or_lt_of_le hle with rfl | hlt
  · -- the event is the first record itself
    left
    rw [hevent]
    exact Settings.readEvent_record_again hmode hdecode
  · have hn_after := Settings.countAfterEvents_open (Nat.succ_le_of_lt hlt) hm_open
    rw [Settings.countAfterEvents, hopen] at hn_after
    rcases Settings.readEvent_failure_again hs hmode hn_after record.labels.length with
      hsame | ⟨place, token, found, hfirst, hsecond⟩
    · exact .inl hsame
    · right
      obtain ⟨happend, hmulti⟩ := Settings.labelMode_eq_listed_iff.1 hmode
      have hrecord := firstRecord_of_decode hfresh hmode hevent hdecode hm_open
      have hfailed : fresh.outcome n =
          .error (.atLine place (.decoding (.malformedLabel token))) := by
        rw [hfresh.outcome n, hopen]
        exact hfirst
      constructor
      · exact ⟨place, token, found, m, record, hfailed, hsecond, hlt, hrecord⟩
      · rw [hfresh.settings]
        exact happend
      · rw [hfresh.settings]
        exact hmulti
      · rw [hfresh.settings]
        exact hnumLabels

/-- A reader within what has been read, once it is rewound, and a new reader. -/
theorem Within.outcome_rewind {fresh r : Reader σ} {again : Nat → Event} (hs : s.Fits)
    (hfresh : fresh.Stands s s.numLabels events again) (h : Within s events r) (n : Nat) :
    r.rewind.outcome n ≠ .oversize ∧
      (r.rewind.outcome n = fresh.outcome n ∨ Miscounted fresh n (r.rewind.outcome n)) := by
  obtain ⟨q, hagain⟩ := h.exists_outcome_rewind
  rw [hagain n]
  refine ⟨Settings.readEvent_ne_oversize hs _ _, ?_⟩
  cases hfirst : s.countAfterEvents s.numLabels events n with
  | some known =>
    left
    rw [hfresh.outcome n, hfirst, Settings.countAfterEvents_known (Nat.le_max_right q n) hfirst]
  | none =>
    cases hsecond : s.countAfterEvents s.numLabels events (max q n) with
    | none =>
      left
      rw [hfresh.outcome n, hfirst]
    | some known =>
      -- only the second reading knows the number here
      exact eq_or_miscounted hs hfresh hfirst hsecond

/-- **Reading again comes to the same**: whatever a new reader has been asked, after rewinding it
reads the records and the errors that a new reader reads from the same source, one by one and at the
same places. Only a malformed label may become a wrong number of labels, and only in front of the
first record. -/
theorem outcome_rewind_run (hs : s.Fits) (source : σ) {operations : List Operation}
    (hfits : ∀ operation ∈ operations, operation.Fits s) (n : Nat) :
    let fresh := start s (LineSource.rewind source)
    let again := (fresh.run (operations.map .stay)).2.rewind
    fresh.outcome n ≠ .oversize ∧ again.outcome n ≠ .oversize ∧
      (again.outcome n = fresh.outcome n ∨ Miscounted fresh n (again.outcome n)) := by
  intro fresh again
  have hstands : fresh.Stands s s.numLabels (LineSource.event (LineSource.rewind source))
      (LineSource.event (LineSource.rewind (LineSource.rewind source))) := stands_start s _
  have hwithin := ((invariant_within hs).run_stay (within_start s source) hfits).2
  refine ⟨?_, hwithin.outcome_rewind hs hstands n⟩
  rw [hstands.outcome n]
  exact Settings.readEvent_ne_oversize hs _ _

/-- The line in front of the first record has a malformed label, and two labels where the record
has one; by then the record has been read. -/
theorem outcome_rewind_run_malformed_first :
    (Settings.plain 1).Fits ∧
      (∀ operation ∈ [Operation.read, .hasNext, .next], operation.Fits (Settings.plain 1)) ∧
      let fresh := start (Settings.plain 1)
        (LineSource.rewind (MemoryLines.ofList [['x', ',', '2'], ['1']]))
      let again := (fresh.run ([Operation.read, .hasNext, .next].map .stay)).2.rewind
      fresh.outcome 0 ≠ .oversize ∧ again.outcome 0 ≠ .oversize ∧
        (again.outcome 0 = fresh.outcome 0 ∨ Miscounted fresh 0 (again.outcome 0)) := by
  have hs : (Settings.plain 1).Fits := Settings.fits_plain (by decide)
  have hfits : ∀ operation ∈ [Operation.read, .hasNext, .next],
      operation.Fits (Settings.plain 1) := by
    simp [Operation.Fits]
  exact ⟨hs, hfits, outcome_rewind_run hs _ hfits 0⟩

end Reader

end SvmLight
