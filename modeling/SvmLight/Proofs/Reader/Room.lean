import SvmLight.Proofs.Reader.Batches
import SvmLight.Proofs.Strict
import SvmLight.Source.Memory

/-!
# Room

Nothing that a reader is asked for is left without an answer, but for a row or a batch that no
address space has room for.

* `Settings.decode_eq_oversize_iff` — the settings and lines for whose rows there is no room.
* `Reader.NoRoomAt`, `Reader.Requests` — a line of that kind, and the lines that an operation
  decodes.
* `Reader.collect_eq_oversize_iff` — collecting records comes to such a line, or to something else
  before it.
* `Reader.perform_eq_oversize_iff` — which operations are left without an answer.
* `Reader.answers_unless_no_room` — **nothing else goes wrong**, in lines and in readers.
-/

namespace SvmLight

theorem Outcome.map_eq_oversize_iff {ε α β : Type} {f : α → β} {x : Outcome ε α} :
    f <$> x = .oversize ↔ x = .oversize := by
  cases x <;> simp

theorem Outcome.void_eq_oversize_iff {ε α : Type} {x : Outcome ε α} :
    x.void = .oversize ↔ x = .oversize := map_eq_oversize_iff

theorem Collected.outcome_eq_oversize_iff {ρ : Type} {c : Collected ρ} :
    c.outcome = .oversize ↔ c.stop = .oversize := by
  rw [outcome]
  cases c.stop <;> simp

/-! ### Lines -/

theorem Features.decode_eq_oversize_iff {s : Settings} {tokens : List Text} :
    decode s tokens = .oversize ↔ 2 ^ 60 ≤ s.numFeatures := by
  have hreserve : (Outcome.reserve s.numFeatures bytesPerFeature : Outcome DecodeError Unit) =
      .oversize ↔ 2 ^ 60 ≤ s.numFeatures := by
    rw [Outcome.reserve_eq_oversize_iff, Outcome.addressSpace, bytesPerFeature]
    omega
  rw [decode, Outcome.bind_eq_oversize_iff, hreserve, or_iff_left_iff_imp]
  rintro ⟨-, -, h⟩
  refine absurd h (Outcome.bind_ne_oversize (Outcome.ofExcept_ne_oversize _) ?_)
  simp

theorem Labels.indicator_eq_oversize_iff {base : IndexBase} {numLabels : Nat} {field : Text} :
    indicator base numLabels field = .oversize ↔ 2 ^ 59 ≤ numLabels := by
  have hreserve : (Outcome.reserve numLabels bytesPerLabel : Outcome DecodeError Unit) =
      .oversize ↔ 2 ^ 59 ≤ numLabels := by
    rw [Outcome.reserve_eq_oversize_iff, Outcome.addressSpace, bytesPerLabel]
    omega
  rw [indicator, Outcome.bind_eq_oversize_iff, hreserve, or_iff_left_iff_imp]
  rintro ⟨-, -, h⟩
  refine absurd h (Outcome.bind_ne_oversize (Outcome.ofExcept_ne_oversize _) ?_)
  simp

namespace Settings

variable {s : Settings} {count : Option Nat} {line : Text}

theorem decodeLabels_eq_oversize_iff {field : Text} :
    s.decodeLabels count field = .oversize ↔
      s.appendLabel = true ∧ s.multilabel = true ∧ ∃ n, s.numLabels = some n ∧ 2 ^ 59 ≤ n := by
  rw [decodeLabels]
  cases hmode : s.labelMode with
  | omitted =>
    have happend := labelMode_eq_omitted_iff.1 hmode
    simp [happend]
  | indicator n =>
    obtain ⟨happend, hmulti, hn⟩ := labelMode_eq_indicator_iff.1 hmode
    simp [happend, hmulti, hn, Labels.indicator_eq_oversize_iff]
  | listed =>
    obtain ⟨-, hmulti⟩ := labelMode_eq_listed_iff.1 hmode
    simp [hmulti, Outcome.ofExcept_ne_oversize]

/-- **No room for a line**: there are too many features, whatever the line is, or else too many
labels in a line of which the features are decoded. -/
theorem decode_eq_oversize_iff :
    s.decode count line = .oversize ↔
      2 ^ 60 ≤ s.numFeatures ∨
        s.appendLabel = true ∧ s.multilabel = true ∧ (∃ n, s.numLabels = some n ∧ 2 ^ 59 ≤ n) ∧
          ∃ features, Features.decode s (Line.fields line).2 = .ok features := by
  rw [decode_eq, Outcome.bind_eq_oversize_iff, Features.decode_eq_oversize_iff]
  have hlabels : ∀ features : List Double,
      ((s.decodeLabels count (Line.fields line).1 >>= fun labels =>
        (.ok ⟨features, labels⟩ : Outcome DecodeError Record)) = .oversize) ↔
      s.appendLabel = true ∧ s.multilabel = true ∧ ∃ n, s.numLabels = some n ∧ 2 ^ 59 ≤ n := by
    intro features
    simp [Outcome.bind_eq_oversize_iff, decodeLabels_eq_oversize_iff]
  simp only [hlabels]
  tauto

end Settings

namespace Reader

variable {σ : Type} [LineSource σ] {r : Reader σ} {n room : Nat}

/-! ### Requests -/

/-- The `n`-th request for a record meets a line, and there is no room for its rows. -/
def NoRoomAt (r : Reader σ) (n : Nat) : Prop :=
  ∃ line, r.event n = .ok (some line) ∧
    r.settings.decode (r.after n).labelCount line.text = .oversize

theorem outcome_eq_oversize_iff : r.outcome n = .oversize ↔ r.NoRoomAt n := by
  have hcount := ((stands_self r).after n).labelCount
  rw [(stands_self r).outcome n, ← hcount, NoRoomAt]
  rcases r.event n with cause | _ | line
  · simp [Settings.readEvent]
  · simp [Settings.readEvent]
  · cases hdecode : r.settings.decode (r.after n).labelCount line.text with
    | ok record => simp [Settings.readEvent, hdecode]
    | error e => simp [Settings.readEvent, hdecode]
    | oversize => simp [Settings.readEvent, hdecode]

/-- Records come in front of a request. -/
def RecordsBefore (r : Reader σ) (n : Nat) : Prop := ∀ k < n, ∃ x, r.outcome k = .ok x

/-- Collecting stops at a line without room, if there are records in front of it, and not enough of
them. -/
theorem GetsTo.stop_eq_oversize {c : Collected (Reader σ)} (h : r.GetsTo room c)
    (hbefore : r.RecordsBefore n) (hfull : c.stop = .full → n < room)
    (hn : r.outcome n = .oversize) : c.stop = .oversize := by
  have hle : c.records.length ≤ n := by
    by_contra hlt
    obtain ⟨record, place, hrecord⟩ := h.exists_record (Nat.lt_of_not_le hlt)
    rw [hn] at hrecord
    cases hrecord
  -- it goes on as long as there are records, so it stops at this line or at none
  have hnext : r.outcome c.records.length = .oversize ∨
      ∃ x, r.outcome c.records.length = .ok x := by
    rcases Nat.lt_or_eq_of_le hle with hlt | heq
    · exact .inr (hbefore _ hlt)
    · exact .inl (heq ▸ hn)
  have hstops := h.stops
  obtain ⟨records, stop, r'⟩ := c
  dsimp only at hstops hnext hle hfull ⊢
  cases hstops with
  | full eq _ =>
    have hlt := hfull rfl
    omega
  | ended _ event_eq _ =>
    rw [outcome_of_event_end event_eq] at hnext
    simp at hnext
  | failed _ _ outcome_eq _ =>
    rw [outcome_eq] at hnext
    simp at hnext
  | oversize _ _ => rfl

/-- So it does at no other line. -/
theorem GetsTo.exists_of_oversize {c : Collected (Reader σ)} (h : r.GetsTo room c)
    (hstop : c.stop = .oversize) : ∃ n < room, r.RecordsBefore n ∧ r.outcome n = .oversize := by
  have hstops := h.stops
  rw [hstop] at hstops
  cases hstops with
  | oversize lt outcome_eq =>
    refine ⟨_, lt, ?_, outcome_eq⟩
    intro k hk
    obtain ⟨record, place, hrecord⟩ := h.exists_record hk
    exact ⟨_, hrecord⟩

/-- **Collecting comes to a line without room** if there is one, with records in front of it. -/
theorem collect_eq_oversize_iff :
    (r.collect room).outcome = .oversize ↔ ∃ n < room, r.RecordsBefore n ∧ r.NoRoomAt n := by
  simp only [← outcome_eq_oversize_iff]
  rw [Collected.outcome_eq_oversize_iff]
  constructor
  · exact (r.collect_getsTo room).exists_of_oversize
  · rintro ⟨n, hlt, hbefore, hn⟩
    exact (r.collect_getsTo room).stop_eq_oversize hbefore (fun _ => hlt) hn

theorem readAll_eq_oversize_iff :
    r.readAll.1 = .oversize ↔ ∃ n, r.RecordsBefore n ∧ r.NoRoomAt n := by
  obtain ⟨room, hfull, hread⟩ := r.exists_readAll_eq
  rw [hread]
  constructor
  · intro h
    obtain ⟨n, -, hn⟩ := collect_eq_oversize_iff.1 h
    exact ⟨n, hn⟩
  · rintro ⟨n, hbefore, hn⟩
    rw [← outcome_eq_oversize_iff] at hn
    exact Collected.outcome_eq_oversize_iff.2
      ((r.collect_getsTo room).stop_eq_oversize hbefore (fun h => absurd h hfull) hn)

theorem readBatch_eq_oversize_iff {size : Nat} :
    (r.readBatch size).1 = .oversize ↔
      2 ^ 60 ≤ size * r.settings.numFeatures ∨ ∃ n < size, r.RecordsBefore n ∧ r.NoRoomAt n := by
  by_cases hfits : size * r.settings.numFeatures < 2 ^ 60
  · rw [readBatch_of_fits hfits, Outcome.map_eq_oversize_iff, collect_eq_oversize_iff,
      or_iff_right (Nat.not_le.2 hfits)]
  · rw [readBatch_of_not_fits hfits]
    exact iff_of_true rfl (.inl (Nat.le_of_not_lt hfits))

theorem next?_eq_oversize_iff : r.next?.1 = some .oversize ↔ r.NoRoomAt 0 := by
  rw [← outcome_eq_oversize_iff]
  rcases r.next?_cases with ⟨hnext, hend, -⟩ | ⟨hnext, -, -⟩
  · rw [hnext, outcome_of_event_end hend]
    simp
  · rw [hnext, Option.some_inj]
    exact Outcome.map_eq_oversize_iff

/-- The lines that an operation decodes: the `n`-th request for a record is made, if the reader has
been asked for this. -/
inductive Requests (r : Reader σ) : Operation → Nat → Prop where
  /-- the next line is decoded at once -/
  | readPlaced : Requests r .readPlaced 0
  /-- the next line is decoded at once -/
  | read : Requests r .read 0
  /-- the next line is decoded, if there is one -/
  | next : Requests r .next 0
  /-- one line is decoded behind the other, as long as there are records -/
  | readAll {n : Nat} (before : r.RecordsBefore n) : Requests r .readAll n
  /-- so it is for a batch, but not behind its last row -/
  | readBatch {size n : Nat} (lt : n < size) (before : r.RecordsBefore n) :
      Requests r (.readBatch size) n

/-- There is no room for the rows of a batch. -/
def NoRoomFor (r : Reader σ) (operation : Operation) : Prop :=
  ∃ size, operation = .readBatch size ∧ 2 ^ 60 ≤ size * r.settings.numFeatures

/-- An operation that decodes the next line and no other. -/
theorem requests_iff_of_next {operation : Operation}
    (h : operation = .readPlaced ∨ operation = .read ∨ operation = .next) :
    (r.NoRoomFor operation ∨ ∃ n, r.Requests operation n ∧ r.NoRoomAt n) ↔ r.NoRoomAt 0 := by
  constructor
  · rintro (⟨size, rfl, -⟩ | ⟨n, hrequest, hn⟩)
    · simp at h
    · cases hrequest with
      | readPlaced => exact hn
      | read => exact hn
      | next => exact hn
      | readAll _ => simp at h
      | readBatch _ _ => simp at h
  · intro hn
    refine .inr ⟨0, ?_, hn⟩
    rcases h with rfl | rfl | rfl
    · exact .readPlaced
    · exact .read
    · exact .next

/-- **No answer** to an operation: there is no room for a batch, or for a line that is decoded. -/
theorem perform_eq_oversize_iff {operation : Operation} :
    (r.perform operation).1.outcome = .oversize ↔
      r.NoRoomFor operation ∨ ∃ n, r.Requests operation n ∧ r.NoRoomAt n := by
  have hplaced : r.readPlaced.1 = .oversize ↔ r.NoRoomAt 0 :=
    outcome_eq_oversize_iff (r := r) (n := 0)
  cases operation with
  | hasNext =>
    refine iff_of_false ?_ ?_
    · simp only [perform]
      cases r.hasNext.1 <;> simp [Answer.outcome]
    · rintro (⟨size, h, -⟩ | ⟨n, h, -⟩) <;> cases h
  | readPlaced =>
    rw [requests_iff_of_next (.inl rfl), ← hplaced]
    exact Outcome.void_eq_oversize_iff
  | read =>
    rw [requests_iff_of_next (.inr (.inl rfl)), ← hplaced]
    exact Outcome.void_eq_oversize_iff.trans Outcome.map_eq_oversize_iff
  | next =>
    rw [requests_iff_of_next (.inr (.inr rfl)), ← next?_eq_oversize_iff, perform]
    rcases r.next?.1 with _ | x
    · simp [Answer.outcome]
    · exact Outcome.void_eq_oversize_iff.trans (Option.some_inj).symm
  | readAll =>
    refine (Outcome.void_eq_oversize_iff.trans readAll_eq_oversize_iff).trans ?_
    constructor
    · rintro ⟨n, hbefore, hn⟩
      exact .inr ⟨n, .readAll hbefore, hn⟩
    · rintro (⟨size, h, -⟩ | ⟨n, hrequest, hn⟩)
      · cases h
      · cases hrequest with
        | readAll before => exact ⟨n, before, hn⟩
  | readBatch size =>
    refine (Outcome.void_eq_oversize_iff.trans readBatch_eq_oversize_iff).trans ?_
    refine or_congr ?_ ?_
    · simp [NoRoomFor]
    · constructor
      · rintro ⟨n, hlt, hbefore, hn⟩
        exact ⟨n, .readBatch hlt hbefore, hn⟩
      · rintro ⟨n, hrequest, hn⟩
        cases hrequest with
        | readBatch lt before => exact ⟨n, lt, before, hn⟩
  | rewind =>
    refine iff_of_false (by simp [perform, Answer.outcome]) ?_
    rintro (⟨size, h, -⟩ | ⟨n, h, -⟩) <;> cases h

/-- **Room is all that an answer can lack.** Decoding a line lacks it if there are too many
features, or too many labels in a line of which the features are decoded; when every step is
checked, it comes to the same, and to no other trap. A reader is without an answer if the rows of a
batch, of which none is read then, or a line that it decodes lack room; it answers every other
call. -/
theorem answers_unless_no_room :
    (∀ (s : Settings) (count : Option Nat) (line : Text),
      (s.decode count line = .oversize ↔
        2 ^ 60 ≤ s.numFeatures ∨
          s.appendLabel = true ∧ s.multilabel = true ∧ (∃ n, s.numLabels = some n ∧ 2 ^ 59 ≤ n) ∧
            ∃ features, Features.decode s (Line.fields line).2 = .ok features) ∧
        Strict.decode s count line = (s.decode count line).strict ∧
        ∀ trap, Strict.decode s count line = .error (.trap trap) → trap = .oversize) ∧
      ∀ (σ : Type) [LineSource σ] (r : Reader σ),
        (∀ size,
          ((r.readBatch size).1 = .oversize ↔
            2 ^ 60 ≤ size * r.settings.numFeatures ∨
              ∃ n < size, r.RecordsBefore n ∧ r.NoRoomAt n) ∧
          (2 ^ 60 ≤ size * r.settings.numFeatures → r.readBatch size = (.oversize, r))) ∧
        ∀ call : Call σ,
          (r.call call).1.outcome = .oversize ↔
            ∃ operation, call = .stay operation ∧
              (r.NoRoomFor operation ∨ ∃ n, r.Requests operation n ∧ r.NoRoomAt n) := by
  constructor
  · intro s count line
    exact ⟨Settings.decode_eq_oversize_iff, Strict.decode_eq s count line,
      fun trap h => (Strict.trap_eq_oversize h).1⟩
  · intro σ _ r
    refine ⟨fun size => ⟨readBatch_eq_oversize_iff, ?_⟩, ?_⟩
    · intro hge
      exact readBatch_of_not_fits (Nat.not_lt.2 hge)
    · intro call
      cases call with
      | stay operation => simp [Reader.call, perform_eq_oversize_iff]
      | switchTo source => simp [Reader.call, Answer.outcome]

/-- There is no room for the labels, which shows in a line only if its features are decoded, and none
for a batch of so many rows. -/
theorem answers_unless_no_room_edges :
    let s : Settings :=
      { Settings.plain 1 with
        multilabel := true, numLabels := some (2 ^ 59), numLabels_isSome := fun _ => rfl }
    let r := start s (MemoryLines.ofList [['0', ' ', 'x'], ['0']])
    2 ^ 60 ≤ 2 ^ 60 * r.settings.numFeatures ∧ r.readBatch (2 ^ 60) = (.oversize, r) ∧
      s.decode none ['0', ' ', 'x'] ≠ .oversize ∧ s.decode none ['0'] = .oversize := by
  intro s r
  obtain ⟨hlines, hreaders⟩ := answers_unless_no_room
  have hrows : 2 ^ 60 ≤ 2 ^ 60 * r.settings.numFeatures := by decide
  refine ⟨hrows, ((hreaders _ r).1 _).2 hrows, ?_, ?_⟩
  · have hfault : Features.decode s (Line.fields ['0', ' ', 'x']).2 =
        .error (.malformedIndex .feature ['x']) := by decide +kernel
    rw [Ne, (hlines s none ['0', ' ', 'x']).1, hfault]
    simp [s, Settings.plain]
  · have hrow : Features.decode s (Line.fields ['0']).2 = .ok [.zero] := by decide +kernel
    exact (hlines s none ['0']).1.2 (.inr ⟨rfl, rfl, ⟨_, rfl, Nat.le_refl _⟩, _, hrow⟩)

end Reader

end SvmLight
