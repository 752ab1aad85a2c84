import Mathlib
import SvmLight.Proofs.Fault
import SvmLight.Proofs.Reader.Drained
import SvmLight.Proofs.Reader.OneByOne

/-!
# Errors of a reader

An error comes from the source, or it is one of a line that is being decoded, and then it comes with
the place of that line. Only a request for a record that finds no line is answered with the end of
the input, and so are all requests for a record after it.

* `FailsAt` — why a request for a record fails; `failsAt_of_outcome` says that nothing else makes it
  fail.
* `AtEnd.run` — at its end a reader stays, and the number of labels, too.
* `FirstFailure` — the first request that is no record; `Fails` — why an operation fails, by
  `perform_error`.
* `call_error` — **the errors of all calls**.
-/

namespace SvmLight

theorem Outcome.void_eq_error_iff {ε α : Type} {x : Outcome ε α} {e : ε} :
    x.void = .error e ↔ x = .error e := by
  cases x <;> simp [Outcome.void]

namespace Reader

variable {σ : Type} [LineSource σ] {r : Reader σ} {e : Error} {n : Nat}

/-! ### One request -/

/-- Why the `n`-th request for a record fails. -/
inductive FailsAt (r : Reader σ) (n : Nat) : Error → Prop where
  /-- the source has an error there -/
  | io {cause : IoError} (event_eq : r.event n = .error cause) : FailsAt r n (.io cause)
  /-- the line there is no record, and this is what is wrong with it -/
  | line {line : SourceLine} {cause : DecodeError} (event_eq : r.event n = .ok (some line))
      (fault : r.settings.Fault (r.after n).labelCount line.text cause)
      (truthful : cause.Truthful r.settings (r.after n).labelCount) :
      FailsAt r n (.atLine line.place (.decoding cause))

theorem FailsAt.ne_end (h : r.FailsAt n e) : e ≠ .endOfInput := by
  cases h with
  | io _ => simp
  | line _ _ _ => simp

/-- **A request fails at an error of the source or at a faulty line**, if it is not at the end. -/
theorem failsAt_of_outcome (h : r.outcome n = .error e) (hend : r.event n ≠ .ok none) :
    r.FailsAt n e := by
  have hcount := ((stands_self r).after n).labelCount
  rw [(stands_self r).outcome n, ← hcount] at h
  rcases hevent : r.event n with cause | _ | line
  · rw [hevent] at h
    cases h
    exact .io hevent
  · exact absurd hevent hend
  · rw [hevent] at h
    cases hdecode : r.settings.decode (r.after n).labelCount line.text with
    | ok record =>
      rw [Settings.readEvent_of_ok hdecode] at h
      cases h
    | error cause =>
      rw [Settings.readEvent_of_error hdecode] at h
      cases h
      have hfault := Settings.fault_of_decode hdecode
      exact .line hevent hfault hfault.truthful
    | oversize =>
      simp only [Settings.readEvent, hdecode] at h
      cases h

/-! ### The end -/

/-- Nothing but the end is to come. -/
def AtEnd (r : Reader σ) : Prop := ∀ n, r.event n = .ok none

theorem atEnd_iff : r.AtEnd ↔ r.event 0 = .ok none := by
  constructor
  · intro h
    exact h 0
  · intro h n
    exact event_of_event_end h (Nat.zero_le n)

/-- Nothing but rewinding leads away from the end. -/
theorem AtEnd.perform (h : r.AtEnd) {operation : Operation} (hne : operation ≠ .rewind) :
    (r.perform operation).2.AtEnd ∧ (r.perform operation).2.labelCount = r.labelCount := by
  obtain ⟨records, hreads⟩ := r.exists_readsOn hne
  obtain ⟨passed, hahead, hcount⟩ := hreads.exists_passed
  refine ⟨?_, ?_⟩
  · intro n
    rw [hahead]
    exact h (passed + n)
  · rw [hcount]
    clear hahead hcount
    induction passed with
    | zero => rfl
    | succ passed ih =>
      rw [Settings.countAfterEvents, ih, h passed]
      rfl

/-- **At its end a reader stays**, and the number of labels, too, unless it is rewound. -/
theorem AtEnd.run (h : r.AtEnd) {operations : List Operation} (hrewind : .rewind ∉ operations) :
    (r.run (operations.map .stay)).2.AtEnd ∧
      (r.run (operations.map .stay)).2.labelCount = r.labelCount := by
  induction operations generalizing r with
  | nil => exact ⟨h, rfl⟩
  | cons operation operations ih =>
    rw [List.mem_cons, not_or] at hrewind
    obtain ⟨hend, hcount⟩ := h.perform (Ne.symm hrewind.1)
    obtain ⟨hend', hcount'⟩ := ih hend hrewind.2
    exact ⟨hend', hcount'.trans hcount⟩

/-! ### Operations -/

/-- Records, and then the failure of the `n`-th request. -/
structure FirstFailure (r : Reader σ) (n : Nat) (e : Error) : Prop where
  /-- the requests before come to records -/
  record : ∀ k < n, ∃ x, r.outcome k = .ok x
  /-- why this one fails -/
  failsAt : r.FailsAt n e

theorem firstFailure_zero (h : r.FailsAt 0 e) : r.FirstFailure 0 e :=
  ⟨fun k hk => absurd hk (Nat.not_lt_zero k), h⟩

/-- Collecting records fails where the first request does that is no record. -/
theorem GetsTo.exists_firstFailure {room : Nat} {c : Collected (Reader σ)} (h : r.GetsTo room c)
    (he : c.outcome = .error e) : ∃ n, r.FirstFailure n e := by
  have hrecord : ∀ k < c.records.length, ∃ x, r.outcome k = .ok x := by
    intro k hk
    obtain ⟨record, place, hx⟩ := h.exists_record hk
    exact ⟨_, hx⟩
  obtain ⟨-, hstops⟩ := h
  obtain ⟨records, stop, r'⟩ := c
  dsimp only at hrecord hstops
  cases hstops with
  | full _ _ => cases he
  | ended _ _ _ => cases he
  | oversize _ _ => cases he
  | failed _ event_ne outcome_eq _ =>
    cases he
    exact ⟨records.length, hrecord, failsAt_of_outcome outcome_eq event_ne⟩

/-- An operation that asks for a record whether there is one or not. -/
def Insists (operation : Operation) : Prop := operation = .readPlaced ∨ operation = .read

/-- An operation that reads one record at most. -/
def Single (operation : Operation) : Prop :=
  operation ≠ .readAll ∧ ∀ size, operation ≠ .readBatch size

/-- Insisting on a record is one request. -/
theorem outcome_of_insists {operation : Operation} (h : Insists operation) :
    (r.perform operation).1.outcome = (r.outcome 0).void := by
  rcases h with rfl | rfl
  · rfl
  · exact Outcome.void_map Prod.fst _

/-- Why an operation fails. -/
inductive Fails (r : Reader σ) (operation : Operation) : Error → Prop where
  /-- it insists on a record, and there is none -/
  | atEnd (insists : Insists operation) (atEnd : r.AtEnd) : Fails r operation .endOfInput
  /-- of the requests that it makes, this is the first one that fails -/
  | first {e : Error} {n : Nat} (firstFailure : r.FirstFailure n e)
      (single : Single operation → n = 0)
      (hasNext : operation = .hasNext → ∃ cause, e = .io cause) : Fails r operation e

/-- Insisting on a record fails at the end, or as a request does. -/
theorem Insists.fails {operation : Operation} (hop : Insists operation)
    (h : (r.perform operation).1.outcome = .error e) : r.Fails operation e := by
  rw [outcome_of_insists hop, Outcome.void_eq_error_iff] at h
  by_cases hend : r.event 0 = .ok none
  · rw [outcome_of_event_end hend] at h
    cases h
    exact .atEnd hop (atEnd_iff.2 hend)
  · refine .first (firstFailure_zero (failsAt_of_outcome h hend)) (fun _ => rfl) ?_
    rintro rfl
    rcases hop with hop | hop <;> cases hop

/-- **The errors of an operation**: the end of the input where it insists on a record, or the first
failure of the requests that it makes. -/
theorem perform_error {operation : Operation}
    (h : (r.perform operation).1.outcome = .error e) : r.Fails operation e := by
  cases operation with
  | readPlaced => exact Insists.fails (.inl rfl) h
  | read => exact Insists.fails (.inr rfl) h
  | hasNext =>
    rcases hevent : r.event 0 with cause | line?
    · obtain ⟨hask, -⟩ := (stands_self r).hasNext_error hevent
      simp only [Reader.perform, hask, Answer.outcome] at h
      cases h
      exact .first (firstFailure_zero (.io hevent)) (fun _ => rfl) fun _ => ⟨cause, rfl⟩
    · obtain ⟨hask, -⟩ := (stands_self r).hasNext_ok hevent
      simp only [Reader.perform, hask, Answer.outcome] at h
      cases h
  | next =>
    rcases r.next?_cases with ⟨hnext, -, -⟩ | ⟨hnext, hend, -⟩
    · simp only [Reader.perform, hnext, Answer.outcome] at h
      cases h
    · simp only [Reader.perform, hnext, Answer.outcome, Outcome.void_map] at h
      rw [Outcome.void_eq_error_iff] at h
      exact .first (firstFailure_zero (failsAt_of_outcome h hend)) (fun _ => rfl) (by simp)
  | readAll =>
    obtain ⟨room, -, hread⟩ := r.exists_readAll_eq
    simp only [Reader.perform, hread, Answer.outcome] at h
    rw [Outcome.void_eq_error_iff] at h
    obtain ⟨n, hfirst⟩ := (r.collect_getsTo room).exists_firstFailure h
    exact .first hfirst (fun hsingle => absurd rfl hsingle.1) (by simp)
  | readBatch size =>
    by_cases hfits : size * r.settings.numFeatures < 2 ^ 60
    · simp only [Reader.perform, readBatch_of_fits hfits, Answer.outcome, Outcome.void_map] at h
      rw [Outcome.void_eq_error_iff] at h
      obtain ⟨n, hfirst⟩ := (r.collect_getsTo size).exists_firstFailure h
      exact .first hfirst (fun hsingle => absurd rfl (hsingle.2 size)) (by simp)
    · simp only [Reader.perform, readBatch_of_not_fits hfits, Answer.outcome] at h
      cases h
  | rewind => cases h

/-- An operation is answered with the end of the input if it insists on a record at the end. -/
theorem perform_eq_end_iff {operation : Operation} :
    (r.perform operation).1.outcome = .error .endOfInput ↔ Insists operation ∧ r.AtEnd := by
  constructor
  · intro h
    cases perform_error h with
    | atEnd insists atEnd => exact ⟨insists, atEnd⟩
    | first firstFailure _ _ => exact absurd rfl firstFailure.failsAt.ne_end
  · rintro ⟨hop, hend⟩
    rw [outcome_of_insists hop, outcome_of_event_end (hend 0)]
    rfl

/-- Whatever the reader is asked but to rewind, every request for a record finds the end, and the
number of labels stays what it is. -/
def StaysAtEnd (r : Reader σ) : Prop :=
  ∀ operations : List Operation, .rewind ∉ operations →
    (r.run (operations.map .stay)).2.labelCount = r.labelCount ∧
      ∀ operation, Insists operation →
        ((r.run (operations.map .stay)).2.perform operation).1.outcome = .error .endOfInput

theorem AtEnd.staysAtEnd (h : r.AtEnd) : r.StaysAtEnd := by
  intro operations hrewind
  obtain ⟨hend, hcount⟩ := h.run hrewind
  refine ⟨hcount, ?_⟩
  intro operation hop
  exact perform_eq_end_iff.2 ⟨hop, hend⟩

/-- **The errors of all calls.** The end of the input is answered to a call that insists on a
record, exactly if no event is left; it changes no number of labels, and it is answered again and
again. Any other error is the first failure of the requests that the call makes: the records in
front of it are read, and then there is an error of the source, or a faulty line, of which the place
and the fault are reported. Asking for a line finds no faulty line. -/
theorem call_error (r : Reader σ) (c : Call σ) :
    ((r.call c).1.outcome = .error .endOfInput ↔
        (∃ operation, c = .stay operation ∧ Insists operation) ∧ r.AtEnd) ∧
      ((r.call c).1.outcome = .error .endOfInput →
        (r.call c).2.labelCount = r.labelCount ∧ (r.call c).2.StaysAtEnd) ∧
      ∀ e, (r.call c).1.outcome = .error e → e ≠ .endOfInput →
        ∃ n, r.FirstFailure n e ∧
          (∀ operation, c = .stay operation → Single operation → n = 0) ∧
          (c = .stay .hasNext → ∃ cause, e = .io cause) := by
  cases c with
  | switchTo source =>
    refine ⟨iff_of_false ?_ ?_, ?_, ?_⟩
    · simp [Reader.call, Answer.outcome]
    · rintro ⟨⟨operation, hop, -⟩, -⟩
      cases hop
    · intro h
      cases h
    · intro e h
      cases h
  | stay operation =>
    refine ⟨?_, ?_, ?_⟩
    · rw [Reader.call, perform_eq_end_iff]
      constructor
      · rintro ⟨hop, hend⟩
        exact ⟨⟨operation, rfl, hop⟩, hend⟩
      · rintro ⟨⟨operation', heq, hop⟩, hend⟩
        cases heq
        exact ⟨hop, hend⟩
    · intro h
      obtain ⟨hop, hend⟩ := perform_eq_end_iff.1 h
      have hne : operation ≠ .rewind := by
        rintro rfl
        rcases hop with hop | hop <;> cases hop
      obtain ⟨hend', hcount⟩ := hend.perform hne
      exact ⟨hcount, hend'.staysAtEnd⟩
    · intro e h hne
      cases perform_error h with
      | atEnd _ _ => exact absurd rfl hne
      | @first _ n firstFailure single hasNext =>
        refine ⟨n, firstFailure, ?_, ?_⟩
        · rintro _ ⟨⟩
          exact single
        · rintro ⟨⟩
          exact hasNext rfl

/-- A batch fails at the second line, which has one label too many. Then a record is insisted on,
and there is none. -/
theorem call_error_batch_then_end :
    let r := start (Settings.plain 1) (MemoryLines.ofList [['1'], ['2', ',', '3']])
    let r' := (r.call (.stay (.readBatch 2))).2
    (∃ n, r.FirstFailure n (.atLine ⟨2, none⟩ (.decoding (.labelCountMismatch 2 1)))) ∧
      r'.AtEnd ∧ (r'.call (.stay .read)).2.labelCount = some 1 ∧
      (r'.call (.stay .read)).2.StaysAtEnd := by
  have hread :
      let r := start (Settings.plain 1) (MemoryLines.ofList [['1'], ['2', ',', '3']])
      let r' := (r.call (.stay (.readBatch 2))).2
      (r.call (.stay (.readBatch 2))).1.outcome =
          .error (.atLine ⟨2, none⟩ (.decoding (.labelCountMismatch 2 1))) ∧
        (r'.call (.stay .read)).1.outcome = .error .endOfInput ∧ r'.labelCount = some 1 := by
    cbv
    exact ⟨rfl, trivial⟩
  intro r r'
  obtain ⟨hbatch, hend, hcount⟩ := hread
  obtain ⟨-, -, hfirst⟩ := call_error r (.stay (.readBatch 2))
  obtain ⟨n, hfirst, -⟩ := hfirst _ hbatch (by simp)
  obtain ⟨hends, hstays, -⟩ := call_error r' (.stay .read)
  obtain ⟨hcount', hstays⟩ := hstays hend
  exact ⟨⟨n, hfirst⟩, (hends.1 hend).2, hcount'.trans hcount, hstays⟩

end Reader

end SvmLight
