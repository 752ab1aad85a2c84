import Mathlib.Data.List.Forall2
import Mathlib.Data.List.GetD
import Mathlib.Data.Nat.Find
import SvmLight.Proofs.Reader.Malformed
import SvmLight.Proofs.Reader.Replay

/-!
# Readers that come to an end

Asked for records again and again, a reader over finitely many lines gives records and errors, and
then the end for ever — or an input error, if there is a fault in a file. These outcomes are all
that matters of such a reader: what it answers next, and how it goes on, can be read off them.

* `Outcome.BeforeEnd` — what can come in front of the end.
* `Drains` — a reader that gives some outcomes and then one outcome for ever.
* `Drains.hasNext_end`, `Drains.hasNext_io`, `Drains.hasNext_line` — asking for a line, by the first
  outcome; `Drains.next?_end`, `Drains.next?_cons` — reading a record, if there is one.
* `DrainedBy` — so many requests are answered with all that there is; `DrainedBy.exists_drains` —
  the reader drains these answers, and what comes then is the end or `Closes` them.
* `Outcome.Again`, `Within.exists_drains_rewind` — what reading the same lines again comes to.
-/

namespace SvmLight

/-- What reading can come to in front of the end. -/
inductive Outcome.BeforeEnd : Outcome Error (Record × Place) → Prop where
  /-- a record -/
  | record (record : Record) (place : Place) : BeforeEnd (.ok (record, place))
  /-- a line that is no record -/
  | malformed (place : Place) (cause : DecodeError) :
      BeforeEnd (.error (.atLine place (.decoding cause)))
  /-- a line that cannot be had -/
  | io (cause : IoError) : BeforeEnd (.error (.io cause))

/-- The cause of an input error. -/
def Outcome.io? : Outcome Error (Record × Place) → Option IoError
  | .error (.io cause) => some cause
  | _ => none

theorem Outcome.eq_of_io? {x : Outcome Error (Record × Place)} {e : IoError}
    (h : x.io? = some e) : x = .error (.io e) := by
  match x with
  | .error (.io e') =>
    cases h
    rfl

/-- Everything but the end comes to something in front of it. -/
theorem Settings.beforeEnd_readEvent {s : Settings} (hs : s.Fits) (count : Option Nat) {e : Event}
    (h : e ≠ .ok none) : (s.readEvent count e).1.BeforeEnd := by
  rcases e with cause | _ | line
  · exact .io cause
  · exact absurd rfl h
  · cases hdecode : s.decode count line.text with
    | ok record =>
      rw [readEvent_of_ok hdecode]
      exact .record record line.place
    | error cause =>
      rw [readEvent_of_error hdecode]
      exact .malformed line.place cause
    | oversize => exact absurd hdecode (decode_ne_oversize hs _ _)

/-- What an outcome is when the same line is read again: a malformed label may have become a wrong
number of labels. -/
inductive Outcome.Again :
    Outcome Error (Record × Place) → Outcome Error (Record × Place) → Prop where
  /-- the same -/
  | same (x : Outcome Error (Record × Place)) : Again x x
  /-- by then the number of labels is known -/
  | miscounted (place : Place) (token : Text) (found expected : Nat) :
      Again (.error (.atLine place (.decoding (.malformedLabel token))))
        (.error (.atLine place (.decoding (.labelCountMismatch found expected))))

theorem Outcome.Again.eq_ok {x : Outcome Error (Record × Place)} {placed : Record × Place}
    (h : Again (.ok placed) x) : x = .ok placed := by
  cases h with
  | same => rfl

theorem Outcome.Again.exists_error {x : Outcome Error (Record × Place)} {e : Error}
    (h : Again (.error e) x) : ∃ e', x = .error e' := by
  cases h with
  | same => exact ⟨e, rfl⟩
  | miscounted place token found expected => exact ⟨_, rfl⟩

theorem Outcome.Again.beforeEnd {x x' : Outcome Error (Record × Place)} (h : x.Again x')
    (hx : x.BeforeEnd) : x'.BeforeEnd := by
  cases h with
  | same => exact hx
  | miscounted place token found expected => exact .malformed place _

theorem Outcome.BeforeEnd.ne_end {x : Outcome Error (Record × Place)} (h : x.BeforeEnd) :
    x ≠ .error .endOfInput := by
  cases h with
  | record record place => simp
  | malformed place cause => simp
  | io cause => simp

/-- What comes for ever when all outcomes have come: the end, or an input error that is one of
them. -/
inductive Closes (outcomes : List (Outcome Error (Record × Place))) :
    Outcome Error (Record × Place) → Prop where
  /-- the end -/
  | end : Closes outcomes (.error .endOfInput)
  /-- a fault, which has been met before -/
  | fault {cause : IoError} (mem : .error (.io cause) ∈ outcomes) :
      Closes outcomes (.error (.io cause))

theorem Closes.eq_again {outcomes : List (Outcome Error (Record × Place))}
    {last x : Outcome Error (Record × Place)} (h : Closes outcomes last) (hx : last.Again x) :
    x = last := by
  cases h with
  | «end» =>
    cases hx with
    | same => rfl
  | fault mem =>
    cases hx with
    | same => rfl

/-- Without an input error there is the end. -/
theorem Closes.eq_end {outcomes : List (Outcome Error (Record × Place))}
    {last : Outcome Error (Record × Place)} (h : Closes outcomes last)
    (hfree : ∀ x ∈ outcomes, x.io? = none) : last = .error .endOfInput := by
  cases h with
  | «end» => rfl
  | fault mem => cases hfree _ mem

namespace Reader

variable {σ : Type} [LineSource σ] {s : Settings} {r r' : Reader σ} {count : Option Nat}
  {ahead again again' : Nat → Event} {x last : Outcome Error (Record × Place)}
  {outcomes : List (Outcome Error (Record × Place))}

/-- With these settings the reader gives these outcomes, and the last one from then on. -/
structure Drains (s : Settings) (r : Reader σ) (outcomes : List (Outcome Error (Record × Place)))
    (last : Outcome Error (Record × Place)) : Prop where
  /-- how it reads lines -/
  settings : r.settings = s
  /-- what its requests meet -/
  outcome : ∀ n, r.outcome n = outcomes.getD n last
  /-- the end is not met before -/
  before_end : ∀ x ∈ outcomes, x.BeforeEnd

/-! ### Where such a reader stands -/

/-- Readers that stand at the same place read the same. -/
theorem Stands.outcome_eq (h : r.Stands s count ahead again) (h' : r'.Stands s count ahead again')
    (n : Nat) : r.outcome n = r'.outcome n := by
  rw [h.outcome, h'.outcome]

/-- A reader that has passed the first outcome. -/
theorem Drains.of_later (h : r.Drains s (x :: outcomes) last)
    (h' : r'.Stands r.settings (r.settings.readEvent r.labelCount (r.event 0)).2 (later r.event)
      again) : r'.Drains s outcomes last := by
  refine ⟨h'.settings.trans h.settings, ?_, ?_⟩
  · intro n
    have hnext := h.outcome (n + 1)
    rw [List.getD_cons_succ] at hnext
    rw [h'.outcome_eq (stands_self r).readPlaced.2 n, ← hnext, Reader.outcome, Reader.outcome,
      after_succ]
  · intro x hmem
    exact h.before_end x (List.mem_cons_of_mem _ hmem)

/-- A reader that has passed nothing. -/
theorem Drains.of_same (h : r.Drains s outcomes last)
    (h' : r'.Stands r.settings r.labelCount r.event again) : r'.Drains s outcomes last := by
  refine ⟨h'.settings.trans h.settings, ?_, h.before_end⟩
  intro n
  rw [h'.outcome_eq (stands_self r) n]
  exact h.outcome n

/-- The first outcome is what the next event comes to. -/
theorem Drains.readEvent_eq (h : r.Drains s outcomes last) :
    (r.settings.readEvent r.labelCount (r.event 0)).1 = outcomes.getD 0 last :=
  ((stands_self r).outcome 0).symm.trans (h.outcome 0)

/-- The next event is the end if no outcome is left. -/
theorem Drains.event_end (h : r.Drains s [] (.error .endOfInput)) : r.event 0 = .ok none := by
  have hread := h.readEvent_eq
  rcases hevent : r.event 0 with e | _ | line
  · rw [hevent] at hread
    simp [Settings.readEvent] at hread
  · rfl
  · rw [hevent] at hread
    exact absurd hread (Settings.readEvent_line_ne_end _ _)

theorem Drains.event_ne_end (h : r.Drains s (x :: outcomes) last) : r.event 0 ≠ .ok none := by
  intro hevent
  have hread := h.readEvent_eq
  rw [hevent] at hread
  exact (h.before_end x List.mem_cons_self).ne_end hread.symm

/-! ### Asking for a line -/

theorem Drains.hasNext_end (h : r.Drains s [] (.error .endOfInput)) :
    r.hasNext.1 = .ok false ∧ r.hasNext.2.Drains s [] (.error .endOfInput) := by
  obtain ⟨hask, hstands⟩ := (stands_self r).hasNext_ok h.event_end
  exact ⟨hask, h.of_same hstands⟩

theorem Drains.hasNext_io {e : IoError} (h : r.Drains s (.error (.io e) :: outcomes) last) :
    r.hasNext.1 = .error e ∧ r.hasNext.2.Drains s outcomes last := by
  have hread := h.readEvent_eq
  rcases hevent : r.event 0 with cause | _ | line
  · rw [hevent] at hread
    cases hread
    obtain ⟨hask, hstands⟩ := (stands_self r).hasNext_error hevent
    have hlater : r.hasNext.2.Stands r.settings
        (r.settings.readEvent r.labelCount (r.event 0)).2 (later r.event) r.rewind.event := by
      rw [hevent]
      exact hstands
    exact ⟨hask, h.of_later hlater⟩
  · exact absurd hevent h.event_ne_end
  · rw [hevent] at hread
    exact absurd hread (readEvent_ne_io (by simp) e)

/-- A line is found, and reading it comes to the first outcome. -/
theorem Drains.hasNext_line (h : r.Drains s (x :: outcomes) last) (hx : x.io? = none) :
    r.hasNext.1 = .ok true ∧ r.hasNext.2.readPlaced.1 = x ∧
      r.hasNext.2.readPlaced.2.Drains s outcomes last := by
  have hread := h.readEvent_eq
  rcases hevent : r.event 0 with cause | _ | line
  · rw [hevent] at hread
    cases hread
    cases hx
  · exact absurd hevent h.event_ne_end
  · obtain ⟨hask, hstands⟩ := (stands_self r).hasNext_ok hevent
    obtain ⟨hplaced, hafter⟩ := hstands.readPlaced
    exact ⟨hask, hplaced.trans hread, h.of_later hafter⟩

/-! ### Reading a record, if there is one -/

theorem Drains.next?_end (h : r.Drains s [] (.error .endOfInput)) :
    r.next?.1 = none ∧ r.next?.2.Drains s [] (.error .endOfInput) := by
  obtain ⟨hnext, hstands⟩ := (stands_self r).next?_end h.event_end
  exact ⟨hnext, h.of_same hstands⟩

theorem Drains.next?_cons (h : r.Drains s (x :: outcomes) last) :
    r.next?.1 = some (Prod.fst <$> x) ∧ r.next?.2.Drains s outcomes last := by
  obtain ⟨hnext, hstands⟩ := (stands_self r).next?_event h.event_ne_end
  refine ⟨?_, h.of_later hstands⟩
  rw [hnext, h.readEvent_eq]
  rfl

/-! ### The end of the input -/

/-- A request that finds the end has met it as an event. -/
theorem event_of_outcome_end {n : Nat} (h : r.outcome n = .error .endOfInput) :
    r.event n = .ok none := by
  rw [(stands_self r).outcome n] at h
  rcases hevent : r.event n with e | _ | line
  · rw [hevent] at h
    simp [Settings.readEvent] at h
  · rfl
  · rw [hevent] at h
    exact absurd h (Settings.readEvent_line_ne_end _ _)

theorem outcome_of_event_end {n : Nat} (h : r.event n = .ok none) :
    r.outcome n = .error .endOfInput := by
  rw [(stands_self r).outcome n, h]
  rfl

/-- Behind an end there are only ends. -/
theorem event_of_event_end {n m : Nat} (h : r.event n = .ok none) (hle : n ≤ m) :
    r.event m = .ok none := by
  obtain ⟨k, rfl⟩ := Nat.exists_eq_add_of_le hle
  have hafter := ((stands_self r).after n).ahead
  have hend : (r.after n).event 0 = .ok none := by
    rw [hafter]
    exact h
  have hlater := Peekable.event_of_end hend k
  exact (congrFun hafter k).symm.trans hlater

/-- Such a reader gives the outcomes in front of the end, and the end from then on. -/
theorem EndsAt.outcome_eq {n : Nat} (h : r.EndsAt n) (k : Nat) :
    r.outcome k = (r.outcomes n).getD k (.error .endOfInput) := by
  by_cases hlt : k < n
  · simp [outcomes, hlt]
  · have hend := event_of_outcome_end h.1
    rw [outcome_of_event_end (event_of_event_end hend (Nat.le_of_not_lt hlt))]
    simp [outcomes, hlt]

/-- A reader with an end among its events finds it. -/
theorem exists_endsAt {k : Nat} (h : r.event k = .ok none) : ∃ n, r.EndsAt n := by
  have hends : ∃ n, r.outcome n = .error .endOfInput := ⟨k, outcome_of_event_end h⟩
  exact ⟨Nat.find hends, Nat.find_spec hends, fun m hm => Nat.find_min hends hm⟩

/-- All that there is comes in so many requests: the end comes next, or the last of them has met an
input error that comes for ever. -/
inductive DrainedBy (r : Reader σ) : Nat → Prop where
  /-- the end comes next -/
  | ended {n : Nat} (ends : r.EndsAt n) : DrainedBy r n
  /-- a fault comes for ever -/
  | stuck {n : Nat} (cause : IoError) (stays : ∀ k, n ≤ k → r.outcome k = .error (.io cause)) :
      DrainedBy r (n + 1)

/-- Outcomes without an end among them come in front of it. -/
theorem beforeEnd_of_mem_outcomes (hs : r.settings.Fits) {n : Nat}
    (h : ∀ k < n, r.outcome k ≠ .error .endOfInput) : ∀ x ∈ r.outcomes n, x.BeforeEnd := by
  intro x hmem
  obtain ⟨k, hk, rfl⟩ := List.mem_map.1 hmem
  rw [(stands_self r).outcome k]
  refine Settings.beforeEnd_readEvent hs _ ?_
  intro hevent
  exact h k (List.mem_range.1 hk) (outcome_of_event_end hevent)

/-- **Such a reader drains these outcomes.** -/
theorem DrainedBy.exists_drains (hs : r.settings.Fits) {n : Nat} (h : r.DrainedBy n) :
    ∃ last, Closes (r.outcomes n) last ∧ r.Drains r.settings (r.outcomes n) last := by
  cases h with
  | ended ends =>
    exact ⟨_, .end, rfl, ends.outcome_eq, beforeEnd_of_mem_outcomes hs ends.2⟩
  | @stuck n cause stays =>
    have hfault : .error (.io cause) ∈ r.outcomes (n + 1) :=
      List.mem_map.2 ⟨n, List.mem_range.2 (Nat.lt_succ_self n), stays n (Nat.le_refl n)⟩
    refine ⟨_, .fault hfault, rfl, ?_, beforeEnd_of_mem_outcomes hs ?_⟩
    · intro k
      by_cases hlt : k < n + 1
      · simp [outcomes, hlt]
      · rw [stays k (by omega)]
        simp [outcomes, hlt]
    · intro k hk hend
      -- there would be nothing but ends behind it
      have hlater := outcome_of_event_end
        (event_of_event_end (event_of_outcome_end hend) (Nat.lt_succ_iff.1 hk))
      rw [stays n (Nat.le_refl n)] at hlater
      cases hlater

/-! ### Reading again -/

/-- A reader that has been rewound gives each outcome of a new reader again. -/
theorem Within.outcome_again {fresh : Reader σ} {events : Nat → Event} (hs : s.Fits)
    (hfresh : fresh.Stands s s.numLabels events again) (h : Within s events r) (n : Nat) :
    (fresh.outcome n).Again (r.rewind.outcome n) := by
  rcases (h.outcome_rewind hs hfresh n).2 with hsame | hother
  · rw [hsame]
    exact .same _
  · obtain ⟨place, token, found, m, record, hfirst, hsecond, -, -⟩ := hother.cause
    rw [hfirst, hsecond]
    exact .miscounted place token found _

/-- **Reading again gives the same outcomes**, but for malformed labels. -/
theorem Within.exists_drains_rewind {fresh : Reader σ} {events : Nat → Event} (hs : s.Fits)
    (hfresh : fresh.Stands s s.numLabels events again) (hclosed : Closes outcomes last)
    (hdrains : fresh.Drains s outcomes last) (h : Within s events r) :
    ∃ outcomes', r.rewind.Drains s outcomes' last ∧
      List.Forall₂ Outcome.Again outcomes outcomes' := by
  have hagain : ∀ n, (outcomes.getD n last).Again (r.rewind.outcome n) := by
    intro n
    rw [← hdrains.outcome n]
    exact h.outcome_again hs hfresh n
  refine ⟨r.rewind.outcomes outcomes.length, ⟨?_, ?_, ?_⟩, ?_⟩
  · obtain ⟨p, q, -, hstands⟩ := h
    exact hstands.settings
  · intro n
    by_cases hlt : n < outcomes.length
    · simp [Reader.outcomes, hlt]
    · -- there is nothing else behind the outcomes
      have hlast := hagain n
      rw [List.getD_eq_default _ _ (Nat.le_of_not_lt hlt)] at hlast
      rw [hclosed.eq_again hlast]
      simp [Reader.outcomes, hlt]
  · intro x hmem
    obtain ⟨n, hn, rfl⟩ := List.mem_map.1 hmem
    have hn' : n < outcomes.length := List.mem_range.1 hn
    have hbefore := hagain n
    rw [List.getD_eq_getElem _ _ hn'] at hbefore
    exact hbefore.beforeEnd (hdrains.before_end _ (List.getElem_mem hn'))
  · refine List.forall₂_iff_get.2 ⟨by simp [Reader.outcomes], ?_⟩
    intro n hn hn'
    have hboth := hagain n
    rw [List.getD_eq_getElem _ _ hn] at hboth
    simpa [Reader.outcomes] using hboth

end Reader

end SvmLight
