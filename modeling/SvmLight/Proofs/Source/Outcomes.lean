import SvmLight.Proofs.Source.Events

/-!
# All outcomes of a source

`LineSource.outcome s n` is what the `n`-th request for a line comes to, comments included. A
source **yields** a list of outcomes and a last one, if its requests meet the outcomes of the list
in turn, and the last one from then on.

* `exists_event_forever` — what is met for ever in the end is so among the events.
* `Reached.rewind_eq` — whatever a source has been asked, rewinding it comes to the same.
* `Yields.cons`, `Yields.again`, `Yields.stay` — a list of outcomes, from its front.
-/

namespace SvmLight.LineSource

variable {σ : Type} [LineSource σ]

/-! ### Requests -/

/-- The source after so many requests. -/
def after (s : σ) : Nat → σ
  | 0 => s
  | n + 1 => (next (after s n)).2

/-- What the `n`-th request for a line comes to. -/
def outcome (s : σ) (n : Nat) : Event := (next (after s n)).1

theorem after_succ (s : σ) (n : Nat) : after s (n + 1) = after (next s).2 n := by
  induction n with
  | zero => rfl
  | succ n ih => exact congrArg (fun s : σ => (next s).2) ih

theorem outcome_succ (s : σ) (n : Nat) : outcome s (n + 1) = outcome (next s).2 n := by
  rw [outcome, after_succ, outcome]

/-- What is met for ever and is no comment is every event. -/
theorem event_of_forever {s : σ} {e : Event} (hcomment : Event.isComment e = false)
    (h : ∀ k, outcome s k = e) (n : Nat) : event s n = e := by
  have hfirst : (next s).1 = e := h 0
  have hplain : Event.isComment (next s).1 = false := by rw [hfirst, hcomment]
  induction n generalizing s with
  | zero => rw [event_zero_of_not_comment hplain, hfirst]
  | succ n ih =>
    have hrest : ∀ k, outcome (next s).2 k = e := fun k => (outcome_succ s k).symm.trans (h (k + 1))
    have hnext : (next (next s).2).1 = e := hrest 0
    rw [event_succ_of_not_comment hplain]
    exact ih hrest hnext (by rw [hnext, hcomment])

/-- What is met for ever in the end is so among the events. -/
theorem exists_event_forever {s : σ} {e : Event} (hcomment : Event.isComment e = false) {n : Nat}
    (h : ∀ k, n ≤ k → outcome s k = e) : ∃ m, ∀ k, m ≤ k → event s k = e := by
  induction n generalizing s with
  | zero => exact ⟨0, fun k _ => event_of_forever hcomment (fun k => h k (Nat.zero_le k)) k⟩
  | succ n ih =>
    have hrest : ∀ k, n ≤ k → outcome (next s).2 k = e := fun k hk =>
      (outcome_succ s k).symm.trans (h (k + 1) (Nat.succ_le_succ hk))
    obtain ⟨m, hm⟩ := ih hrest
    refine ⟨m + 1, ?_⟩
    intro k hk
    cases hfirst : Event.isComment (next s).1 with
    | true => exact (event_of_comment hfirst k).trans (hm k (Nat.le_of_succ_le hk))
    | false =>
      obtain ⟨k, rfl⟩ := Nat.exists_eq_add_of_le' (Nat.le_trans (Nat.le_add_left 1 m) hk)
      exact (event_succ_of_not_comment hfirst k).trans (hm k (Nat.le_of_succ_le_succ hk))

/-- What a source can become by being asked and rewound. -/
inductive Reached (s : σ) : σ → Prop where
  /-- nothing has been asked -/
  | start : Reached s s
  /-- one more line has been asked for -/
  | next {t : σ} (reached : Reached s t) : Reached s (LineSource.next t).2
  /-- it has been rewound -/
  | rewind {t : σ} (reached : Reached s t) : Reached s (LineSource.rewind t)

theorem reached_after (s : σ) (n : Nat) : Reached s (after s n) := by
  induction n with
  | zero => exact .start
  | succ n ih => exact .next ih

/-- Rewinding forgets all that has been asked. -/
theorem Reached.rewind_eq {s t : σ} (h : Reached s t) :
    LineSource.rewind t = LineSource.rewind s := by
  induction h with
  | start => rfl
  | next _ ih => rw [rewind_next, ih]
  | rewind _ ih => rw [rewind_rewind, ih]

/-! ### Lists of outcomes -/

/-- The requests meet these outcomes in turn, and the last one from then on. -/
def Yields (s : σ) (outcomes : List Event) (last : Event) : Prop :=
  ∀ n, outcome s n = outcomes.getD n last

section Yields

variable {s s' : σ} {e last : Event} {outcomes : List Event}

/-- One request, and those that follow it. -/
theorem Yields.cons (hnext : next s = (e, s')) (h : Yields s' outcomes last) :
    Yields s (e :: outcomes) last := by
  intro n
  cases n with
  | zero =>
    rw [List.getD_cons_zero]
    exact congrArg Prod.fst hnext
  | succ n =>
    rw [outcome_succ, hnext, List.getD_cons_succ]
    exact h n

/-- One more request that meets the last outcome. -/
theorem Yields.again (hnext : next s = (last, s')) (h : Yields s' [] last) : Yields s [] last := by
  intro n
  cases n with
  | zero => exact congrArg Prod.fst hnext
  | succ n =>
    rw [outcome_succ, hnext]
    exact h n

/-- A source that does not move any more. -/
theorem Yields.stay (hnext : next s = (last, s)) : Yields s [] last := by
  intro n
  induction n with
  | zero => exact congrArg Prod.fst hnext
  | succ n ih =>
    rw [outcome_succ, hnext]
    exact ih

/-- Only the first answer matters, and what the source is afterwards. -/
theorem Yields.congr {t : σ} (hnext : next s = next t) (h : Yields t outcomes last) :
    Yields s outcomes last := by
  intro n
  rw [← h n]
  cases n with
  | zero => exact congrArg Prod.fst hnext
  | succ n => rw [outcome_succ, outcome_succ, hnext]

end Yields

end SvmLight.LineSource
