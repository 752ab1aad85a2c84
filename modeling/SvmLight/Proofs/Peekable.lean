import SvmLight.Peekable
import SvmLight.Proofs.Source.Events

/-!
# The events ahead of a peekable source

A pending line has been taken from the source but not been given away. `Peekable.event` is the
stream of what is still to come: the pending line, if there is one, and then the events of the
source.

* `pop_eq` — popping gives the next event and moves past it.
* `peek_eq` — peeking tells whether the next event is a line.
* `event_peek_of_ok`, `event_peek_of_error` — peeking moves past an error and past nothing else.
-/

namespace SvmLight.Peekable

variable {σ : Type} [LineSource σ]

/-- The `n`-th event that is still to come, the pending line first. -/
def event (p : Peekable σ) : Nat → Event :=
  match p.pending with
  | none => LineSource.event p.source
  | some line => fun
    | 0 => .ok (some line)
    | n + 1 => LineSource.event p.source n

theorem event_empty (s : σ) : event ⟨s, none⟩ = LineSource.event s := rfl

/-- An end is never pending, so behind an end there are only ends. -/
theorem event_of_end {p : Peekable σ} (h : p.event 0 = .ok none) (n : Nat) :
    p.event n = .ok none := by
  obtain ⟨s, pending⟩ := p
  cases pending with
  | none => exact LineSource.event_of_end h n
  | some line => cases h

/-! ### Popping -/

theorem pop_eq (p : Peekable σ) : p.pop.1 = p.event 0 := by
  obtain ⟨s, pending⟩ := p
  cases pending with
  | none => exact (LineSource.event_zero s).symm
  | some line => rfl

theorem event_pop (p : Peekable σ) (n : Nat) : p.pop.2.event n = p.event (n + 1) := by
  obtain ⟨s, pending⟩ := p
  cases pending with
  | none => exact (LineSource.event_succ s n).symm
  | some line => rfl

theorem rewind_pop (p : Peekable σ) : p.pop.2.rewind = p.rewind := by
  obtain ⟨s, pending⟩ := p
  cases pending with
  | none => exact congrArg (Peekable.mk · none) (LineSource.rewind_nextContent s)
  | some line => rfl

/-! ### Peeking

A peek does something only when nothing is pending; then the next event decides what it does. -/

theorem peek_of_ok {s : σ} {line? : Option SourceLine} (h : LineSource.event s 0 = .ok line?) :
    peek ⟨s, none⟩ = (.ok line?.isSome, ⟨(LineSource.nextContent s).2, line?⟩) := by
  have hnext : LineSource.nextContent s = (.ok line?, (LineSource.nextContent s).2) :=
    Prod.ext ((LineSource.event_zero s).symm.trans h) rfl
  simp only [peek]
  rw [hnext]

theorem peek_of_error {s : σ} {e : IoError} (h : LineSource.event s 0 = .error e) :
    peek ⟨s, none⟩ = (.error e, ⟨(LineSource.nextContent s).2, none⟩) := by
  have hnext : LineSource.nextContent s = (.error e, (LineSource.nextContent s).2) :=
    Prod.ext ((LineSource.event_zero s).symm.trans h) rfl
  simp only [peek]
  rw [hnext]

/-- Peeking is answered from the next event. -/
theorem peek_eq (p : Peekable σ) : p.peek.1 = (p.event 0).map Option.isSome := by
  obtain ⟨s, pending⟩ := p
  cases pending with
  | some line => rfl
  | none =>
    rw [event_empty]
    rcases h : LineSource.event s 0 with e | line?
    · rw [peek_of_error h]
      rfl
    · rw [peek_of_ok h]
      rfl

/-- Peeking at a line or at the end moves past nothing. -/
theorem event_peek_of_ok {p : Peekable σ} {line? : Option SourceLine}
    (h : p.event 0 = .ok line?) (n : Nat) : p.peek.2.event n = p.event n := by
  obtain ⟨s, pending⟩ := p
  cases pending with
  | some line => rfl
  | none =>
    rw [event_empty] at h ⊢
    rw [peek_of_ok h]
    cases line? with
    | none =>
      -- nothing is pending afterwards, so the stream has moved; but it is all ends
      rw [event_empty, ← LineSource.event_succ, LineSource.event_of_end h,
        LineSource.event_of_end h]
    | some line =>
      cases n with
      | zero => exact h.symm
      | succ n => exact (LineSource.event_succ s n).symm

/-- Peeking at an error moves past it. -/
theorem event_peek_of_error {p : Peekable σ} {e : IoError} (h : p.event 0 = .error e) (n : Nat) :
    p.peek.2.event n = p.event (n + 1) := by
  obtain ⟨s, pending⟩ := p
  cases pending with
  | some line => cases h
  | none =>
    rw [event_empty] at h ⊢
    rw [peek_of_error h, event_empty, LineSource.event_succ]

theorem rewind_peek (p : Peekable σ) : p.peek.2.rewind = p.rewind := by
  obtain ⟨s, pending⟩ := p
  cases pending with
  | some line => rfl
  | none =>
    have hrewind := congrArg (Peekable.mk · none) (LineSource.rewind_nextContent s)
    rcases h : LineSource.event s 0 with e | line?
    · rw [peek_of_error h]
      exact hrewind
    · rw [peek_of_ok h]
      exact hrewind

end SvmLight.Peekable
