import SvmLight.Source

/-!
# Event streams

Asking a source again and again gives a stream of outcomes: lines, errors, and the end. Its
**events** are the outcomes that remain when the lines that hold nothing but a comment are left
out. `LineSource.event s n` is the `n`-th of them, counted from the state `s`; an end is answered
for ever once it is reached.

* `event_zero`, `event_succ` — passing over comments gives the next event, and moves the stream by
  one.
* `event_of_end` — behind an end there are only ends.
* `event_of_simulation` — sources that answer alike, step by step, have like events.
-/

namespace SvmLight

/-- What one request for a line comes to: a line, the end (`none`), or an error. -/
abbrev Event : Type := Except IoError (Option SourceLine)

namespace Event

/-- Whether an outcome is a line that holds nothing but a comment. -/
def isComment : Event → Bool
  | .ok (some line) => Line.isComment line.text
  | _ => false

/-- A comment is a line. -/
theorem exists_line_of_isComment {e : Event} (h : isComment e = true) :
    ∃ line, e = .ok (some line) := by
  match e with
  | .ok (some line) => exact ⟨line, rfl⟩
  | .ok none => cases h
  | .error cause => cases h

end Event

namespace LineSource

variable {σ : Type} [LineSource σ]

/-- A comment is a line, so it is used up. -/
theorem remaining_lt_of_comment {s : σ} (h : Event.isComment (next s).1 = true) :
    remaining (next s).2 < remaining s := by
  obtain ⟨line, hline⟩ := Event.exists_line_of_isComment h
  have hnext : next s = (.ok (some line), (next s).2) := Prod.ext hline rfl
  exact remaining_next_lt hnext

/-- The `n`-th outcome of asking a source again and again, comments not counted. -/
def event (s : σ) : Nat → Event
  | 0 => if _h : Event.isComment (next s).1 then event (next s).2 0 else (next s).1
  | n + 1 =>
    if _h : Event.isComment (next s).1 then event (next s).2 (n + 1)
    else event (next s).2 n
termination_by n => n + remaining s
decreasing_by
  · exact Nat.add_lt_add_left (remaining_lt_of_comment _h) 0
  · exact Nat.add_lt_add_left (remaining_lt_of_comment _h) (n + 1)
  · exact Nat.add_lt_add_of_lt_of_le (Nat.lt_succ_self n) (remaining_next_le s)

/-! ### One request -/

theorem event_of_comment {s : σ} (h : Event.isComment (next s).1 = true) (n : Nat) :
    event s n = event (next s).2 n := by
  cases n with
  | zero => rw [event, dif_pos h]
  | succ n => rw [event, dif_pos h]

theorem event_zero_of_not_comment {s : σ} (h : Event.isComment (next s).1 = false) :
    event s 0 = (next s).1 := by
  rw [event, dif_neg (ne_true_of_eq_false h)]

theorem event_succ_of_not_comment {s : σ} (h : Event.isComment (next s).1 = false) (n : Nat) :
    event s (n + 1) = event (next s).2 n := by
  rw [event, dif_neg (ne_true_of_eq_false h)]

/-- What a source gives afterwards depends on what it answers first, and how. -/
theorem event_congr {s s' : σ} (h : next s = next s') (n : Nat) : event s n = event s' n := by
  cases hcomment : Event.isComment (next s).1 with
  | true =>
    rw [event_of_comment hcomment, h]
    rw [h] at hcomment
    exact (event_of_comment hcomment n).symm
  | false =>
    have hcomment' := hcomment
    rw [h] at hcomment'
    cases n with
    | zero => rw [event_zero_of_not_comment hcomment, event_zero_of_not_comment hcomment', h]
    | succ n => rw [event_succ_of_not_comment hcomment, event_succ_of_not_comment hcomment', h]

/-! ### Passing over comments

`nextContent` is the part of the program that reads events. It is compared with the stream once,
by its own recursion; afterwards only these three facts are used. -/

theorem event_zero (s : σ) : event s 0 = (nextContent s).1 := by
  fun_induction nextContent s with
  | case1 s line s' h hcomment ih =>
    rw [event_of_comment (by rw [h]; exact hcomment), h]
    exact ih
  | case2 s line s' h hcomment =>
    rw [event_zero_of_not_comment (by rw [h]; exact eq_false_of_ne_true hcomment), h]
  | case3 s s' h => rw [event_zero_of_not_comment (by rw [h]; rfl), h]
  | case4 s e s' h => rw [event_zero_of_not_comment (by rw [h]; rfl), h]

theorem event_succ (s : σ) (n : Nat) : event s (n + 1) = event (nextContent s).2 n := by
  fun_induction nextContent s with
  | case1 s line s' h hcomment ih =>
    rw [event_of_comment (by rw [h]; exact hcomment), h]
    exact ih
  | case2 s line s' h hcomment =>
    rw [event_succ_of_not_comment (by rw [h]; exact eq_false_of_ne_true hcomment), h]
  | case3 s s' h => rw [event_succ_of_not_comment (by rw [h]; rfl), h]
  | case4 s e s' h => rw [event_succ_of_not_comment (by rw [h]; rfl), h]

theorem rewind_nextContent (s : σ) : rewind (nextContent s).2 = rewind s := by
  fun_induction nextContent s with
  | case1 s line s' h _ ih => rw [ih, ← rewind_next s, h]
  | case2 s line s' h _ => rw [← rewind_next s, h]
  | case3 s s' h => rw [← rewind_next s, h]
  | case4 s e s' h => rw [← rewind_next s, h]

/-! ### Many events -/

/-- The source after its first events. -/
def passed (s : σ) : Nat → σ
  | 0 => s
  | n + 1 => (nextContent (passed s n)).2

theorem event_passed (s : σ) (n k : Nat) : event (passed s n) k = event s (n + k) := by
  induction n generalizing k with
  | zero => rw [Nat.zero_add, passed]
  | succ n ih =>
    rw [passed, ← event_succ, ih]
    exact congrArg (event s) (by omega)

/-- A line among the events is used up by passing it. -/
theorem remaining_passed_lt {s : σ} {n : Nat} {line : SourceLine}
    (h : event s n = .ok (some line)) :
    remaining (passed s (n + 1)) < remaining (passed s n) := by
  have hfirst : (nextContent (passed s n)).1 = .ok (some line) := by
    rw [← event_zero, event_passed, Nat.add_zero, h]
  have hnext : nextContent (passed s n) = (.ok (some line), passed s (n + 1)) :=
    Prod.ext hfirst rfl
  exact remaining_nextContent_lt hnext

/-! ### The end -/

/-- A source that answers with its end has no other event. -/
theorem event_of_next_end {s : σ} (h : (next s).1 = .ok none) (n : Nat) :
    event s n = .ok none := by
  induction n generalizing s with
  | zero => rw [event_zero_of_not_comment (by rw [h]; rfl), h]
  | succ n ih =>
    rw [event_succ_of_not_comment (by rw [h]; rfl)]
    exact ih (next_of_end (Prod.ext h rfl))

/-- Behind an end there are only ends. -/
theorem event_of_end {s : σ} (h : event s 0 = .ok none) (n : Nat) : event s n = .ok none := by
  rw [event_zero] at h
  fun_induction nextContent s with
  | case1 s line s' hnext hcomment ih =>
    rw [event_of_comment (by rw [hnext]; exact hcomment), hnext]
    exact ih h
  | case2 s line s' hnext hcomment => simp at h
  | case3 s s' hnext => exact event_of_next_end (by rw [hnext]) n
  | case4 s e s' hnext => simp at h

/-! ### Errors -/

/-- None of the events is an error. -/
def ErrorFree (s : σ) : Prop := ∀ n e, event s n ≠ .error e

/-- A source without errors does not answer with one, and has none afterwards. -/
theorem ErrorFree.next {s : σ} (h : ErrorFree s) :
    (∀ e, (next s).1 ≠ .error e) ∧ ErrorFree (next s).2 := by
  cases hcomment : Event.isComment (LineSource.next s).1 with
  | true =>
    obtain ⟨line, hline⟩ := Event.exists_line_of_isComment hcomment
    constructor
    · intro e
      rw [hline]
      simp
    · intro n e
      rw [← event_of_comment hcomment]
      exact h n e
  | false =>
    constructor
    · intro e
      rw [← event_zero_of_not_comment hcomment]
      exact h 0 e
    · intro n e
      rw [← event_succ_of_not_comment hcomment]
      exact h (n + 1) e

/-! ### Two sources -/

/-- Sources that answer alike, and stay related, have like events, as long as what is alike is a
comment on both sides or on none. -/
theorem event_of_simulation {τ : Type} [LineSource τ] {R : σ → τ → Prop}
    {Alike : Event → Event → Prop}
    (hstep : ∀ s t, R s t → Alike (next s).1 (next t).1 ∧ R (next s).2 (next t).2)
    (hcomment : ∀ e e', Alike e e' → Event.isComment e = Event.isComment e')
    {s : σ} {t : τ} (h : R s t) (n : Nat) : Alike (event s n) (event t n) := by
  -- a comment on one side is one on the other, so both sides pass it in the same step
  fun_induction event s n generalizing t with
  | case1 s hc ih =>
    obtain ⟨halike, hR⟩ := hstep s t h
    rw [event_of_comment ((hcomment _ _ halike).symm.trans hc)]
    exact ih hR
  | case2 s hc =>
    obtain ⟨halike, hR⟩ := hstep s t h
    rw [event_zero_of_not_comment ((hcomment _ _ halike).symm.trans (eq_false_of_ne_true hc))]
    exact halike
  | case3 s n hc ih =>
    obtain ⟨halike, hR⟩ := hstep s t h
    rw [event_of_comment ((hcomment _ _ halike).symm.trans hc)]
    exact ih hR
  | case4 s n hc ih =>
    obtain ⟨halike, hR⟩ := hstep s t h
    rw [event_succ_of_not_comment ((hcomment _ _ halike).symm.trans (eq_false_of_ne_true hc))]
    exact ih hR

end LineSource

end SvmLight
