import SvmLight.Source

/-!
# One line of lookahead

Whether a line is left can be asked without giving the line away: a **peekable** source keeps one
line **pending**. Comments never become pending.

| pending | `peek`                                | `pop`                           | `clear` |
|---------|---------------------------------------|---------------------------------|---------|
| none    | passes comments; keeps the next line  | passes comments; gives the next | none    |
| a line  | nothing                               | gives it; none                  | none    |
-/

namespace SvmLight

/-- A line source and the line that has been read ahead. -/
structure Peekable (σ : Type) where
  /-- where lines come from -/
  source : σ
  /-- the line that has been read ahead -/
  pending : Option SourceLine := none

namespace Peekable

variable {σ : Type} [LineSource σ]

/-- Whether there is a line; if so, it is pending afterwards. -/
def peek (p : Peekable σ) : Except IoError Bool × Peekable σ :=
  match p.pending with
  | some _ => (.ok true, p)
  | none =>
    match LineSource.nextContent p.source with
    | (.ok line?, source) => (.ok line?.isSome, ⟨source, line?⟩)
    | (.error e, source) => (.error e, ⟨source, none⟩)

/-- Gives the pending line, or else the next one that is not a comment; nothing is pending
afterwards. -/
def pop (p : Peekable σ) : Except IoError (Option SourceLine) × Peekable σ :=
  match p.pending with
  | some line => (.ok (some line), ⟨p.source, none⟩)
  | none =>
    let step := LineSource.nextContent p.source
    (step.1, ⟨step.2, none⟩)

omit [LineSource σ] in
/-- Drops the pending line. -/
def clear (p : Peekable σ) : Peekable σ := { p with pending := none }

/-- Goes back to the first line. -/
def rewind (p : Peekable σ) : Peekable σ := ⟨LineSource.rewind p.source, none⟩

/-- After an answer that there is a line, that line is pending. -/
theorem pending_of_peek {p : Peekable σ} (h : p.peek.1 = .ok true) :
    ∃ line, p.peek.2.pending = some line := by
  rw [peek] at h ⊢
  split at h
  · rename_i line hpending
    exact ⟨line, hpending⟩
  · split at h
    · exact Option.isSome_iff_exists.1 (Except.ok.inj h)
    · simp at h

/-! ### What is left -/

/-- A bound on how many lines are left, the pending one included. -/
def remaining (p : Peekable σ) : Nat :=
  LineSource.remaining p.source + p.pending.toList.length

theorem remaining_peek_le (p : Peekable σ) : p.peek.2.remaining ≤ p.remaining := by
  rw [peek]
  split
  · exact Nat.le_refl _
  · rename_i hpending
    have hle := LineSource.remaining_nextContent_le p.source
    split
    · rename_i line? source h
      rw [h] at hle
      cases line? with
      | none => simpa [remaining, hpending] using hle
      | some line =>
        have hlt := LineSource.remaining_nextContent_lt h
        simpa [remaining, hpending] using Nat.succ_le_of_lt hlt
    · rename_i e source h
      rw [h] at hle
      simpa [remaining, hpending] using hle

theorem remaining_pop_lt {p p' : Peekable σ} {line : SourceLine}
    (h : p.pop = (.ok (some line), p')) : p'.remaining < p.remaining := by
  rw [pop] at h
  split at h
  · rename_i pending hpending
    obtain ⟨-, rfl⟩ := Prod.mk.inj h
    simp [remaining, hpending]
  · rename_i hpending
    obtain ⟨h1, rfl⟩ := Prod.mk.inj h
    have := LineSource.remaining_nextContent_lt (Prod.ext h1 rfl)
    simpa [remaining, hpending] using this

end Peekable

end SvmLight
