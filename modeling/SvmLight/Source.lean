import SvmLight.Error
import SvmLight.Line

/-!
# Line sources

A **line source** hands out lines one after another, each with the place where it was read, and
can be rewound to its first line. Asking for a line gives a line, the end, or an error, and the
source as it is afterwards; after an error or the end one can ask again.

Three laws make a source usable: a line that is handed out is used up — `remaining` gets smaller, so
no source goes on for ever —, a source at its end stays there, and rewinding does not depend on how
much has been read.

In general rewinding could fail as well, and would have to answer. It is total here, because it
always succeeds for both kinds of sources that there are: lines in memory only go back to the first
one, and files are closed and not opened again before a line is asked for.

`nextContent` is the next line that is not a comment.
-/

namespace SvmLight

/-- A line of text and where it was read. -/
structure SourceLine where
  /-- the line, without its end -/
  text : Text
  /-- where it was read -/
  place : Place
deriving DecidableEq

/-- Supplies lines and can be rewound. -/
class LineSource (σ : Type) where
  /-- asks for the next line: `none` is the end -/
  next : σ → Except IoError (Option SourceLine) × σ
  /-- goes back to the first line -/
  rewind : σ → σ
  /-- a bound on how many lines are left -/
  remaining : σ → Nat
  /-- asking does not make lines -/
  remaining_next_le : ∀ s, remaining (next s).2 ≤ remaining s
  /-- a line that is handed out is used up -/
  remaining_next_lt : ∀ {s s' line}, next s = (.ok (some line), s') → remaining s' < remaining s
  /-- a source at its end stays there -/
  next_of_end : ∀ {s s'}, next s = (.ok none, s') → (next s').1 = .ok none
  /-- rewinding forgets what has been read -/
  rewind_next : ∀ s, rewind (next s).2 = rewind s
  /-- a source that has been rewound is at its first line -/
  rewind_rewind : ∀ s, rewind (rewind s) = rewind s

namespace LineSource

variable {σ : Type} [LineSource σ]

/-! ### Passing over comments -/

/-- The next line that is not a comment. Comments before it are used up, also where an error or
the end comes first. -/
def nextContent (s : σ) : Except IoError (Option SourceLine) × σ :=
  match _h : next s with
  | (.ok (some line), s') =>
    if Line.isComment line.text then nextContent s' else (.ok (some line), s')
  | (.ok none, s') => (.ok none, s')
  | (.error e, s') => (.error e, s')
termination_by remaining s
decreasing_by exact remaining_next_lt _h

theorem remaining_nextContent_le (s : σ) : remaining (nextContent s).2 ≤ remaining s := by
  fun_induction nextContent s with
  | case1 s line s' h _ ih => exact Nat.le_trans ih (Nat.le_of_lt (remaining_next_lt h))
  | case2 s line s' h _ => exact Nat.le_of_lt (remaining_next_lt h)
  | case3 s s' h =>
    have := remaining_next_le s
    rw [h] at this
    exact this
  | case4 s e s' h =>
    have := remaining_next_le s
    rw [h] at this
    exact this

theorem remaining_nextContent_lt {s s' : σ} {line : SourceLine}
    (hs : nextContent s = (.ok (some line), s')) : remaining s' < remaining s := by
  fun_induction nextContent s with
  | case1 s _ t h _ ih => exact Nat.lt_trans (ih hs) (remaining_next_lt h)
  | case2 s _ t h _ =>
    obtain ⟨-, rfl⟩ := Prod.mk.inj hs
    exact remaining_next_lt h
  | case3 s t h => simp at hs
  | case4 s e t h => simp at hs

end LineSource

end SvmLight
