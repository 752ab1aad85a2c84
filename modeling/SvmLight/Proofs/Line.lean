import SvmLight.Line

/-!
# Line ends

A newline ends a line. Carriage returns in front of it, or at the end of the text, are taken off by
some sources and left by others. It makes no difference: they are blanks, and blanks at the end of
a line are no part of any token.

* `lines_append_newline`, `lines_of_not_mem` — the lines of a text, one by one.
* `Line.Alike` — lines that have the same tokens and are comments alike.
* `alike_dropEndWhile`, `alike_dropCarriageReturn` — lines are alike with and without carriage
  returns at the end.
-/

namespace SvmLight

namespace Text

/-! ### Lines of a text -/

theorem lines_nil : lines [] = [] := rfl

/-- A text without a newline is one line, with all its carriage returns. -/
theorem lines_of_not_mem {t : Text} (h : '\n' ∉ t) (hne : t ≠ []) : lines t = [t] := by
  cases t with
  | nil => exact absurd rfl hne
  | cons c t => rw [lines, List.splitOn_eq_singleton h]; rfl

/-- A newline ends the first line. -/
theorem lines_append_newline {t : Text} (h : '\n' ∉ t) (rest : Text) :
    lines (t ++ '\n' :: rest) = dropCarriageReturn t :: lines rest := by
  have hsplit := List.splitOn_append_cons_self_of_not_mem h rest
  obtain ⟨piece, pieces, hrest⟩ := List.exists_cons_of_ne_nil (List.splitOn_ne_nil '\n' rest)
  rw [lines, lines, hsplit, hrest, List.dropLast_cons_cons, List.getLast?_cons_cons, List.map_cons,
    List.cons_append]

/-! ### Blanks at the end -/

theorem dropEndWhile_append_singleton {p : Char → Bool} {c : Char} (h : p c = true) (t : Text) :
    dropEndWhile p (t ++ [c]) = dropEndWhile p t := by
  rw [dropEndWhile, dropEndWhile, List.reverse_append, List.reverse_singleton,
    List.singleton_append, List.dropWhile_cons_of_pos h]

/-- What is not blank stays in front of a blank that is put at the end. -/
theorem trimStart_append_blank {c : Char} (h : isBlank c = true) (t : Text) :
    trimStart (t ++ [c]) = if trimStart t = [] then [] else trimStart t ++ [c] := by
  rw [trimStart, List.dropWhile_append]
  by_cases hblank : t.dropWhile isBlank = []
  · rw [hblank, trimStart, hblank, if_pos rfl, List.isEmpty_nil, if_pos rfl,
      List.dropWhile_cons_of_pos h, List.dropWhile_nil]
  · rw [trimStart, if_neg hblank, if_neg]
    rw [List.isEmpty_iff]
    exact hblank

theorem trim_append_blank {c : Char} (h : isBlank c = true) (t : Text) :
    trim (t ++ [c]) = trim t := by
  rw [trim, trim, trimStart_append_blank h]
  split
  · rename_i hblank
    rw [hblank]
  · exact dropEndWhile_append_singleton h _

end Text

namespace Line

/-! ### Carriage returns -/

/-- Lines that have the same tokens, and are both comments or both none. -/
structure Alike (line line' : Text) : Prop where
  /-- they have the same tokens -/
  tokens : tokens line = tokens line'
  /-- they are comments alike -/
  isComment : isComment line = isComment line'

theorem Alike.refl (line : Text) : Alike line line := ⟨rfl, rfl⟩

theorem Alike.symm {line line' : Text} (h : Alike line line') : Alike line' line :=
  ⟨h.tokens.symm, h.isComment.symm⟩

theorem Alike.trans {line line' line'' : Text} (h : Alike line line') (h' : Alike line' line'') :
    Alike line line'' := ⟨h.tokens.trans h'.tokens, h.isComment.trans h'.isComment⟩

theorem isBlank_carriageReturn : Text.isBlank '\r' = true := by decide

/-- A carriage return at the end is in a comment, or a blank behind the last token. -/
theorem tokens_append_carriageReturn (line : Text) : tokens (line ++ ['\r']) = tokens line := by
  have hbreak : (Text.breakAt commentMark (line ++ ['\r'])).1.trim =
      (Text.breakAt commentMark line).1.trim := by
    simp only [Text.breakAt]
    rw [List.takeWhile_append]
    split
    · -- there is no comment, so the carriage return is the last character
      rename_i hlength
      have hall : line.takeWhile (· != commentMark) = line :=
        (List.takeWhile_prefix _).eq_of_length hlength
      rw [hall]
      exact Text.trim_append_blank isBlank_carriageReturn line
    · rfl
  rw [tokens, tokens, hbreak]

theorem isComment_append_carriageReturn (line : Text) :
    isComment (line ++ ['\r']) = isComment line := by
  rw [isComment, isComment, Text.trimStart_append_blank isBlank_carriageReturn]
  split
  · rename_i hblank
    rw [hblank]
  · rename_i hblank
    obtain ⟨c, t, ht⟩ := List.exists_cons_of_ne_nil hblank
    rw [ht]
    rfl

theorem alike_append_carriageReturn (line : Text) : Alike (line ++ ['\r']) line :=
  ⟨tokens_append_carriageReturn line, isComment_append_carriageReturn line⟩

/-- Taking off any carriage returns at the end. The line is gone through from its end. -/
theorem alike_dropEndWhile {p : Char → Bool} (line : Text)
    (h : ∀ c ∈ line, p c = true → c = '\r') : Alike (line.dropEndWhile p) line := by
  suffices hreverse : ∀ ends : Text, (∀ c ∈ ends, p c = true → c = '\r') →
      Alike (ends.dropWhile p).reverse ends.reverse by
    have := hreverse line.reverse (fun c hc => h c (List.mem_reverse.1 hc))
    rw [List.reverse_reverse] at this
    exact this
  intro ends
  induction ends with
  | nil =>
    intro _
    exact Alike.refl _
  | cons c ends ih =>
    intro hends
    cases hc : p c with
    | false =>
      rw [List.dropWhile_cons_of_neg (by rw [hc]; exact Bool.false_ne_true)]
      exact Alike.refl _
    | true =>
      have hreturn := hends c List.mem_cons_self hc
      subst hreturn
      rw [List.dropWhile_cons_of_pos hc, List.reverse_cons]
      have hrest := ih fun c' hc' => hends c' (List.mem_cons_of_mem _ hc')
      exact hrest.trans (alike_append_carriageReturn _).symm

/-- Taking off one carriage return at the end. -/
theorem alike_dropCarriageReturn (line : Text) : Alike (Text.dropCarriageReturn line) line := by
  rw [Text.dropCarriageReturn]
  split
  · rename_i hlast
    obtain ⟨front, rfl⟩ := List.getLast?_eq_some_iff.1 hlast
    rw [List.dropLast_concat]
    exact (alike_append_carriageReturn front).symm
  · exact Alike.refl line

end Line

end SvmLight
