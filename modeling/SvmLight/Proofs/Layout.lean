import SvmLight.Line
import SvmLight.Proofs.Text

/-!
# How a line is laid out

A line is made of tokens: first blanks, then the tokens with runs of spaces and tabs between them,
then blanks again, and perhaps a comment. Every line is made of one list of tokens, and of no other.

* `Line.words_of_spaced`, `Line.exists_spaced` — a text is cut into the words it is made of.
* `Line.LaidOut` — the lines that are made of some tokens.
* `Line.tokens_laidOut` — **a line is cut into the tokens it is made of**, and there are none in a
  comment, in a line of blanks, and nowhere else.
-/

namespace SvmLight

namespace Line

/-! ### Words -/

/-- A word: something, with no space and no tab in it. -/
structure IsWord (t : Text) : Prop where
  /-- there is a character -/
  ne_nil : t ≠ []
  /-- none is a separator -/
  uncut : ∀ c ∈ t, isSeparator c = false

/-- Words with runs of spaces and tabs between them. -/
inductive Spaced : List Text → Text → Prop where
  /-- no word -/
  | nil : Spaced [] []
  /-- the last word -/
  | last (t : Text) : Spaced [t] t
  /-- a word, the run behind it, and the other words -/
  | cons {t t' gap behind : Text} {ts : List Text} (gap_ne_nil : gap ≠ [])
      (separators : ∀ c ∈ gap, isSeparator c = true) (rest : Spaced (t' :: ts) behind) :
      Spaced (t :: t' :: ts) (t ++ gap ++ behind)

/-- Cuts a text at spaces and tabs, and keeps what is not empty. -/
def words (t : Text) : List Text := (t.splitOnP isSeparator).filter (!·.isEmpty)

/-- Tokens are the words of what stands in front of a comment. -/
theorem tokens_eq (line : Text) :
    tokens line = words (Text.trim (line.takeWhile (· != commentMark))) := rfl

/-- **A separator ends a word.** All other facts about words follow from this one. -/
theorem words_append_separator {c : Char} (h : isSeparator c = true) (t t' : Text) :
    words (t ++ c :: t') = words t ++ words t' := by
  rw [words, List.splitOnP_append_cons t t' h, List.filter_append, words, words]

theorem words_of_isWord {t : Text} (h : IsWord t) : words t = [t] := by
  rw [words, List.splitOnP_eq_singleton h.uncut]
  simp [h.ne_nil]

theorem words_gap {gap : Text} (h : ∀ c ∈ gap, isSeparator c = true) (t : Text) :
    words (gap ++ t) = words t := by
  induction gap with
  | nil => rfl
  | cons c gap ih =>
    rw [List.forall_mem_cons] at h
    exact (words_append_separator h.1 [] _).trans (ih h.2)

/-- A text has the words that it is made of. -/
theorem words_of_spaced {ts : List Text} {body : Text} (h : Spaced ts body)
    (hts : ∀ t ∈ ts, IsWord t) : words body = ts := by
  induction h with
  | nil => rfl
  | last t => exact words_of_isWord (hts t List.mem_cons_self)
  | cons gap_ne_nil separators _ ih =>
    obtain ⟨c, gap, rfl⟩ := List.exists_cons_of_ne_nil gap_ne_nil
    rw [List.forall_mem_cons] at hts separators
    rw [List.append_assoc, List.cons_append, words_append_separator separators.1,
      words_gap separators.2, ih hts.2, words_of_isWord hts.1]
    rfl

/-- A character in front of the first word belongs to it. -/
theorem Spaced.cons_head {t body : Text} {ts : List Text} (c : Char) (h : Spaced (t :: ts) body) :
    Spaced ((c :: t) :: ts) (c :: body) := by
  cases h with
  | last => exact .last _
  | cons gap_ne_nil separators rest => exact .cons (t := c :: t) gap_ne_nil separators rest

/-- **Every text is made of words**, up to separators at both ends. -/
theorem exists_spaced (t : Text) :
    ∃ ts front body back, Spaced ts body ∧ (∀ w ∈ ts, IsWord w) ∧
      (∀ c ∈ front, isSeparator c = true) ∧ (∀ c ∈ back, isSeparator c = true) ∧
      t = front ++ body ++ back := by
  induction t with
  | nil => exact ⟨[], [], [], [], .nil, by simp, by simp, by simp, rfl⟩
  | cons c t ih =>
    obtain ⟨ts, front, body, back, hspaced, hts, hfront, hback, rfl⟩ := ih
    cases hc : isSeparator c with
    | true =>
      exact ⟨ts, c :: front, body, back, hspaced, hts, by simpa [hc] using hfront, hback, rfl⟩
    | false =>
      have hword : IsWord [c] := ⟨by simp, by simpa using hc⟩
      -- the character is a word of its own, or it is put in front of the first one
      cases ts with
      | nil =>
        cases hspaced
        refine ⟨[[c]], [], [c], front ++ back, .last _, by simpa using hword, by simp, ?_, by simp⟩
        rw [List.forall_mem_append]
        exact ⟨hfront, hback⟩
      | cons w ts =>
        cases front with
        | nil =>
          rw [List.forall_mem_cons] at hts
          have hlonger : IsWord (c :: w) := ⟨by simp, List.forall_mem_cons.2 ⟨hc, hts.1.uncut⟩⟩
          exact ⟨(c :: w) :: ts, [], c :: body, back, hspaced.cons_head c,
            List.forall_mem_cons.2 ⟨hlonger, hts.2⟩, by simp, hback, rfl⟩
        | cons d front =>
          exact ⟨[c] :: w :: ts, [], [c] ++ (d :: front) ++ body, back,
            .cons (by simp) hfront hspaced, List.forall_mem_cons.2 ⟨hword, hts⟩, by simp, hback,
            by simp⟩

/-! ### What words tell about the text -/

/-- What is in the text and is no separator is in a word. -/
theorem Spaced.mem_iff {ts : List Text} {body : Text} (h : Spaced ts body) {c : Char}
    (hc : isSeparator c = false) : c ∈ body ↔ ∃ t ∈ ts, c ∈ t := by
  induction h with
  | nil => simp
  | last t => simp
  | @cons t t' gap behind ts _ separators _ ih =>
    have hgap : c ∉ gap := by
      intro hmem
      rw [separators c hmem] at hc
      cases hc
    simp [ih, hgap]

/-- The text begins like the first word. -/
theorem Spaced.head?_eq {t body : Text} {ts : List Text} (h : Spaced (t :: ts) body)
    (hne : t ≠ []) : body.head? = t.head? := by
  cases h with
  | last => rfl
  | cons _ _ _ => rw [List.append_assoc, List.head?_append_of_ne_nil _ hne]

/-- The text ends like the last word. -/
theorem Spaced.getLast?_eq {ts : List Text} {body t : Text} (h : Spaced ts body)
    (hlast : ts.getLast? = some t) (hne : t ≠ []) : body.getLast? = t.getLast? := by
  induction h with
  | nil => cases hlast
  | last t' =>
    cases hlast
    rfl
  | cons _ _ rest ih =>
    rw [List.getLast?_cons_cons] at hlast
    have hrest := ih hlast
    rw [List.getLast?_append_of_ne_nil _ ?_, hrest]
    rintro rfl
    rw [List.getLast?_nil, eq_comm, List.getLast?_eq_none_iff] at hrest
    exact hne hrest

/-- There are blanks at the ends of the text if there are some at the ends of its words. -/
theorem Spaced.trimmed_iff {ts : List Text} {body : Text} (h : Spaced ts body)
    (hts : ∀ t ∈ ts, IsWord t) :
    Text.Trimmed body ↔ (∀ t ∈ ts.head?, ∀ c ∈ t.head?, Text.isBlank c = false) ∧
      ∀ t ∈ ts.getLast?, ∀ c ∈ t.getLast?, Text.isBlank c = false := by
  cases ts with
  | nil =>
    cases h
    simp only [List.head?_nil, List.getLast?_nil, Option.not_mem_none, false_implies, implies_true,
      and_self, iff_true]
    exact ⟨by simp, by simp⟩
  | cons t ts =>
    have hfirst := h.head?_eq (hts t List.mem_cons_self).ne_nil
    have hlast := h.getLast?_eq (List.getLast?_eq_some_getLast (List.cons_ne_nil t ts))
      (hts _ (List.getLast_mem _)).ne_nil
    rw [List.head?_cons, List.getLast?_eq_some_getLast (List.cons_ne_nil t ts)]
    simp only [Option.mem_def, Option.some.injEq, forall_eq', ← hfirst, ← hlast]
    exact ⟨fun htrimmed => ⟨htrimmed.first, htrimmed.last⟩, fun hends => ⟨hends.1, hends.2⟩⟩

/-! ### Lines -/

/-- The tokens that a line can be made of. -/
structure AreTokens (ts : List Text) : Prop where
  /-- each is a word -/
  isWord : ∀ t ∈ ts, IsWord t
  /-- no comment begins in one -/
  no_mark : ∀ t ∈ ts, commentMark ∉ t
  /-- the first one does not begin with a blank -/
  first : ∀ t ∈ ts.head?, ∀ c ∈ t.head?, Text.isBlank c = false
  /-- the last one does not end with a blank -/
  last : ∀ t ∈ ts.getLast?, ∀ c ∈ t.getLast?, Text.isBlank c = false

/-- What can stand at the end of a line: nothing, or a comment. -/
inductive IsRemark : Text → Prop where
  /-- nothing -/
  | none : IsRemark []
  /-- a comment mark, and whatever comes after it -/
  | mark (t : Text) : IsRemark (commentMark :: t)

/-- A line that is made of some tokens. -/
inductive LaidOut (ts : List Text) : Text → Prop where
  /-- blanks, the tokens with separators between them, blanks again, and perhaps a comment -/
  | line {front body back remark : Text} (front_blank : Text.Blank front)
      (spaced : Spaced ts body) (back_blank : Text.Blank back) (isRemark : IsRemark remark) :
      LaidOut ts (front ++ body ++ back ++ remark)

variable {ts : List Text} {line : Text}

theorem isBlank_of_isSeparator {c : Char} (h : isSeparator c = true) : Text.isBlank c = true := by
  rw [isSeparator, Bool.or_eq_true, beq_iff_eq, beq_iff_eq] at h
  rcases h with rfl | rfl
  · decide
  · decide

theorem not_mem_of_blank {t : Text} (h : Text.Blank t) : commentMark ∉ t :=
  fun hmem => absurd (h _ hmem) (by decide)

/-- A line is cut off at its first comment mark. -/
theorem takeWhile_remark {t remark : Text} (h : commentMark ∉ t) (hremark : IsRemark remark) :
    (t ++ remark).takeWhile (· != commentMark) = t := by
  have hfirst : ∀ c ∈ remark.head?, (c != commentMark) = false := by
    cases hremark with
    | none => simp
    | mark t => simp
  exact (span_append (bne_of_not_mem h) hfirst).1

/-- What is left of the mark, and the remark. -/
theorem exists_remark (line : Text) :
    ∃ remark, IsRemark remark ∧ line = line.takeWhile (· != commentMark) ++ remark := by
  obtain ⟨remark, hremark⟩ : ∃ remark, remark = line.dropWhile (· != commentMark) := ⟨_, rfl⟩
  refine ⟨remark, ?_, hremark ▸ List.takeWhile_append_dropWhile.symm⟩
  have hhead := List.head?_dropWhile_not (· != commentMark) line
  rw [← hremark] at hhead
  cases remark with
  | nil => exact .none
  | cons c t =>
    obtain rfl : c = commentMark := by simpa using hhead
    exact .mark t

/-- A line has the tokens that it is made of. -/
theorem LaidOut.tokens_eq (h : LaidOut ts line) (hts : AreTokens ts) : tokens line = ts := by
  cases h with
  | @line front body back remark front_blank spaced back_blank isRemark =>
    have hbody : commentMark ∉ body := by
      rw [spaced.mem_iff (by decide)]
      rintro ⟨t, ht, hmem⟩
      exact hts.no_mark t ht hmem
    have hcontent : commentMark ∉ front ++ body ++ back := by
      simp [not_mem_of_blank front_blank, not_mem_of_blank back_blank, hbody]
    have htrimmed := (spaced.trimmed_iff hts.isWord).2 ⟨hts.first, hts.last⟩
    rw [Line.tokens_eq, takeWhile_remark hcontent isRemark,
      Text.trim_eq front_blank htrimmed back_blank, words_of_spaced spaced hts.isWord]

/-- Every line is made of tokens. -/
theorem exists_laidOut (line : Text) : ∃ ts, AreTokens ts ∧ LaidOut ts line := by
  obtain ⟨remark, hremark, hline⟩ := exists_remark line
  obtain ⟨front, back, hfront, hback, htrimmed, hcontent⟩ :=
    Text.exists_trim (line.takeWhile (· != commentMark))
  obtain ⟨ts, front', body, back', hspaced, hts, hfront', hback', htrim⟩ :=
    exists_spaced (Text.trim (line.takeWhile (· != commentMark)))
  -- separators are blanks, and there are none at the ends of what has been trimmed
  obtain rfl : front' = [] := by
    cases front' with
    | nil => rfl
    | cons c front' =>
      have hblank := isBlank_of_isSeparator (hfront' c List.mem_cons_self)
      rw [htrimmed.first c (by rw [htrim]; rfl)] at hblank
      cases hblank
  obtain rfl : back' = [] := by
    rcases List.eq_nil_or_concat back' with rfl | ⟨back', c, rfl⟩
    · rfl
    · have hblank := isBlank_of_isSeparator (hback' c (by simp))
      rw [htrimmed.last c (by rw [htrim]; simp)] at hblank
      cases hblank
  rw [List.nil_append, List.append_nil] at htrim
  rw [htrim] at htrimmed hcontent
  obtain ⟨hfirst, hlast⟩ := (hspaced.trimmed_iff hts).1 htrimmed
  refine ⟨ts, ⟨hts, ?_, hfirst, hlast⟩, ?_⟩
  · intro t ht hmem
    have hmark : commentMark ∈ line.takeWhile (· != commentMark) := by
      rw [hcontent]
      have := (hspaced.mem_iff (c := commentMark) (by decide)).2 ⟨t, ht, hmem⟩
      simp [this]
    simpa using List.mem_takeWhile_imp hmark
  · rw [hline, hcontent]
    exact .line hfront hspaced hback hremark

theorem tokens_eq_iff : tokens line = ts ↔ AreTokens ts ∧ LaidOut ts line := by
  constructor
  · rintro rfl
    obtain ⟨ts, hts, hline⟩ := exists_laidOut line
    rw [hline.tokens_eq hts]
    exact ⟨hts, hline⟩
  · rintro ⟨hts, hline⟩
    exact hline.tokens_eq hts

/-! ### Single spaces -/

theorem spaced_join (ts : List Text) : Spaced ts (Text.join ' ' ts) := by
  induction ts with
  | nil => exact .nil
  | cons t ts ih =>
    cases ts with
    | nil =>
      rw [Text.join, List.intercalate_singleton]
      exact .last t
    | cons t' ts =>
      rw [Text.join, List.intercalate_cons_cons]
      exact .cons (by simp) (by simp [isSeparator]) ih

/-- Tokens can be joined by single spaces. -/
theorem laidOut_join (ts : List Text) : LaidOut ts (Text.join ' ' ts) := by
  have hline := LaidOut.line Text.blank_nil (spaced_join ts) Text.blank_nil .none
  rwa [List.append_nil, List.append_nil, List.nil_append] at hline

/-! ### Lines without tokens -/

theorem isComment_iff : isComment line = true ↔
    ∃ front t, Text.Blank front ∧ line = front ++ commentMark :: t := by
  rw [isComment, beq_iff_eq, Text.trimStart, List.head?_eq_some_iff]
  constructor
  · rintro ⟨t, ht⟩
    obtain ⟨front, hfront, hline, -⟩ := exists_dropWhile Text.isBlank line
    exact ⟨front, t, hfront, ht ▸ hline⟩
  · rintro ⟨front, t, hfront, rfl⟩
    refine ⟨t, (span_append hfront ?_).2⟩
    rintro c ⟨⟩
    decide

/-- A line has no tokens if it is a comment, or if there are only blanks. -/
theorem laidOut_nil_iff : LaidOut [] line ↔ isComment line = true ∨ Text.Blank line := by
  rw [isComment_iff]
  constructor
  · intro h
    cases h with
    | @line front body back remark front_blank spaced back_blank isRemark =>
      cases spaced
      have hblank : Text.Blank (front ++ [] ++ back) := by
        rw [List.append_nil]
        exact List.forall_mem_append.2 ⟨front_blank, back_blank⟩
      cases isRemark with
      | none => exact .inr (by rwa [List.append_nil])
      | mark t => exact .inl ⟨_, t, hblank, rfl⟩
  · rintro (⟨front, t, hfront, rfl⟩ | hblank)
    · have hline := LaidOut.line hfront .nil Text.blank_nil (.mark t)
      rwa [List.append_nil, List.append_nil] at hline
    · have hline := LaidOut.line hblank .nil Text.blank_nil .none
      rwa [List.append_nil, List.append_nil, List.append_nil] at hline

theorem areTokens_nil : AreTokens [] := ⟨by simp, by simp, by simp, by simp⟩

/-- **A line is cut into the tokens it is made of**, and into no others. Joined by single spaces
they are cut apart again. There are none if the line is a comment or nothing but blanks, and in no
other line. -/
theorem tokens_laidOut (line : Text) :
    (∀ ts, tokens line = ts ↔ AreTokens ts ∧ LaidOut ts line) ∧
      tokens (Text.join ' ' (tokens line)) = tokens line ∧
      (tokens line = [] ↔ isComment line = true ∨ Text.Blank line) := by
  refine ⟨fun ts => tokens_eq_iff, ?_, ?_⟩
  · obtain ⟨htokens, -⟩ := tokens_eq_iff.1 (rfl : tokens line = tokens line)
    exact (laidOut_join _).tokens_eq htokens
  · rw [tokens_eq_iff, laidOut_nil_iff]
    exact and_iff_right areTokens_nil

/-- A blank that is no separator is taken off at the ends, and is part of a token elsewhere. -/
example : tokens "\u00a01,2\t \t0:1\u00a02 #0:3".toList = ["1,2".toList, "0:1\u00a02".toList] := by
  decide

end Line

end SvmLight
