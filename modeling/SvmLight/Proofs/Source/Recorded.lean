import SvmLight.Proofs.Source.Outcomes

/-!
# Recorded sources

A **recorded** source answers as the source does and keeps all its answers, so one can see
afterwards how often it has been asked, and what it has given. Whatever is done with a source can be
done with a recorded one, and comes to the same. A **scripted** source answers what it is told to.

* `LineSource.asked` — the answers to so many requests; `LineSource.exists_nextContent_eq` — passing
  over comments asks until there is something else.
* `Recorded.after_eq` — asked so many times, a recorded source has kept so many answers.
* `Recorded.nextContent_plain` — it answers as the source does.
* `Scripted.asked_eq` — any answers in front of an end are those of a source.
-/

namespace SvmLight

/-! ### What an answer holds -/

namespace Event

/-- The line of an answer, if it is not a comment. -/
def content? (e : Event) : Option SourceLine :=
  match e with
  | .ok (some line) => if Line.isComment line.text then none else some line
  | _ => none

/-- The error of an answer. -/
def error? : Event → Option IoError
  | .error cause => some cause
  | _ => none

theorem content?_of_comment {e : Event} (h : e.isComment = true) : e.content? = none := by
  obtain ⟨line, rfl⟩ := exists_line_of_isComment h
  exact if_pos h

theorem error?_of_comment {e : Event} (h : e.isComment = true) : e.error? = none := by
  obtain ⟨line, rfl⟩ := exists_line_of_isComment h
  rfl

theorem isComment_of_content? {e : Event} {line : SourceLine} (h : e.content? = some line) :
    Line.isComment line.text = false := by
  match e with
  | .ok (some other) =>
    rw [content?] at h
    split at h
    · cases h
    · rename_i hcontent
      obtain rfl := Option.some.inj h
      exact eq_false_of_ne_true hcontent

/-- What is no comment is a line with content, or none. -/
theorem content?_of_not_comment {line? : Option SourceLine}
    (h : isComment (.ok line?) = false) : content? (.ok line?) = line? := by
  cases line? with
  | none => rfl
  | some line => exact if_neg (ne_true_of_eq_false h)

/-- Of some comments and one thing more, only the last counts. -/
theorem filterMap_comments {β : Type} {f : Event → Option β} {comments : List Event} {last : Event}
    (hf : ∀ e, isComment e = true → f e = none)
    (hcomments : ∀ e ∈ comments, isComment e = true) :
    (comments ++ [last]).filterMap f = (f last).toList := by
  have hnone : comments.filterMap f = [] :=
    List.filterMap_eq_nil_iff.2 fun e he => hf e (hcomments e he)
  rw [List.filterMap_append, hnone, List.nil_append, List.filterMap_cons, List.filterMap_nil]
  cases f last <;> rfl

end Event

/-! ### Answers to several requests -/

namespace LineSource

variable {σ : Type} [LineSource σ]

/-- The answers to so many requests. -/
def asked (s : σ) (n : Nat) : List Event := (List.range n).map (outcome s)

theorem asked_succ (s : σ) (n : Nat) : asked s (n + 1) = asked s n ++ [outcome s n] := by
  rw [asked, List.range_succ, List.map_append, asked, List.map_singleton]

@[simp] theorem length_asked (s : σ) (n : Nat) : (asked s n).length = n := by simp [asked]

theorem after_after (s : σ) (m n : Nat) : after (after s m) n = after s (m + n) := by
  induction n with
  | zero => rfl
  | succ n ih => exact congrArg (fun s : σ => (next s).2) ih

theorem outcome_after (s : σ) (m n : Nat) : outcome (after s m) n = outcome s (m + n) := by
  rw [outcome, after_after, outcome]

/-- Asking some times and then some more. -/
theorem asked_add (s : σ) (m n : Nat) : asked s (m + n) = asked s m ++ asked (after s m) n := by
  induction n with
  | zero => simp [asked]
  | succ n ih => rw [← Nat.add_assoc, asked_succ, ih, asked_succ, outcome_after, List.append_assoc]

/-! ### Passing over comments, request by request -/

theorem nextContent_of_comment {s : σ} (h : Event.isComment (next s).1 = true) :
    nextContent s = nextContent (next s).2 := by
  obtain ⟨line, hline⟩ := Event.exists_line_of_isComment h
  have hnext : next s = (.ok (some line), (next s).2) := Prod.ext hline rfl
  rw [hline] at h
  rw [nextContent, hnext]
  exact if_pos h

theorem nextContent_of_not_comment {s : σ} (h : Event.isComment (next s).1 = false) :
    nextContent s = next s := by
  rw [nextContent]
  rcases hnext : next s with ⟨_ | _ | line, s'⟩
  · rfl
  · rfl
  · rw [hnext] at h
    exact if_neg (ne_true_of_eq_false h)

/-- A source that is made of comments, up to something else. -/
theorem comment_induction {P : σ → Prop}
    (content : ∀ s, Event.isComment (next s).1 = false → P s)
    (comment : ∀ s, Event.isComment (next s).1 = true → P (next s).2 → P s) (s : σ) : P s := by
  cases h : Event.isComment (next s).1 with
  | true => exact comment s h (comment_induction content comment (next s).2)
  | false => exact content s h
termination_by remaining s
decreasing_by exact remaining_lt_of_comment h

/-- **Passing over comments** asks for one line after another until it meets something else. -/
theorem exists_nextContent_eq (s : σ) :
    ∃ n, nextContent s = (outcome s n, after s (n + 1)) ∧ (outcome s n).isComment = false ∧
      ∀ e ∈ asked s n, Event.isComment e = true := by
  induction s using comment_induction with
  | content s h => exact ⟨0, nextContent_of_not_comment h, h, by simp [asked]⟩
  | comment s h ih =>
    obtain ⟨n, heq, hcontent, hcomments⟩ := ih
    refine ⟨n + 1, ?_, ?_, ?_⟩
    · rw [nextContent_of_comment h, heq, outcome_succ, after_succ s (n + 1)]
    · rw [outcome_succ]
      exact hcontent
    · intro e hmem
      rw [Nat.add_comm, asked_add, List.mem_append] at hmem
      rcases hmem with hmem | hmem
      · obtain rfl : e = outcome s 0 := by simpa [asked] using hmem
        exact h
      · exact hcomments e hmem

end LineSource

/-! ### Keeping the answers -/

/-- A source and the answers that it has given since it was recorded or rewound. -/
structure Recorded (σ : Type) where
  /-- the source itself -/
  source : σ
  /-- its answers, one after another -/
  answers : List Event := []

namespace Recorded

variable {σ : Type} [LineSource σ]

instance : LineSource (Recorded σ) where
  next r :=
    let step := LineSource.next r.source
    (step.1, ⟨step.2, r.answers ++ [step.1]⟩)
  rewind r := ⟨LineSource.rewind r.source, []⟩
  remaining r := LineSource.remaining r.source
  remaining_next_le r := LineSource.remaining_next_le r.source
  remaining_next_lt {r r' line} h := by
    obtain ⟨hanswer, rfl⟩ := Prod.mk.inj h
    exact LineSource.remaining_next_lt (Prod.ext hanswer rfl)
  next_of_end {r r'} h := by
    obtain ⟨hanswer, rfl⟩ := Prod.mk.inj h
    exact LineSource.next_of_end (Prod.ext hanswer rfl)
  rewind_next r := congrArg (Recorded.mk · []) (LineSource.rewind_next r.source)
  rewind_rewind r := congrArg (Recorded.mk · []) (LineSource.rewind_rewind r.source)

theorem next_eq (r : Recorded σ) :
    LineSource.next r =
      ((LineSource.next r.source).1,
        ⟨(LineSource.next r.source).2, r.answers ++ [(LineSource.next r.source).1]⟩) := rfl

/-- **Every answer is kept.** -/
theorem after_eq (r : Recorded σ) (n : Nat) :
    LineSource.after r n =
      ⟨LineSource.after r.source n, r.answers ++ LineSource.asked r.source n⟩ := by
  induction n with
  | zero => simp [LineSource.after, LineSource.asked]
  | succ n ih =>
    rw [LineSource.after, ih, next_eq, LineSource.asked_succ, ← List.append_assoc]
    rfl

theorem outcome_eq (r : Recorded σ) (n : Nat) :
    LineSource.outcome r n = LineSource.outcome r.source n := by
  rw [LineSource.outcome, after_eq]
  rfl

theorem asked_eq (r : Recorded σ) (n : Nat) :
    LineSource.asked r n = LineSource.asked r.source n :=
  List.map_congr_left fun k _ => outcome_eq r k

/-- Asked so many times, a recorded source has that many more answers. -/
theorem answers_after (r : Recorded σ) (n : Nat) :
    (LineSource.after r n).answers = r.answers ++ LineSource.asked r n := by
  rw [after_eq, asked_eq]

/-- Passing over comments does not depend on whether the answers are kept. -/
theorem nextContent_plain (r : Recorded σ) :
    LineSource.nextContent r.source =
      ((LineSource.nextContent r).1, (LineSource.nextContent r).2.source) := by
  induction r using LineSource.comment_induction with
  | content r h =>
    rw [LineSource.nextContent_of_not_comment h]
    exact LineSource.nextContent_of_not_comment h
  | comment r h ih =>
    rw [LineSource.nextContent_of_comment h, ← ih]
    exact LineSource.nextContent_of_comment h

end Recorded

/-! ### Any answers at all -/

/-- A source that gives these answers in turn, up to an end. -/
structure Scripted where
  /-- what there is to answer -/
  script : List Event
  /-- how many answers have been given -/
  position : Nat := 0

namespace Scripted

/-- The next answer; a source at its end stays there. -/
def next (s : Scripted) : Event × Scripted :=
  match s.script[s.position]? with
  | some (.ok (some line)) => (.ok (some line), { s with position := s.position + 1 })
  | some (.error cause) => (.error cause, { s with position := s.position + 1 })
  | _ => (.ok none, s)

/-- How many answers are left. -/
def remaining (s : Scripted) : Nat := s.script.length - s.position

theorem next_of_ne_end {s : Scripted} {e : Event} (h : s.script[s.position]? = some e)
    (he : e ≠ .ok none) : s.next = (e, { s with position := s.position + 1 }) := by
  rw [next, h]
  rcases e with cause | _ | line
  · rfl
  · exact absurd rfl he
  · rfl

/-- The script stays what it is. -/
theorem script_next (s : Scripted) : s.next.2.script = s.script := by
  rw [next]
  split <;> rfl

theorem remaining_next_le (s : Scripted) : s.next.2.remaining ≤ s.remaining := by
  rw [next, remaining]
  split
  · simp only [remaining]
    omega
  · simp only [remaining]
    omega
  · exact Nat.le_refl _

theorem remaining_next_lt {s s' : Scripted} {line : SourceLine}
    (h : s.next = (.ok (some line), s')) : s'.remaining < s.remaining := by
  rw [next] at h
  split at h
  · rename_i other hother
    obtain ⟨-, rfl⟩ := Prod.mk.inj h
    obtain ⟨hlt, -⟩ := List.getElem?_eq_some_iff.1 hother
    simp only [remaining]
    omega
  · simp at h
  · simp at h

theorem next_of_end {s s' : Scripted} (h : s.next = (.ok none, s')) : s'.next.1 = .ok none := by
  have hend := h
  rw [next] at hend
  split at hend
  · simp at hend
  · simp at hend
  · obtain ⟨-, rfl⟩ := Prod.mk.inj hend
    exact congrArg Prod.fst h

instance : LineSource Scripted where
  next := next
  rewind s := { s with position := 0 }
  remaining := remaining
  remaining_next_le := remaining_next_le
  remaining_next_lt := remaining_next_lt
  next_of_end := next_of_end
  rewind_next s := congrArg (Scripted.mk · 0) (script_next s)
  rewind_rewind _ := rfl

theorem after_eq {script : List Event} (h : .ok none ∉ script) {n : Nat}
    (hn : n ≤ script.length) : LineSource.after (Scripted.mk script 0) n = ⟨script, n⟩ := by
  induction n with
  | zero => rfl
  | succ n ih =>
    have hanswer : script[n]? = some script[n] := List.getElem?_eq_getElem hn
    rw [LineSource.after, ih (Nat.le_of_succ_le hn)]
    refine congrArg Prod.snd (next_of_ne_end hanswer ?_)
    intro hend
    exact h (hend ▸ List.getElem_mem hn)

/-- **A source may answer anything** in front of its end. -/
theorem asked_eq {script : List Event} (h : .ok none ∉ script) :
    LineSource.asked (Scripted.mk script 0) script.length = script := by
  refine List.ext_getElem (by simp) ?_
  intro n hn hn'
  have hanswer : script[n]? = some script[n] := List.getElem?_eq_getElem hn'
  have hne : script[n] ≠ .ok none := fun hend => h (hend ▸ List.getElem_mem hn')
  simp only [LineSource.asked, List.getElem_map, List.getElem_range, LineSource.outcome]
  rw [after_eq h (Nat.le_of_lt hn')]
  exact congrArg Prod.fst (next_of_ne_end hanswer hne)

end Scripted

end SvmLight
