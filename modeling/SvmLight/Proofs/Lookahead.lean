import SvmLight.Proofs.Peekable
import SvmLight.Proofs.Source.Recorded

/-!
# The lookahead

A peekable source looks at most one line ahead, and what it looks at is never lost. That is stated
of runs, in which it is asked anything in any order, and lines are also asked of its source behind
its back; the source is recorded, so one can see what each step has asked it for.

* `Peekable.Request`, `Peekable.Reply` — what can be asked, and what comes back.
* `Peekable.Step.Lawful` — what a step does to the pending line and to the source.
* `Peekable.steps_lawful` — **every step of every run is lawful**.
* `Peekable.pulled_eq` — **no line is lost**: what has been pulled has been given or dropped, but
  for the pending line.
* `Peekable.steps_plain` — the record changes nothing.
-/

namespace SvmLight.Peekable

variable {σ : Type} [LineSource σ]

/-! ### Runs -/

/-- What a peekable source can be asked. -/
inductive Request where
  /-- whether there is a line -/
  | peek
  /-- the next line -/
  | pop
  /-- to drop the pending line -/
  | clear
  /-- the next line of its source, behind its back -/
  | next
deriving DecidableEq

/-- What comes back. -/
inductive Reply where
  /-- whether there is a line -/
  | peeked (answer : Except IoError Bool)
  /-- a line, or the end -/
  | popped (answer : Event)
  /-- nothing -/
  | cleared
  /-- a line of the source, or its end -/
  | passed (answer : Event)

/-- The error in a reply. -/
def Reply.error? : Reply → Option IoError
  | .peeked (.error cause) => some cause
  | .popped answer => answer.error?
  | .passed answer => answer.error?
  | _ => none

/-- Answers a request. -/
def respond (p : Peekable σ) : Request → Reply × Peekable σ
  | .peek => (.peeked p.peek.1, p.peek.2)
  | .pop => (.popped p.pop.1, p.pop.2)
  | .clear => (.cleared, p.clear)
  | .next => (.passed (LineSource.next p.source).1, { p with source := (LineSource.next p.source).2 })

/-- A step of a run. -/
structure Step (σ : Type) where
  /-- before it -/
  before : Peekable σ
  /-- what is asked -/
  request : Request
  /-- what comes back -/
  reply : Reply
  /-- after it -/
  after : Peekable σ

/-- The step that a request is. -/
def step (p : Peekable σ) (request : Request) : Step σ :=
  ⟨p, request, (p.respond request).1, (p.respond request).2⟩

/-- Answers requests in turn. -/
def steps : List Request → Peekable σ → List (Step σ)
  | [], _ => []
  | request :: requests, p => p.step request :: steps requests (p.step request).after

/-- The peekable source after these requests. -/
def final (requests : List Request) (p : Peekable σ) : Peekable σ :=
  requests.foldl (fun p request => (p.step request).after) p

/-- A pending line, if there is one, is no comment. -/
def Content (p : Peekable σ) : Prop := ∀ line ∈ p.pending, Line.isComment line.text = false

omit [LineSource σ] in
theorem content_none (s : σ) : Content ⟨s, none⟩ := by simp [Content]

/-! ### What a step does -/

namespace Step

/-- It is about the lookahead, which may need a line for it. -/
def Looks (st : Step σ) : Prop := st.request = .peek ∨ st.request = .pop

instance (st : Step σ) : Decidable st.Looks := inferInstanceAs (Decidable (_ ∨ _))

/-- The answers that the source has given. -/
def answers (st : Step (Recorded σ)) : List Event :=
  st.after.source.answers.drop st.before.source.answers.length

/-- The lines that have been pulled for the lookahead. -/
def pulled (st : Step (Recorded σ)) : List SourceLine :=
  if st.Looks then st.answers.filterMap Event.content? else []

/-- The line that has been given away. -/
def given (st : Step σ) : Option SourceLine :=
  match st.reply with
  | .popped (.ok line?) => line?
  | _ => none

/-- The line that has been dropped. -/
def dropped (st : Step σ) : Option SourceLine :=
  match st.request with
  | .clear => st.before.pending
  | _ => none

/-- The line that has left the lookahead. -/
def released (st : Step σ) : List SourceLine := st.given.toList ++ st.dropped.toList

/-- What the lookahead and its source are after a step, and what the step comes to. -/
structure Lawful (st : Step (Recorded σ)) : Prop where
  /-- the source is where its answers have led it -/
  source : st.after.source = LineSource.after st.before.source st.answers.length
  /-- a pending line is no comment -/
  content : st.after.Content
  /-- a pending line spares the source -/
  kept : st.Looks → st.before.pending.isSome = true → st.after.source = st.before.source
  /-- if there is none, the source is asked until it gives something else than a comment -/
  passed : st.Looks → st.before.pending = none → ∃ comments last,
    st.answers = comments ++ [last] ∧ (∀ e ∈ comments, Event.isComment e = true) ∧
      Event.isComment last = false
  /-- nothing is pending after a line has been asked for -/
  popped : st.request = .pop → st.after.pending = none
  /-- a line is pending if it has been found -/
  peeked : st.request = .peek → (st.after.pending.isSome = true ↔ st.reply = .peeked (.ok true))
  /-- each error of the source is passed on, and there is no other -/
  errors : st.answers.filterMap Event.error? = st.reply.error?.toList
  /-- each line is given, or dropped, or pending -/
  lines : st.before.pending.toList ++ st.pulled = st.released ++ st.after.pending.toList
  /-- no line is both given and dropped -/
  once : st.given = none ∨ st.dropped = none

end Step

/-! ### One step -/

/-- What passing over comments comes to is what is looked at. -/
theorem peek_of_nextContent {s s' : σ} {e : Event} (h : LineSource.nextContent s = (e, s'))
    (he : Event.isComment e = false) :
    peek ⟨s, none⟩ = (e.map Option.isSome, ⟨s', Event.content? e⟩) := by
  simp only [peek, h]
  rcases e with cause | line?
  · rfl
  · rw [Event.content?_of_not_comment he]
    rfl

theorem pop_of_nextContent {s s' : σ} {e : Event} (h : LineSource.nextContent s = (e, s')) :
    pop ⟨s, none⟩ = (e, ⟨s', none⟩) := by
  simp only [pop, h]

/-! ### What the source has been asked -/

namespace Step

variable {st : Step (Recorded σ)} {n : Nat}

/-- The answers in a step that has asked the source so many times. -/
theorem answers_eq (h : st.after.source = LineSource.after st.before.source n) :
    st.answers = LineSource.asked st.before.source n := by
  rw [answers, h, Recorded.answers_after, List.drop_left]

omit [LineSource σ] in
theorem answers_eq_nil (h : st.after.source = st.before.source) : st.answers = [] := by
  rw [answers, h, List.drop_length]

omit [LineSource σ] in
theorem pulled_eq_nil (h : st.answers = []) : st.pulled = [] := by
  rw [pulled, h]
  exact ite_self []

/-- A step that has asked for a line: what it has met is all that counts. -/
theorem lawful_of_passed {last : Event} (hlooks : st.Looks) (hbefore : st.before.pending = none)
    (hsource : st.after.source = LineSource.after st.before.source (n + 1))
    (hlast : LineSource.outcome st.before.source n = last)
    (hcomments : ∀ e ∈ LineSource.asked st.before.source n, Event.isComment e = true)
    (hcontent : Event.isComment last = false)
    (content : st.after.Content)
    (popped : st.request = .pop → st.after.pending = none)
    (peeked : st.request = .peek →
      (st.after.pending.isSome = true ↔ st.reply = .peeked (.ok true)))
    (errors : st.reply.error? = last.error?)
    (lines : last.content?.toList = st.released ++ st.after.pending.toList)
    (once : st.given = none ∨ st.dropped = none) : st.Lawful := by
  have hanswers := answers_eq hsource
  have hsplit := hanswers
  rw [LineSource.asked_succ, hlast] at hsplit
  refine ⟨?_, content, ?_, ?_, popped, peeked, ?_, ?_, once⟩
  · rw [hsource, hanswers, LineSource.length_asked]
  · intro _ hsome
    rw [hbefore] at hsome
    cases hsome
  · intro _ _
    exact ⟨_, _, hsplit, hcomments, hcontent⟩
  · rw [hsplit, Event.filterMap_comments (fun _ => Event.error?_of_comment) hcomments, errors]
  · rw [hbefore, pulled, if_pos hlooks, hsplit,
      Event.filterMap_comments (fun _ => Event.content?_of_comment) hcomments, ← lines]
    rfl

/-- A step that has not asked the source. -/
theorem lawful_of_kept (hsource : st.after.source = st.before.source)
    (hbefore : st.Looks → st.before.pending ≠ none)
    (content : st.after.Content)
    (popped : st.request = .pop → st.after.pending = none)
    (peeked : st.request = .peek →
      (st.after.pending.isSome = true ↔ st.reply = .peeked (.ok true)))
    (errors : st.reply.error? = none)
    (lines : st.before.pending.toList = st.released ++ st.after.pending.toList)
    (once : st.given = none ∨ st.dropped = none) : st.Lawful := by
  have hanswers := answers_eq_nil hsource
  refine ⟨?_, content, fun _ _ => hsource, ?_, popped, peeked, ?_, ?_, once⟩
  · rw [hsource, hanswers]
    rfl
  · intro hlooks hnone
    exact absurd hnone (hbefore hlooks)
  · rw [hanswers, errors]
    rfl
  · rw [pulled_eq_nil hanswers, List.append_nil, lines]

end Step

/-! ### Every step -/

variable {p : Peekable (Recorded σ)}

theorem lawful_peek (hp : p.Content) : (p.step .peek).Lawful := by
  obtain ⟨s, pending⟩ := p
  cases pending with
  | some line =>
    refine Step.lawful_of_kept rfl ?_ hp ?_ ?_ rfl rfl (.inl rfl)
    · simp [step]
    · simp [step]
    · simp [step, respond, peek]
  | none =>
    -- `n` comments are passed; what comes behind them is the reply, and pending if it is a line
    obtain ⟨n, hnext, hcontent, hcomments⟩ := LineSource.exists_nextContent_eq s
    have hstep : step ⟨s, none⟩ .peek =
        ⟨⟨s, none⟩, .peek, .peeked ((LineSource.outcome s n).map Option.isSome),
          ⟨LineSource.after s (n + 1), Event.content? (LineSource.outcome s n)⟩⟩ := by
      simp only [step, respond, peek_of_nextContent hnext hcontent]
    rw [hstep]
    refine Step.lawful_of_passed (.inl rfl) rfl rfl rfl hcomments hcontent ?_ ?_ ?_ ?_ rfl (.inl rfl)
    · exact fun line hline => Event.isComment_of_content? hline
    · simp
    · rcases hlast : LineSource.outcome s n with cause | line?
      · simp [Event.content?, Except.map]
      · rw [hlast] at hcontent
        rw [Event.content?_of_not_comment hcontent]
        cases line? <;> simp [Except.map]
    · rcases LineSource.outcome s n with cause | line? <;> rfl

theorem lawful_pop : (p.step .pop).Lawful := by
  obtain ⟨s, pending⟩ := p
  cases pending with
  | some line =>
    refine Step.lawful_of_kept rfl ?_ (content_none s) (fun _ => rfl) ?_ rfl rfl (.inr rfl)
    · simp [step]
    · simp [step]
  | none =>
    obtain ⟨n, hnext, hcontent, hcomments⟩ := LineSource.exists_nextContent_eq s
    have hstep : step ⟨s, none⟩ .pop =
        ⟨⟨s, none⟩, .pop, .popped (LineSource.outcome s n), ⟨LineSource.after s (n + 1), none⟩⟩ := by
      simp only [step, respond, pop_of_nextContent hnext]
    rw [hstep]
    refine Step.lawful_of_passed (.inr rfl) rfl rfl rfl hcomments hcontent (content_none _)
      (fun _ => rfl) ?_ rfl ?_ (.inr rfl)
    · simp
    · rcases hlast : LineSource.outcome s n with cause | line?
      · rfl
      · rw [hlast] at hcontent
        rw [Event.content?_of_not_comment hcontent]
        cases line? <;> rfl

theorem lawful_clear : (p.step .clear).Lawful := by
  refine Step.lawful_of_kept rfl ?_ (content_none p.source) (fun _ => rfl) ?_ rfl ?_ (.inl rfl)
  · simp [step, Step.Looks]
  · simp [step]
  · simp [step, respond, clear, Step.released, Step.given, Step.dropped]

/-- Behind the back of the lookahead, a line is asked for and nothing else happens. -/
theorem lawful_next (hp : p.Content) : (p.step .next).Lawful := by
  have hsource : (p.step .next).after.source = LineSource.after p.source 1 := rfl
  have hanswers : (p.step .next).answers = [(LineSource.next p.source).1] := Step.answers_eq hsource
  have hlooks : ¬ (p.step .next).Looks := by simp [step, Step.Looks]
  refine ⟨?_, hp, fun h => absurd h hlooks, fun h => absurd h hlooks, ?_, ?_, ?_, ?_, .inl rfl⟩
  · rw [hanswers]
    exact hsource
  · simp [step]
  · simp [step]
  · rw [hanswers]
    rcases hnext : (LineSource.next p.source).1 with cause | line? <;>
      simp [step, respond, hnext, Event.error?, Reply.error?]
  · rw [Step.pulled, if_neg hlooks]
    simp [step, respond, Step.released, Step.given, Step.dropped]

/-- **Every step is lawful**, if a pending line is no comment before it. -/
theorem step_lawful (hp : p.Content) (request : Request) : (p.step request).Lawful := by
  cases request with
  | peek => exact lawful_peek hp
  | pop => exact lawful_pop
  | clear => exact lawful_clear
  | next => exact lawful_next hp

/-! ### Every run -/

/-- **Every step of every run is lawful.** -/
theorem steps_lawful (hp : p.Content) (requests : List Request) :
    ∀ st ∈ steps requests p, st.Lawful := by
  -- the pending line of a step is no comment, which is what the next step asks for
  induction requests generalizing p with
  | nil => simp [steps]
  | cons request requests ih =>
    have hstep := step_lawful hp request
    intro st hst
    rcases List.mem_cons.1 hst with rfl | hst
    · exact hstep
    · exact ih hstep.content st hst

/-- **No line is lost and none is invented**: what has been pulled has left the lookahead, in the
same order, but for the line that is pending. -/
theorem pulled_eq (hp : p.Content) (requests : List Request) :
    p.pending.toList ++ (steps requests p).flatMap Step.pulled =
      (steps requests p).flatMap Step.released ++ (final requests p).pending.toList := by
  -- a run may begin with a pending line; it has been pulled before
  induction requests generalizing p with
  | nil => simp [steps, final]
  | cons request requests ih =>
    have hfirst := (step_lawful hp request).lines
    have hrest := ih (step_lawful hp request).content
    calc p.pending.toList ++ (steps (request :: requests) p).flatMap Step.pulled
        = (p.pending.toList ++ (p.step request).pulled) ++
            (steps requests (p.step request).after).flatMap Step.pulled := by
          rw [steps, List.flatMap_cons, List.append_assoc]
      _ = (p.step request).released ++ ((p.step request).after.pending.toList ++
            (steps requests (p.step request).after).flatMap Step.pulled) := by
          rw [← List.append_assoc, ← hfirst]
          rfl
      _ = (p.step request).released ++
            ((steps requests (p.step request).after).flatMap Step.released ++
              (final requests (p.step request).after).pending.toList) := by rw [hrest]
      _ = (steps (request :: requests) p).flatMap Step.released ++
            (final (request :: requests) p).pending.toList := by
          rw [steps, List.flatMap_cons, List.append_assoc, final, final, List.foldl_cons]

/-! ### Without a record -/

/-- The source itself, and the pending line. -/
def plain (p : Peekable (Recorded σ)) : Peekable σ := ⟨p.source.source, p.pending⟩

/-- The step without a record. -/
def Step.plain (st : Step (Recorded σ)) : Step σ :=
  ⟨st.before.plain, st.request, st.reply, st.after.plain⟩

theorem peek_plain (p : Peekable (Recorded σ)) : p.plain.peek = (p.peek.1, p.peek.2.plain) := by
  obtain ⟨s, pending⟩ := p
  cases pending with
  | some line => rfl
  | none =>
    simp only [plain, peek, Recorded.nextContent_plain]
    rcases LineSource.nextContent s with ⟨cause | line?, s'⟩ <;> rfl

theorem pop_plain (p : Peekable (Recorded σ)) : p.plain.pop = (p.pop.1, p.pop.2.plain) := by
  obtain ⟨s, pending⟩ := p
  cases pending with
  | some line => rfl
  | none => simp only [plain, pop, Recorded.nextContent_plain]

theorem step_plain (p : Peekable (Recorded σ)) (request : Request) :
    p.plain.step request = (p.step request).plain := by
  cases request with
  | peek => simp only [step, respond, peek_plain, Step.plain]
  | pop => simp only [step, respond, pop_plain, Step.plain]
  | clear => rfl
  | next => rfl

/-- **A run is the same without a record**, but for the record. -/
theorem steps_plain (requests : List Request) (p : Peekable (Recorded σ)) :
    steps requests p.plain = (steps requests p).map Step.plain := by
  induction requests generalizing p with
  | nil => rfl
  | cons request requests ih =>
    have hafter : (p.step request).plain.after = (p.step request).after.plain := rfl
    rw [steps, steps, List.map_cons, step_plain, hafter, ih]

end SvmLight.Peekable
