import Mathlib
import SvmLight.Proofs.Lookahead
import SvmLight.Proofs.Reader.Cursor

/-!
# How far a reader has read ahead

A reader has read its source up to the line that it has given last, or up to the next one, which is
pending then. The cursor, which has no lookahead, says which lines have been given.

* `Peekable.Holds` — the lines that a source has given, and which of them have been handed on.
* `Simulation` — a relation of readers and cursors that asking, reading and rewinding preserve;
  `Simulation.run` draws the consequence for every sequence of calls.
* `Reader.OneAhead` — one line at most has been read that the cursor has not passed;
  `Reader.oneAhead_run` says so of every sequence of calls.
* `Reader.lookahead_conserves` — **no line is lost in the lookahead**, be it in a reader or not.
-/

namespace SvmLight

/-- The line of an answer, if there is one. -/
def Event.line? : Event → Option SourceLine
  | .ok line? => line?
  | .error _ => none

theorem Event.content?_eq_line? {e : Event} (h : e.isComment = false) : e.content? = e.line? := by
  rcases e with cause | line?
  · rfl
  · exact content?_of_not_comment h

/-- The lines among the first events of a source. -/
def LineSource.linesBefore {σ : Type} [LineSource σ] (s : σ) (n : Nat) : List SourceLine :=
  (List.range n).filterMap fun k => Event.line? (event s k)

namespace LineSource

variable {σ : Type} [LineSource σ] {s : σ} {n : Nat}

theorem linesBefore_succ :
    linesBefore s (n + 1) = linesBefore s n ++ (Event.line? (event s n)).toList := by
  rw [linesBefore, List.range_succ, List.filterMap_append, linesBefore]
  rfl

end LineSource

namespace Peekable

variable {σ : Type} [LineSource σ] {p : Peekable σ} {origin : σ} {lines : List SourceLine}

/-- Since the source was at its origin, these lines have been handed on, and none but the pending one
has been read behind them. -/
def Holds (p : Peekable σ) (origin : σ) (lines : List SourceLine) : Prop :=
  ∃ n, p.source = LineSource.after origin n ∧
    (LineSource.asked origin n).filterMap Event.content? = lines ++ p.pending.toList

theorem holds_start (s : σ) : Holds ⟨s, none⟩ s [] := ⟨0, rfl, rfl⟩

/-- What the source is asked for comes behind the lines that it has given. -/
theorem Holds.pull {s s' : σ} {e : Event} (h : Holds ⟨s, none⟩ origin lines)
    (hnext : LineSource.nextContent s = (e, s')) :
    ∃ n, s' = LineSource.after origin n ∧
      (LineSource.asked origin n).filterMap Event.content? = lines ++ e.line?.toList := by
  obtain ⟨n, hsource, hlines⟩ := h
  obtain ⟨k, heq, hcontent, hcomments⟩ := LineSource.exists_nextContent_eq s
  obtain ⟨rfl, rfl⟩ := Prod.mk.inj (hnext.symm.trans heq)
  dsimp only at hsource
  refine ⟨n + (k + 1), ?_, ?_⟩
  · rw [hsource, LineSource.after_after]
  · rw [LineSource.asked_add, List.filterMap_append, hlines, ← hsource, LineSource.asked_succ,
      Event.filterMap_comments (fun _ => Event.content?_of_comment) hcomments,
      Event.content?_eq_line? hcontent]
    simp

/-- Popping hands the next line on. -/
theorem Holds.pop (h : p.Holds origin lines) :
    p.pop.2.Holds origin (lines ++ (Event.line? (p.event 0)).toList) := by
  obtain ⟨s, pending⟩ := p
  cases pending with
  | some line =>
    obtain ⟨n, hsource, hlines⟩ := h
    exact ⟨n, hsource, hlines.trans (List.append_nil _).symm⟩
  | none =>
    obtain ⟨n, hsource, hlines⟩ := h.pull (Prod.ext (LineSource.event_zero s).symm rfl)
    exact ⟨n, hsource, hlines.trans (List.append_nil _).symm⟩

/-- Peeking hands no line on. -/
theorem Holds.peek (h : p.Holds origin lines) : p.peek.2.Holds origin lines := by
  obtain ⟨s, pending⟩ := p
  cases pending with
  | some line => exact h
  | none =>
    have hpull := h.pull (Prod.ext (LineSource.event_zero s).symm rfl)
    rcases hevent : LineSource.event s 0 with cause | line?
    · rw [peek_of_error hevent]
      rw [hevent] at hpull
      exact hpull
    · rw [peek_of_ok hevent]
      rw [hevent] at hpull
      exact hpull

/-- Rewinding begins anew. -/
theorem Holds.rewind (h : p.Holds origin lines) :
    p.rewind.Holds (LineSource.rewind origin) [] := by
  obtain ⟨n, hsource, -⟩ := h
  have hrewind : LineSource.rewind p.source = LineSource.rewind origin := by
    rw [hsource]
    exact (LineSource.reached_after origin n).rewind_eq
  rw [Peekable.rewind, hrewind]
  exact holds_start _

end Peekable

/-! ## Simulations -/

/-- A relation of readers and cursors that makes them answer alike, and that asking, reading and
rewinding preserve. -/
structure Simulation {σ : Type} [LineSource σ] (R : Reader σ → Cursor σ → Prop) : Prop where
  /-- they have the same before them -/
  tracks : ∀ {r c}, R r c → Tracks r c
  /-- asking for a line -/
  hasNext : ∀ {r c}, R r c → R r.hasNext.2 c.hasNext.2
  /-- reading a record -/
  readPlaced : ∀ {r c}, R r c → R r.readPlaced.2 c.readPlaced.2
  /-- rewinding -/
  rewind : ∀ {r c}, R r c → R r.rewind c.rewind

namespace Simulation

variable {σ : Type} [LineSource σ] {R : Reader σ → Cursor σ → Prop} {r : Reader σ} {c : Cursor σ}

/-- Reading a record, if there is one, is asking and then reading. -/
theorem next? (hR : Simulation R) (h : R r c) : R r.next?.2 c.next?.2 := by
  have hask := (hR.tracks h).hasNext.1
  have hstep := hR.hasNext h
  rw [Reader.next?_eq, hask]
  rcases hevent : c.event with e | _ | line
  · -- asking has passed the error already, and the cursor passes it by reading
    simp only [Cursor.hasNext, Cursor.next?, Cursor.read, Cursor.readPlaced, hevent] at hstep ⊢
    exact hstep
  · simp only [Cursor.hasNext, Cursor.next?, hevent] at hstep ⊢
    exact hstep
  · simp only [Cursor.hasNext, Cursor.next?, hevent] at hstep ⊢
    exact hR.readPlaced hstep

/-- So the same records are collected. -/
theorem lockstep (hR : Simulation R) : Lockstep id R Reader.next? Cursor.next? :=
  lockstep_id fun _ _ h => ⟨(hR.tracks h).next?.1, hR.next? h⟩

theorem readAll (hR : Simulation R) (h : R r c) : R r.readAll.2 c.readAll.2 := by
  obtain ⟨room, hstop, hread⟩ := r.exists_readAll_eq
  obtain ⟨room', hstop', hread'⟩ := c.exists_readAll_eq
  rw [hread, hread']
  exact (hR.lockstep.agree_all h hstop hstop').reader

theorem readBatch (hR : Simulation R) (h : R r c) (size : Nat) :
    R (r.readBatch size).2 (c.readBatch size).2 := by
  have hsettings : r.settings = c.settings := (hR.tracks h).settings
  by_cases hfits : size * c.settings.numFeatures < 2 ^ 60
  · rw [Reader.readBatch_of_fits (hsettings ▸ hfits), Cursor.readBatch, if_pos hfits,
      Cursor.gather_eq]
    exact (hR.lockstep.agree h size).reader
  · rw [Reader.readBatch_of_not_fits (hsettings ▸ hfits), Cursor.readBatch, if_neg hfits]
    exact h

/-- **Every operation preserves the relation.** -/
theorem perform (hR : Simulation R) (h : R r c) (operation : Operation) :
    R (r.perform operation).2 (c.perform operation).2 := by
  cases operation with
  | hasNext => exact hR.hasNext h
  | readPlaced => exact hR.readPlaced h
  | read => exact hR.readPlaced h
  | next => exact hR.next? h
  | readAll => exact hR.readAll h
  | readBatch size => exact hR.readBatch h size
  | rewind => exact hR.rewind h

/-- So does every sequence of calls, if switching preserves it, too. -/
theorem run (hR : Simulation R)
    (hswitch : ∀ {r c}, R r c → ∀ source, R (r.switchTo source) (c.switchTo source)) (h : R r c)
    (calls : List (Call σ)) : R (r.run calls).2 (c.run calls).2 := by
  induction calls generalizing r c with
  | nil => exact h
  | cons call calls ih =>
    cases call with
    | stay operation => exact ih (hR.perform h operation)
    | switchTo source => exact ih (hswitch h source)

end Simulation

/-! ## The pending line -/

namespace Cursor

variable {σ : Type} [LineSource σ] {c : Cursor σ}

/-- The lines that have been passed, counted from the start of the source. -/
def lines (c : Cursor σ) : List SourceLine := LineSource.linesBefore c.source c.position

theorem lines_pass : c.pass.lines = c.lines ++ (Event.line? c.event).toList :=
  LineSource.linesBefore_succ

theorem hasNext_lines : c.hasNext.2.source = c.source ∧ c.hasNext.2.lines = c.lines := by
  rw [hasNext]
  rcases hevent : c.event with e | _ | line
  · -- an error is passed, but it is no line
    refine ⟨rfl, lines_pass.trans ?_⟩
    rw [hevent]
    exact List.append_nil _
  · exact ⟨rfl, rfl⟩
  · exact ⟨rfl, rfl⟩

theorem readPlaced_lines : c.readPlaced.2.source = c.source ∧
    c.readPlaced.2.lines = c.lines ++ (Event.line? c.event).toList := by
  by_cases hevent : c.event = .ok none
  · rw [readPlaced_of_end hevent, hevent]
    exact ⟨rfl, (List.append_nil _).symm⟩
  · rw [readPlaced_of_ne_end hevent]
    exact ⟨rfl, lines_pass (c := c)⟩

end Cursor

namespace Reader

variable {σ : Type} [LineSource σ] {r : Reader σ} {c : Cursor σ}

/-- What has been read is what the cursor has passed, and the pending line. -/
structure OneAhead (r : Reader σ) (c : Cursor σ) : Prop where
  /-- they have the same before them -/
  tracks : Tracks r c
  /-- all lines but the pending one have been passed -/
  holds : r.input.Holds c.source c.lines

/-- **A reader is one line ahead of the cursor**, if it is ahead at all. -/
theorem simulation_oneAhead : Simulation (OneAhead (σ := σ)) where
  tracks h := h.tracks
  hasNext {r c} h := by
    obtain ⟨hsource, hlines⟩ := c.hasNext_lines
    refine ⟨h.tracks.hasNext.2, ?_⟩
    rw [hsource, hlines]
    exact h.holds.peek
  readPlaced {r c} h := by
    obtain ⟨hsource, hlines⟩ := c.readPlaced_lines
    have hevent : r.input.event 0 = c.event := congrFun h.tracks.ahead 0
    refine ⟨h.tracks.readPlaced.2, ?_⟩
    rw [hsource, hlines, ← hevent, readPlaced_eq]
    exact h.holds.pop
  rewind h := ⟨h.tracks.rewind, h.holds.rewind⟩

theorem oneAhead_start (s : Settings) (source : σ) : (start s source).OneAhead (.start s source) :=
  ⟨.start s source, Peekable.holds_start source⟩

theorem OneAhead.switchTo (h : r.OneAhead c) (source : σ) :
    (r.switchTo source).OneAhead (c.switchTo source) :=
  ⟨h.tracks.switchTo source, Peekable.holds_start source⟩

/-- So it is after every sequence of calls. -/
theorem oneAhead_run (s : Settings) (source : σ) (calls : List (Call σ)) :
    ((start s source).run calls).2.OneAhead ((Cursor.start s source).run calls).2 :=
  simulation_oneAhead.run (fun h => h.switchTo) (oneAhead_start s source) calls

/-- Behind the pending line the source goes on. -/
theorem OneAhead.event_source (h : r.OneAhead c) (k : Nat) :
    LineSource.event r.input.source k =
      LineSource.event c.source (c.position + r.input.pending.toList.length + k) := by
  obtain ⟨settings, ⟨source, pending⟩, labelCount⟩ := r
  have hahead := h.tracks.ahead
  cases pending with
  | none => exact congrFun hahead k
  | some line =>
    rw [Nat.add_assoc]
    refine (congrFun hahead (k + 1)).trans ?_
    exact congrArg (fun n => LineSource.event c.source (c.position + n)) (Nat.add_comm k 1)

/-- **The lookahead loses nothing and asks for nothing in advance.** Whatever a peekable source is
asked, and even if lines are taken from its source between, each step is lawful, and the lines that
are pulled for the lookahead are those that leave it, and the pending one. A reader answers as the
cursor does; its source has given the lines that the cursor has passed, and the pending one, and
goes on behind these. -/
theorem lookahead_conserves :
    (∀ (σ : Type) [LineSource σ] (source : σ) (requests : List Peekable.Request),
      let p : Peekable (Recorded σ) := ⟨⟨source, []⟩, none⟩
      let steps := Peekable.steps requests p
      (∀ st ∈ steps, st.Lawful) ∧
        steps.flatMap Peekable.Step.pulled =
          steps.flatMap Peekable.Step.released ++ (Peekable.final requests p).pending.toList ∧
        Peekable.steps requests ⟨source, none⟩ = steps.map Peekable.Step.plain) ∧
      ∀ (σ : Type) [LineSource σ] (s : Settings) (source : Recorded σ)
        (calls : List (Call (Recorded σ))),
        let r := ((start s source).run calls).2
        let c := ((Cursor.start s source).run calls).2
        ((start s source).run calls).1 = ((Cursor.start s source).run calls).1 ∧
          ∃ answers, r.input.source.answers = c.source.answers ++ answers ∧
            answers.filterMap Event.content? = c.lines ++ r.input.pending.toList ∧
            r.input.source = LineSource.after c.source answers.length ∧
            ∀ k, LineSource.event r.input.source k =
              LineSource.event c.source (c.position + r.input.pending.toList.length + k) := by
  constructor
  · intro σ _ source requests p steps
    have hp : p.Content := Peekable.content_none _
    exact ⟨Peekable.steps_lawful hp requests, Peekable.pulled_eq hp requests,
      Peekable.steps_plain requests p⟩
  · intro σ _ s source calls r c
    have hahead : r.OneAhead c := oneAhead_run s source calls
    obtain ⟨n, hsource, hlines⟩ := hahead.holds
    refine ⟨(Tracks.start s source).run calls, LineSource.asked c.source n, ?_, hlines, ?_,
      hahead.event_source⟩
    · rw [hsource, Recorded.answers_after]
    · rw [hsource, LineSource.length_asked]

/-- There is an error between two comments, so the first look ends there. The line behind the
pending one is taken behind its back, and the last line is dropped. -/
theorem lookahead_conserves_error :
    let line : Nat → Text → Event := fun n text => .ok (some ⟨text, ⟨n, none⟩⟩)
    let source : Scripted :=
      { script := [line 1 ['#'], .error .isADirectory, line 2 ['#'], line 3 ['1'], line 4 ['2'],
          line 5 ['3']] }
    let p : Peekable (Recorded Scripted) := ⟨⟨source, []⟩, none⟩
    let steps := Peekable.steps [.peek, .peek, .next, .pop, .peek, .clear, .pop] p
    (∀ st ∈ steps, st.Lawful) ∧
      steps.flatMap Peekable.Step.pulled = [⟨['1'], ⟨3, none⟩⟩, ⟨['3'], ⟨5, none⟩⟩] ∧
      steps.flatMap Peekable.Step.released = [⟨['1'], ⟨3, none⟩⟩, ⟨['3'], ⟨5, none⟩⟩] := by
  intro line source p steps
  obtain ⟨hlawful, hlines, -⟩ :=
    lookahead_conserves.1 Scripted source [.peek, .peek, .next, .pop, .peek, .clear, .pop]
  have hpulled : steps.flatMap Peekable.Step.pulled =
      [⟨['1'], ⟨3, none⟩⟩, ⟨['3'], ⟨5, none⟩⟩] := by
    cbv
  have hpending : (Peekable.final [.peek, .peek, .next, .pop, .peek, .clear, .pop] p).pending =
      none := by
    cbv
  refine ⟨hlawful, hpulled, ?_⟩
  rw [hpending] at hlines
  rw [← hpulled]
  exact (hlines.trans (List.append_nil _)).symm

end Reader

end SvmLight
