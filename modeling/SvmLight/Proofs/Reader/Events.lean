import SvmLight.Reader
import SvmLight.Proofs.Decode
import SvmLight.Proofs.Peekable

/-!
# Readers and events

What a reader answers depends on its settings, its number of labels and the events of its source,
and on nothing else; in particular not on whether a line is pending. `Reader.Stands` says where a
reader **stands**: these three, and the events that come after rewinding. Each operation has one
fact about what it answers there and where the reader stands afterwards.

* `Settings.readEvent` — what reading an event comes to, without any reader.
* `Stands.hasNext_ok`, `Stands.hasNext_error` — asking for a line moves past errors only.
* `Stands.readPlaced` — reading moves past one event.
* `Stands.next?_end`, `Stands.next?_event` — so does the optional reading, but for the end.
* `Stands.after`, `Stands.outcome` — reading on and on, whatever comes.
-/

namespace SvmLight

/-- What reading an event comes to, and the number of labels known afterwards: a line is decoded,
an error is passed on, and the end is an error of its own. -/
def Settings.readEvent (s : Settings) (count : Option Nat) :
    Event → Outcome Error (Record × Place) × Option Nat
  | .ok none => (.error .endOfInput, count)
  | .error e => (.error (.io e), count)
  | .ok (some line) =>
    match s.decode count line.text with
    | .ok record => (.ok (record, line.place), s.countAfter count record)
    | .error e => (.error (.atLine line.place (.decoding e)), count)
    | .oversize => (.oversize, count)

theorem Settings.readEvent_ne_oversize {s : Settings} (hs : s.Fits) (count : Option Nat)
    (e : Event) : (s.readEvent count e).1 ≠ .oversize := by
  rcases e with cause | _ | line
  · simp [readEvent]
  · simp [readEvent]
  · cases hdecode : s.decode count line.text with
    | ok record => simp [readEvent, hdecode]
    | error cause => simp [readEvent, hdecode]
    | oversize => exact absurd hdecode (decode_ne_oversize hs _ _)

/-- A number of labels that is known stays. -/
theorem Settings.readEvent_known (s : Settings) (count : Nat) (e : Event) :
    (s.readEvent (some count) e).2 = some count := by
  rcases e with cause | _ | line
  · rfl
  · rfl
  · cases hdecode : s.decode (some count) line.text with
    | ok record =>
      simp only [readEvent, hdecode]
      exact countAfter_known _ _
    | error cause => simp only [readEvent, hdecode]
    | oversize => simp only [readEvent, hdecode]

/-- The number of labels that is known after the first events of a stream have been read. -/
def Settings.countAfterEvents (s : Settings) (count : Option Nat) (events : Nat → Event) :
    Nat → Option Nat
  | 0 => count
  | n + 1 => (s.readEvent (s.countAfterEvents count events n) (events n)).2

/-- A stream of events without its first one. -/
def later (events : Nat → Event) : Nat → Event := fun n => events (n + 1)

/-- A stream from its first event on. -/
theorem from_zero (events : Nat → Event) : (fun n => events (0 + n)) = events := by
  funext n
  rw [Nat.zero_add]

/-- A stream from some event on, without that event. -/
theorem later_from (events : Nat → Event) (p : Nat) :
    (later fun n => events (p + n)) = fun n => events (p + 1 + n) := by
  funext n
  rw [later, Nat.add_assoc, Nat.add_comm 1 n]

/-! ### What an outcome tells -/

/-- The record that was read. -/
def Outcome.record? : Outcome Error (Record × Place) → Option Record
  | .ok (record, _) => some record
  | _ => none

theorem Outcome.exists_of_record? {x : Outcome Error (Record × Place)} {record : Record}
    (h : x.record? = some record) : ∃ place, x = .ok (record, place) := by
  match x with
  | .ok (record', place) =>
    cases h
    exact ⟨place, rfl⟩

/-- The number of the line that could not be decoded. -/
def Outcome.malformed? : Outcome Error (Record × Place) → Option Nat
  | .error (.atLine place _) => some place.line
  | _ => none

namespace Reader

variable {σ : Type} [LineSource σ]

/-- The `n`-th event ahead of a reader. -/
def event (r : Reader σ) (n : Nat) : Event := r.input.event n

/-- Where a reader stands. -/
structure Stands (r : Reader σ) (s : Settings) (count : Option Nat) (ahead again : Nat → Event) :
    Prop where
  /-- how it reads lines -/
  settings : r.settings = s
  /-- the number of labels, if it is known -/
  labelCount : r.labelCount = count
  /-- the events that are still to come -/
  ahead : r.event = ahead
  /-- the events that come after rewinding -/
  again : r.rewind.event = again

variable {r : Reader σ} {s : Settings} {count : Option Nat} {ahead again : Nat → Event}

/-! ### Going somewhere -/

theorem stands_self (r : Reader σ) : r.Stands r.settings r.labelCount r.event r.rewind.event :=
  ⟨rfl, rfl, rfl, rfl⟩

theorem stands_start (s : Settings) (source : σ) :
    (start s source).Stands s s.numLabels (LineSource.event source)
      (LineSource.event (LineSource.rewind source)) := ⟨rfl, rfl, rfl, rfl⟩

theorem Stands.switchTo (h : r.Stands s count ahead again) (source : σ) :
    (r.switchTo source).Stands s count (LineSource.event source)
      (LineSource.event (LineSource.rewind source)) := ⟨h.settings, h.labelCount, rfl, rfl⟩

theorem Stands.rewind (h : r.Stands s count ahead again) : r.rewind.Stands s count again again := by
  refine ⟨h.settings, h.labelCount, h.again, ?_⟩
  have hinput : r.rewind.rewind.input = r.rewind.input :=
    congrArg (Peekable.mk · none) (LineSource.rewind_rewind r.input.source)
  calc r.rewind.rewind.event = r.rewind.rewind.input.event := rfl
    _ = r.rewind.input.event := by rw [hinput]
    _ = again := h.again

/-- Behind an end there are only ends. -/
theorem Stands.ahead_of_end (h : r.Stands s count ahead again) (he : ahead 0 = .ok none) :
    later ahead = ahead := by
  obtain ⟨-, -, rfl, -⟩ := h
  funext n
  exact (Peekable.event_of_end he (n + 1)).trans (Peekable.event_of_end he n).symm

/-! ### Asking for a line -/

/-- Asking finds a line, or the end, and moves past nothing. -/
theorem Stands.hasNext_ok (h : r.Stands s count ahead again) {line? : Option SourceLine}
    (he : ahead 0 = .ok line?) :
    r.hasNext.1 = .ok line?.isSome ∧ r.hasNext.2.Stands s count ahead again := by
  obtain ⟨rfl, rfl, rfl, rfl⟩ := h
  refine ⟨?_, rfl, rfl, funext (Peekable.event_peek_of_ok he), ?_⟩
  · exact r.input.peek_eq.trans (congrArg (Except.map Option.isSome) he)
  · exact congrArg Peekable.event (Peekable.rewind_peek r.input)

/-- Asking finds an error and moves past it. -/
theorem Stands.hasNext_error (h : r.Stands s count ahead again) {e : IoError}
    (he : ahead 0 = .error e) :
    r.hasNext.1 = .error e ∧ r.hasNext.2.Stands s count (later ahead) again := by
  obtain ⟨rfl, rfl, rfl, rfl⟩ := h
  refine ⟨?_, rfl, rfl, funext (Peekable.event_peek_of_error he), ?_⟩
  · exact r.input.peek_eq.trans (congrArg (Except.map Option.isSome) he)
  · exact congrArg Peekable.event (Peekable.rewind_peek r.input)

/-! ### Reading a record -/

/-- Reading is one step on the next event. -/
theorem readPlaced_eq (r : Reader σ) :
    r.readPlaced = ((r.settings.readEvent r.labelCount (r.event 0)).1,
      ⟨r.settings, r.input.pop.2, (r.settings.readEvent r.labelCount (r.event 0)).2⟩) := by
  have hpop : r.input.pop = (r.event 0, r.input.pop.2) := Prod.ext r.input.pop_eq rfl
  rw [readPlaced, hpop]
  rcases r.event 0 with e | _ | line
  · rfl
  · rfl
  · simp only [Settings.readEvent]
    cases r.settings.decode r.labelCount line.text <;> rfl

theorem Stands.readPlaced (h : r.Stands s count ahead again) :
    r.readPlaced.1 = (s.readEvent count (ahead 0)).1 ∧
      r.readPlaced.2.Stands s (s.readEvent count (ahead 0)).2 (later ahead) again := by
  obtain ⟨rfl, rfl, rfl, rfl⟩ := h
  rw [readPlaced_eq]
  refine ⟨rfl, rfl, rfl, funext r.input.event_pop, ?_⟩
  exact congrArg Peekable.event (Peekable.rewind_pop r.input)

/-- Only an input error is read as one. -/
theorem readEvent_ne_io {s : Settings} {count : Option Nat} {event : Event}
    (h : ∀ e, event ≠ .error e) (e : IoError) :
    (s.readEvent count event).1 ≠ .error (.io e) := by
  rcases event with cause | _ | line
  · exact absurd rfl (h cause)
  · simp [Settings.readEvent]
  · cases hdecode : s.decode count line.text with
    | ok record => simp [Settings.readEvent, hdecode]
    | error cause => simp [Settings.readEvent, hdecode]
    | oversize => simp [Settings.readEvent, hdecode]

/-! ### Reading a record, if there is one -/

/-- The optional reading asks first, and what it does then depends on the answer. -/
theorem next?_eq (r : Reader σ) :
    r.next? =
      match r.hasNext.1 with
      | .ok true => (some r.hasNext.2.read.1, r.hasNext.2.read.2)
      | .ok false => (none, r.hasNext.2)
      | .error e => (some (.error (.io e)), r.hasNext.2) := by
  rw [next?]
  rcases r.hasNext with ⟨e | _ | _, r'⟩
  · rfl
  · rfl
  · rfl

theorem Stands.next?_end (h : r.Stands s count ahead again) (he : ahead 0 = .ok none) :
    r.next?.1 = none ∧ r.next?.2.Stands s count ahead again := by
  obtain ⟨hask, hstands⟩ := h.hasNext_ok he
  rw [next?_eq, hask]
  exact ⟨rfl, hstands⟩

/-- A line is asked for and then read; an error is found by asking already. -/
theorem Stands.next?_event (h : r.Stands s count ahead again) (he : ahead 0 ≠ .ok none) :
    r.next?.1 = some (Prod.fst <$> (s.readEvent count (ahead 0)).1) ∧
      r.next?.2.Stands s (s.readEvent count (ahead 0)).2 (later ahead) again := by
  rcases hevent : ahead 0 with e | _ | line
  · -- asking has met the error already, so nothing is read behind it
    obtain ⟨hask, hstands⟩ := h.hasNext_error hevent
    rw [next?_eq, hask]
    exact ⟨rfl, hstands⟩
  · exact absurd hevent he
  · obtain ⟨hask, hstands⟩ := h.hasNext_ok hevent
    obtain ⟨hread, hstands'⟩ := hstands.readPlaced
    rw [next?_eq, hask, ← hevent]
    exact ⟨congrArg (fun x => some (Prod.fst <$> x)) hread, hstands'⟩

/-- Reading all records is reading one record after another. -/
theorem readAllOnto_eq (done : List Record) (r : Reader σ) :
    r.readAllOnto done =
      match r.next?.1 with
      | none => (.ok done.reverse, r.next?.2)
      | some (.ok record) => r.next?.2.readAllOnto (record :: done)
      | some (.error e) => (.error e, r.next?.2)
      | some .oversize => (.oversize, r.next?.2) := by
  rcases hnext : r.next? with ⟨_ | record | e | _, r'⟩
  · rw [readAllOnto, hnext]
  · rw [readAllOnto, hnext]
  · rw [readAllOnto, hnext]
  · rw [readAllOnto, hnext]

/-! ### Reading on and on -/

/-- The reader after so many records have been asked for. -/
def after (r : Reader σ) : Nat → Reader σ
  | 0 => r
  | n + 1 => (r.after n).readPlaced.2

/-- What the `n`-th request for a record comes to. -/
def outcome (r : Reader σ) (n : Nat) : Outcome Error (Record × Place) := (r.after n).readPlaced.1

theorem Stands.after (h : r.Stands s count ahead again) (n : Nat) :
    (r.after n).Stands s (s.countAfterEvents count ahead n) (fun k => ahead (n + k)) again := by
  induction n with
  | zero =>
    rw [from_zero]
    exact h
  | succ n ih =>
    obtain ⟨-, hstands⟩ := ih.readPlaced
    rw [later_from] at hstands
    exact hstands

/-- The requests meet the events in turn. -/
theorem Stands.outcome (h : r.Stands s count ahead again) (n : Nat) :
    r.outcome n = (s.readEvent (s.countAfterEvents count ahead n) (ahead n)).1 :=
  (h.after n).readPlaced.1

theorem settings_after (r : Reader σ) (n : Nat) : (r.after n).settings = r.settings :=
  ((stands_self r).after n).settings

theorem after_add (r : Reader σ) (m n : Nat) : r.after (m + n) = (r.after m).after n := by
  induction n with
  | zero => rfl
  | succ n ih =>
    rw [← Nat.add_assoc, Reader.after, ih]
    rfl

theorem outcome_after (r : Reader σ) (m n : Nat) :
    (r.after m).outcome n = r.outcome (m + n) := by
  rw [Reader.outcome, Reader.outcome, after_add]

end Reader

end SvmLight
