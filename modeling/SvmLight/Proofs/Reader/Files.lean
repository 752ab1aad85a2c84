import SvmLight.Proofs.Reader.Operation
import SvmLight.Proofs.Source.Files

/-!
# Readers over a file and over its text

A file that holds a text is read as the text is read from memory. Records, batches, numbers of
labels and causes of errors are the same; an error or a record has the same line number, and only
its place has the path of the file.

* `Answer.inFile` — what is answered over a file, by what is answered over lines in memory.
* `Alongside` — readers with the same settings, the same number of labels and events that are alike.
* `Alongside.perform` — every operation keeps them alongside.
* `run_file` — the theorem about whole runs, and its counterpart for files that are not text.
-/

namespace SvmLight

/-! ### Places in a file -/

/-- The same line number, in a file. -/
def Place.inFile (path : String) (p : Place) : Place := ⟨p.line, some path⟩

/-- The same error, in a line of a file. -/
def Error.inFile (path : String) : Error → Error
  | .atLine place cause => .atLine (place.inFile path) cause
  | e => e

/-- The same outcome, except that an error is in a line of a file. -/
def Outcome.inFile {α : Type} (path : String) (x : Outcome Error α) : Outcome Error α :=
  x.mapError (Error.inFile path)

/-- The same answer, in a file. -/
def Answer.inFile (path : String) : Answer → Answer
  | .hasNext answer => .hasNext answer
  | .placed x => .placed ((fun placed => (placed.1, placed.2.inFile path)) <$> x.inFile path)
  | .record x => .record (x.inFile path)
  | .next x? => .next (x?.map (Outcome.inFile path))
  | .records x => .records (x.inFile path)
  | .batch x => .batch (x.inFile path)
  | .done => .done

@[simp] theorem Outcome.inFile_map {α β : Type} (path : String) (f : α → β)
    (x : Outcome Error α) : (f <$> x).inFile path = f <$> x.inFile path := by
  cases x <;> rfl

/-- Alike events come to the same, in the file and in memory. -/
theorem Settings.readEvent_alike {path : String} {e e' : Event} (h : Event.Alike path e e')
    (s : Settings) (count : Option Nat) :
    (s.readEvent count e).1 =
        (fun placed => (placed.1, placed.2.inFile path)) <$> (s.readEvent count e').1.inFile path ∧
      (s.readEvent count e).2 = (s.readEvent count e').2 := by
  cases h with
  | «end» => exact ⟨rfl, rfl⟩
  | @line line line' number alike =>
    simp only [readEvent, decode_congr alike.tokens]
    cases s.decode count line' with
    | ok record => exact ⟨rfl, rfl⟩
    | error e => exact ⟨rfl, rfl⟩
    | oversize => exact ⟨rfl, rfl⟩

namespace Reader

section Alongside

variable {σ τ : Type} [LineSource σ] [LineSource τ] {path : String} {r : Reader σ} {r' : Reader τ}

/-- Readers that have alike events before them: those of a file and those of its text. -/
structure Alongside (path : String) (r : Reader σ) (r' : Reader τ) : Prop where
  /-- they read lines in the same way -/
  settings : r.settings = r'.settings
  /-- they know the same number of labels -/
  labelCount : r.labelCount = r'.labelCount
  /-- what is to come is alike -/
  ahead : ∀ n, Event.Alike path (r.event n) (r'.event n)
  /-- and so is what comes after rewinding -/
  again : ∀ n, Event.Alike path (r.rewind.event n) (r'.rewind.event n)

/-- Readers that stand at alike events. -/
theorem alongside_of_stands {s : Settings} {count : Option Nat}
    {ahead ahead' again again' : Nat → Event}
    (h : r.Stands s count ahead again) (h' : r'.Stands s count ahead' again')
    (hahead : ∀ n, Event.Alike path (ahead n) (ahead' n))
    (hagain : ∀ n, Event.Alike path (again n) (again' n)) : Alongside path r r' := by
  obtain ⟨rfl, rfl, rfl, rfl⟩ := h
  obtain ⟨hsettings, hcount, rfl, rfl⟩ := h'
  exact ⟨hsettings.symm, hcount.symm, hahead, hagain⟩

theorem Alongside.rewind (h : Alongside path r r') : Alongside path r.rewind r'.rewind := by
  have hstands := (stands_self r).rewind
  have hstands' := (stands_self r').rewind
  rw [h.settings, h.labelCount] at hstands
  exact alongside_of_stands hstands hstands' h.again h.again

/-- Alike events are lines or ends, and one is a line if the other is. -/
theorem Alongside.hasNext (h : Alongside path r r') :
    r.hasNext.1 = r'.hasNext.1 ∧ Alongside path r.hasNext.2 r'.hasNext.2 := by
  -- events that are alike are no errors, so asking moves past nothing
  obtain ⟨line?, line?', he, he', hsome⟩ : ∃ line? line?', r.event 0 = .ok line? ∧
      r'.event 0 = .ok line?' ∧ line?.isSome = line?'.isSome := by
    have halike := h.ahead 0
    generalize r.event 0 = e at halike
    generalize r'.event 0 = e' at halike
    cases halike with
    | line number alike => exact ⟨_, _, rfl, rfl, rfl⟩
    | «end» => exact ⟨_, _, rfl, rfl, rfl⟩
  obtain ⟨hask, hstands⟩ := (stands_self r).hasNext_ok he
  obtain ⟨hask', hstands'⟩ := (stands_self r').hasNext_ok he'
  rw [h.settings, h.labelCount] at hstands
  exact ⟨by rw [hask, hask', hsome], alongside_of_stands hstands hstands' h.ahead h.again⟩

theorem Alongside.readPlaced (h : Alongside path r r') :
    r.readPlaced.1 =
        (fun placed => (placed.1, placed.2.inFile path)) <$> r'.readPlaced.1.inFile path ∧
      Alongside path r.readPlaced.2 r'.readPlaced.2 := by
  obtain ⟨hread, hstands⟩ := (stands_self r).readPlaced
  obtain ⟨hread', hstands'⟩ := (stands_self r').readPlaced
  obtain ⟨houtcome, hcount⟩ := Settings.readEvent_alike (h.ahead 0) r'.settings r'.labelCount
  rw [h.settings, h.labelCount] at hread hstands
  rw [hcount] at hstands
  refine ⟨by rw [hread, houtcome, hread'], ?_⟩
  exact alongside_of_stands hstands hstands' (fun n => h.ahead (n + 1)) h.again

theorem Alongside.read (h : Alongside path r r') :
    r.read.1 = r'.read.1.inFile path ∧ Alongside path r.read.2 r'.read.2 := by
  obtain ⟨hread, hnext⟩ := h.readPlaced
  refine ⟨?_, hnext⟩
  rw [Reader.read, Reader.read, hread]
  cases r'.readPlaced.1 with
  | ok placed => rfl
  | error e => rfl
  | oversize => rfl

theorem Alongside.next? (h : Alongside path r r') :
    r.next?.1 = r'.next?.1.map (Outcome.inFile path) ∧ Alongside path r.next?.2 r'.next?.2 := by
  obtain ⟨hask, hnext⟩ := h.hasNext
  rw [next?_eq, next?_eq, hask]
  rcases r'.hasNext.1 with e | _ | _
  · exact ⟨rfl, hnext⟩
  · exact ⟨rfl, hnext⟩
  · obtain ⟨hread, hrest⟩ := hnext.read
    exact ⟨congrArg some hread, hrest⟩

/-- So they collect the same records. -/
theorem lockstep_alongside (path : String) :
    Lockstep (Error.inFile path) (Alongside (σ := σ) (τ := τ) path) next? next? :=
  fun _ _ h => h.next?

theorem Alongside.readAll (h : Alongside path r r') :
    r.readAll.1 = r'.readAll.1.inFile path ∧ Alongside path r.readAll.2 r'.readAll.2 := by
  obtain ⟨room, hstop, hread⟩ := r.exists_readAll_eq
  obtain ⟨room', hstop', hread'⟩ := r'.exists_readAll_eq
  have hagree := (lockstep_alongside path).agree_all h hstop hstop'
  rw [hread, hread']
  exact ⟨hagree.outcome, hagree.reader⟩

theorem Alongside.readBatch (h : Alongside path r r') (size : Nat) :
    (r.readBatch size).1 = (r'.readBatch size).1.inFile path ∧
      Alongside path (r.readBatch size).2 (r'.readBatch size).2 := by
  by_cases hfits : size * r'.settings.numFeatures < 2 ^ 60
  · have hagree := (lockstep_alongside path).agree h size
    rw [readBatch_of_fits (h.settings ▸ hfits), readBatch_of_fits hfits, h.settings, collect,
      hagree.outcome]
    exact ⟨(Outcome.inFile_map _ _ _).symm, hagree.reader⟩
  · rw [readBatch_of_not_fits (h.settings ▸ hfits), readBatch_of_not_fits hfits]
    exact ⟨rfl, h⟩

/-- **Every operation keeps readers alongside**, and its answers differ in places only. -/
theorem Alongside.perform (h : Alongside path r r') (operation : Operation) :
    (r.perform operation).1 = (r'.perform operation).1.inFile path ∧
      Alongside path (r.perform operation).2 (r'.perform operation).2 := by
  cases operation with
  | hasNext => exact ⟨congrArg Answer.hasNext h.hasNext.1, h.hasNext.2⟩
  | readPlaced => exact ⟨congrArg Answer.placed h.readPlaced.1, h.readPlaced.2⟩
  | read => exact ⟨congrArg Answer.record h.read.1, h.read.2⟩
  | next => exact ⟨congrArg Answer.next h.next?.1, h.next?.2⟩
  | readAll => exact ⟨congrArg Answer.records h.readAll.1, h.readAll.2⟩
  | readBatch size => exact ⟨congrArg Answer.batch (h.readBatch size).1, (h.readBatch size).2⟩
  | rewind => exact ⟨rfl, h.rewind⟩

/-- So does every sequence of operations. -/
theorem Alongside.run (h : Alongside path r r') (operations : List Operation) :
    (r.run (operations.map .stay)).1 =
      (r'.run (operations.map .stay)).1.map fun answer => (answer.1.inFile path, answer.2) := by
  induction operations generalizing r r' with
  | nil => rfl
  | cons operation operations ih =>
    obtain ⟨hans, hnext⟩ := h.perform operation
    simp only [List.map_cons, Reader.run, call, hans, hnext.labelCount, ih hnext]

end Alongside

/-! ### No input errors -/

/-- What is to come, and what comes after rewinding, is lines and then the end. -/
structure ErrorFree {σ : Type} [LineSource σ] (s : Settings) (r : Reader σ) : Prop where
  /-- how lines are read -/
  settings : r.settings = s
  /-- what is to come -/
  ahead : ∀ n e, r.event n ≠ .error e
  /-- what comes after rewinding -/
  again : ∀ n e, r.rewind.event n ≠ .error e

/-- Where the source has no error, no answer is an input error. -/
theorem invariant_errorFree {σ : Type} [LineSource σ] {s : Settings} (hs : s.Fits) :
    Invariant s (ErrorFree s : Reader σ → Prop)
      (fun x => x ≠ .oversize ∧ ∀ e, x ≠ .error (.io e)) where
  settings r h := h.settings
  ok := by simp
  hasNext r h := by
    cases hevent : r.event 0 with
    | error e => exact absurd hevent (h.ahead 0 e)
    | ok line? =>
      obtain ⟨hask, hstands⟩ := (stands_self r).hasNext_ok hevent
      rw [hask]
      refine ⟨by simp [Answer.outcome], h.settings, ?_, ?_⟩
      · rw [hstands.ahead]
        exact h.ahead
      · rw [hstands.again]
        exact h.again
  readPlaced r h := by
    obtain ⟨hread, hstands⟩ := (stands_self r).readPlaced
    have hfits : r.settings.Fits := h.settings ▸ hs
    refine ⟨⟨?_, ?_⟩, hstands.settings.trans h.settings, ?_, ?_⟩
    · rw [hread]
      exact Outcome.void_ne_oversize (Settings.readEvent_ne_oversize hfits _ _)
    · intro e
      rw [hread]
      exact Outcome.void_ne_error (readEvent_ne_io (h.ahead 0) e)
    · rw [hstands.ahead]
      exact fun n => h.ahead (n + 1)
    · rw [hstands.again]
      exact h.again
  rewind r h := by
    have hstands := (stands_self r).rewind
    refine ⟨h.settings, h.again, ?_⟩
    rw [hstands.again]
    exact h.again

/-! ### Whole runs -/

/-- New readers over a file and over its text. -/
theorem alongside_start (s : Settings) {files : FileSystem} {path : String} {t : Text}
    (hopened : files.opened path = .ok ⟨Utf8.encode t, none⟩) :
    Alongside path (start s (FileLines.ofPaths files [path])) (start s (MemoryLines.ofText t)) :=
  ⟨rfl, rfl, FileLines.event_alike hopened, FileLines.event_alike hopened⟩

theorem errorFree_start (s : Settings) {files : FileSystem} {path : String} {t : Text}
    (hopened : files.opened path = .ok ⟨Utf8.encode t, none⟩) :
    ErrorFree s (start s (FileLines.ofPaths files [path])) := by
  have hfree : ∀ n e, LineSource.event (FileLines.ofPaths files [path]) n ≠ .error e := by
    intro n e
    exact (FileLines.event_alike hopened n).ne_error e
  exact ⟨rfl, hfree, hfree⟩

/-- **A file and its text are read alike.** Let a file be read to its end. If its octets are those of
a text, then every sequence of operations has the same answers over the file and over the text in memory, up to the
path in places, and the same numbers of labels; and no answer is an input error. If they are the
octets of no text, then reading on meets an input error. -/
theorem run_file {s : Settings} (hs : s.Fits) {files : FileSystem} {path : String}
    {octets : List UInt8} (hopened : files.opened path = .ok ⟨octets, none⟩) :
    let file := start s (FileLines.ofPaths files [path])
    (∀ t, octets = Utf8.encode t → ∀ operations : List Operation,
      (∀ operation ∈ operations, operation.Fits s) →
        (file.run (operations.map .stay)).1 =
          ((start s (MemoryLines.ofText t)).run (operations.map .stay)).1.map
            (fun answer => (answer.1.inFile path, answer.2)) ∧
        ∀ answer ∈ (file.run (operations.map .stay)).1,
          answer.1.outcome ≠ .oversize ∧ ∀ e, answer.1.outcome ≠ .error (.io e)) ∧
    ((∀ t, octets ≠ Utf8.encode t) → ∃ n e,
      LineSource.event (FileLines.ofPaths files [path]) n = .error e ∧
        file.outcome n = .error (.io e)) := by
  intro file
  constructor
  · rintro t rfl operations hfits
    constructor
    · exact (alongside_start s hopened).run operations
    · exact ((invariant_errorFree hs).run_stay (errorFree_start s hopened) hfits).1
  · -- without an error all lines would be text, and so would the octets be
    intro hnone
    by_contra hnoerror
    have hfree : LineSource.ErrorFree (FileLines.ofPaths files [path]) := by
      intro n e hevent
      refine hnoerror ⟨n, e, hevent, ?_⟩
      rw [(stands_start s _).outcome n, hevent]
      rfl
    obtain ⟨t, ht⟩ := FileLines.exists_text hopened hfree
    exact hnone t ht

/-- A text with a carriage return too many and a comment, and octets that no character begins
with. -/
theorem run_file_carriageReturns :
    let text : Text := ['1', '\r', '\r', '\n', '#', '\r', '\n', '2', '\r']
    let files : FileSystem := ⟨fun path =>
      .ok (.file (.ok ⟨if path = "text" then Utf8.encode text else [0x31, 0x0A, 0xFF], none⟩))⟩
    let operations : List Operation := [.hasNext, .readAll, .rewind, .readBatch 3, .next]
    let file := start (Settings.plain 2) (FileLines.ofPaths files ["text"])
    let other := start (Settings.plain 2) (FileLines.ofPaths files ["other"])
    (file.run (operations.map .stay)).1 =
        ((start (Settings.plain 2) (MemoryLines.ofText text)).run (operations.map .stay)).1.map
          (fun answer => (answer.1.inFile "text", answer.2)) ∧
      ∃ n e, other.outcome n = .error (.io e) := by
  intro text files operations file other
  have hs : (Settings.plain 2).Fits := Settings.fits_plain (by decide)
  have hfits : ∀ operation ∈ operations, operation.Fits (Settings.plain 2) := by
    simp [operations, Operation.Fits, Settings.plain]
  have htext : files.opened "text" = .ok ⟨Utf8.encode text, none⟩ := rfl
  have hother : files.opened "other" = .ok ⟨[0x31, 0x0A, 0xFF], none⟩ := rfl
  have hnone : ∀ t, [0x31, 0x0A, 0xFF] ≠ Utf8.encode t := by
    intro t ht
    have hdecode := Utf8.decode_eq_ok_iff.2 ht
    cases hdecode
  obtain ⟨n, e, -, houtcome⟩ := (run_file hs hother).2 hnone
  exact ⟨((run_file hs htext).1 text rfl operations hfits).1, n, e, houtcome⟩

end Reader

end SvmLight
