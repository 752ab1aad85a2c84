import SvmLight.Proofs.Reader.Events
import SvmLight.Proofs.Source.Memory

/-!
# Malformed lines

A line that cannot be decoded leaves no trace: the number of labels is what it was before, so the
lines behind it are decoded as if it were not there. Hence a reader that goes on after each error
reads the records that are left when the malformed lines are taken out.

* `Settings.readLines` — what reading lines one after another comes to.
* `Settings.Decodes` — lines that are all decoded, one after another.
* `decodes_readLines` — the lines that are left of any lines are decoded, into the records and the
  number of labels that reading all of them comes to.
* `readAll_without_malformed` — the same of two readers over lines in memory.
-/

namespace SvmLight

namespace Settings

variable {s : Settings}

/-! ### Reading lines -/

/-- What reading lines one after another comes to, and the number of labels known afterwards. -/
def readLines (s : Settings) (count : Option Nat) :
    List SourceLine → List (Outcome Error (Record × Place)) × Option Nat
  | [] => ([], count)
  | line :: lines =>
    let step := s.readEvent count (.ok (some line))
    let rest := s.readLines step.2 lines
    (step.1 :: rest.1, rest.2)

/-- All of these lines are decoded, one after another, into these records; the number of labels
goes from the first to the last one. -/
inductive Decodes (s : Settings) : Option Nat → List Text → List Record → Option Nat → Prop where
  /-- no line -/
  | nil (count : Option Nat) : Decodes s count [] [] count
  /-- a line and all lines behind it -/
  | cons {count count' : Option Nat} {line : Text} {lines : List Text} {record : Record}
      {records : List Record} (line_ok : s.decode count line = .ok record)
      (lines_ok : Decodes s (s.countAfter count record) lines records count') :
      Decodes s count (line :: lines) (record :: records) count'

/-- A line that is decoded is a record. -/
theorem readEvent_of_ok {count : Option Nat} {line : SourceLine} {record : Record}
    (h : s.decode count line.text = .ok record) :
    s.readEvent count (.ok (some line)) =
      (.ok (record, line.place), s.countAfter count record) := by
  simp only [readEvent, h]

/-- **A line that fails leaves the number of labels alone**, whatever is wrong with it. -/
theorem readEvent_of_error {count : Option Nat} {line : SourceLine} {e : DecodeError}
    (h : s.decode count line.text = .error e) :
    s.readEvent count (.ok (some line)) = (.error (.atLine line.place (.decoding e)), count) := by
  simp only [readEvent, h]

theorem readEvent_line_ne_end (count : Option Nat) (line : SourceLine) :
    (s.readEvent count (.ok (some line))).1 ≠ .error .endOfInput := by
  cases h : s.decode count line.text with
  | ok record => simp [readEvent, h]
  | error e => simp [readEvent, h]
  | oversize => simp [readEvent, h]

/-- Only lines that are read are reported. -/
theorem mem_of_malformed {number : Nat} (count : Option Nat) (lines : List SourceLine)
    (h : number ∈ (s.readLines count lines).1.filterMap Outcome.malformed?) :
    number ∈ lines.map fun line => line.place.line := by
  induction lines generalizing count with
  | nil => cases h
  | cons line lines ih =>
    obtain ⟨outcome, hmem, hnumber⟩ := List.mem_filterMap.1 h
    rcases List.mem_cons.1 hmem with rfl | hmem
    · apply List.mem_cons.2
      left
      cases hdecode : s.decode count line.text with
      | ok record => simp [readEvent, hdecode, Outcome.malformed?] at hnumber
      | error e =>
        rw [readEvent_of_error hdecode] at hnumber
        exact (Option.some.inj hnumber).symm
      | oversize => simp [readEvent, hdecode, Outcome.malformed?] at hnumber
    · exact List.mem_cons_of_mem _ (ih _ (List.mem_filterMap.2 ⟨outcome, hmem, hnumber⟩))

/-- **The lines that are left are all decoded**, when the malformed ones are taken out, and nothing
else changes. -/
theorem decodes_readLines (hs : s.Fits) (count : Option Nat) (lines : List SourceLine)
    (hnodup : (lines.map fun line => line.place.line).Nodup) :
    s.Decodes count
      ((lines.filter fun line => decide (line.place.line ∉
        (s.readLines count lines).1.filterMap Outcome.malformed?)).map SourceLine.text)
      ((s.readLines count lines).1.filterMap Outcome.record?)
      (s.readLines count lines).2 := by
  induction lines generalizing count with
  | nil => exact Decodes.nil count
  | cons line lines ih =>
    rw [List.map_cons, List.nodup_cons] at hnodup
    obtain ⟨hnew, hnodup⟩ := hnodup
    cases hdecode : s.decode count line.text with
    | oversize => exact absurd hdecode (decode_ne_oversize hs _ _)
    | ok record =>
      have hstep := readEvent_of_ok hdecode
      -- no later line has the number of this one, so it is not taken out
      have hkeep : line.place.line ∉
          (s.readLines (s.countAfter count record) lines).1.filterMap Outcome.malformed? := by
        intro hmem
        exact hnew (mem_of_malformed _ lines hmem)
      simp only [readLines, hstep, List.filterMap_cons, Outcome.malformed?, Outcome.record?,
        List.filter_cons, hkeep, not_false_eq_true, decide_true, if_true, List.map_cons]
      exact Decodes.cons hdecode (ih _ hnodup)
    | error e =>
      -- this line is taken out, and no later one with it
      have hstep := readEvent_of_error hdecode
      have hsame : lines.filter (fun other => decide (other.place.line ∉ line.place.line ::
            (s.readLines count lines).1.filterMap Outcome.malformed?)) =
          lines.filter fun other => decide (other.place.line ∉
            (s.readLines count lines).1.filterMap Outcome.malformed?) := by
        refine List.filter_congr ?_
        intro other hmem
        have hne : other.place.line ≠ line.place.line := by
          intro heq
          exact hnew (heq ▸ List.mem_map_of_mem hmem)
        simp [hne]
      simp only [readLines, hstep, List.filterMap_cons, Outcome.malformed?, Outcome.record?,
        List.filter_cons, List.mem_cons_self, not_true_eq_false, decide_false, hsame]
      exact ih count hnodup

end Settings

namespace Reader

/-- The first outcomes of asking for records again and again. -/
def outcomes {σ : Type} [LineSource σ] (r : Reader σ) (n : Nat) :
    List (Outcome Error (Record × Place)) := (List.range n).map r.outcome

/-- The `n`-th request is the first one that finds the end of the input. -/
def EndsAt {σ : Type} [LineSource σ] (r : Reader σ) (n : Nat) : Prop :=
  r.outcome n = .error .endOfInput ∧ ∀ k < n, r.outcome k ≠ .error .endOfInput

theorem EndsAt.unique {σ : Type} [LineSource σ] {r : Reader σ} {n m : Nat} (hn : r.EndsAt n)
    (hm : r.EndsAt m) : n = m := by
  rcases Nat.lt_trichotomy n m with hlt | heq | hlt
  · exact absurd hn.1 (hm.2 n hlt)
  · exact heq
  · exact absurd hm.1 (hn.2 m hlt)

section Lines

variable {σ : Type} [LineSource σ] {r : Reader σ} {s : Settings} {count : Option Nat}
  {again : Nat → Event}

/-! ### Reading lines with a reader -/

/-- Behind the first of some lines are the others. -/
theorem later_lines (line : SourceLine) (lines : List SourceLine) :
    later (fun k => .ok (line :: lines)[k]?) = fun k => .ok lines[k]? := by
  funext k
  rfl

theorem after_succ (r : Reader σ) (n : Nat) : r.after (n + 1) = r.readPlaced.2.after n := by
  induction n with
  | zero => rfl
  | succ n ih => exact congrArg (fun r : Reader σ => r.readPlaced.2) ih

theorem outcomes_succ (r : Reader σ) (n : Nat) :
    r.outcomes (n + 1) = r.readPlaced.1 :: r.readPlaced.2.outcomes n := by
  rw [outcomes, List.range_succ_eq_map, List.map_cons, List.map_map]
  refine congrArg (r.readPlaced.1 :: ·) (List.map_congr_left ?_)
  intro k _
  exact congrArg (fun r : Reader σ => r.readPlaced.1) (r.after_succ k)

/-- A reader that has these lines before it reads what they come to. -/
theorem Stands.outcomes_lines (lines : List SourceLine)
    (h : r.Stands s count (fun k => .ok lines[k]?) again) :
    r.outcomes lines.length = (s.readLines count lines).1 ∧
      (r.after lines.length).Stands s (s.readLines count lines).2 (fun _ => .ok none) again := by
  induction lines generalizing r count with
  | nil => exact ⟨rfl, h⟩
  | cons line lines ih =>
    obtain ⟨hread, hstands⟩ := h.readPlaced
    rw [later_lines] at hstands
    obtain ⟨houtcomes, hafter⟩ := ih hstands
    constructor
    · rw [List.length_cons, outcomes_succ, hread, houtcomes]
      rfl
    · rw [List.length_cons, after_succ]
      exact hafter

/-- The end is found behind the last line, and not before. -/
theorem Stands.endsAt_lines {lines : List SourceLine}
    (h : r.Stands s count (fun k => .ok lines[k]?) again) : r.EndsAt lines.length := by
  constructor
  · rw [h.outcome, List.getElem?_eq_none (Nat.le_refl _)]
    rfl
  · intro k hk
    rw [h.outcome, List.getElem?_eq_getElem hk]
    exact Settings.readEvent_line_ne_end _ _

/-- Lines that are all decoded are read without an error. -/
theorem Stands.readAllOnto_of_decodes {lines : List SourceLine} {records : List Record}
    {count' : Option Nat} (hdecodes : s.Decodes count (lines.map SourceLine.text) records count')
    (h : r.Stands s count (fun k => .ok lines[k]?) again) (done : List Record) :
    (r.readAllOnto done).1 = .ok (done.reverse ++ records) ∧
      (r.readAllOnto done).2.labelCount = count' := by
  induction lines generalizing r count records done with
  | nil =>
    cases hdecodes
    obtain ⟨hnext, hstands⟩ := h.next?_end rfl
    rw [readAllOnto_eq, hnext]
    exact ⟨by rw [List.append_nil], hstands.labelCount⟩
  | cons line lines ih =>
    cases hdecodes with
    | cons line_ok lines_ok =>
      -- the line is not the end, and its record comes behind those that are done
      rename_i record records
      obtain ⟨hnext, hstands⟩ := h.next?_event (by simp)
      simp only [List.getElem?_cons_zero, Settings.readEvent_of_ok line_ok, later_lines,
        Outcome.map_ok] at hnext hstands
      rw [readAllOnto_eq, hnext]
      obtain ⟨hread, hcount⟩ := ih lines_ok hstands (record :: done)
      exact ⟨by rw [hread, List.reverse_cons, List.append_assoc, List.singleton_append], hcount⟩

end Lines

/-! ### Two readers -/

/-- A new reader over lines in memory stands in front of their contents. -/
theorem stands_ofList (s : Settings) (lines : List Text) :
    (start s (MemoryLines.ofList lines)).Stands s s.numLabels
      (fun k => .ok (MemoryLines.contentsFrom 1 lines)[k]?)
      (LineSource.event (LineSource.rewind (MemoryLines.ofList lines))) := by
  have hevents := funext (MemoryLines.event_ofList lines)
  have hstands := stands_start s (MemoryLines.ofList lines)
  rw [hevents] at hstands
  exact hstands

/-- **Malformed lines do not influence the others.** A reader goes on after each error, up to the
end of its lines in memory. The lines that it reports are taken out, and perhaps some comments are
taken out or put in. What is left is read without an error, into the records that the first reader
has read, and the number of labels is the same in the end. -/
theorem readAll_without_malformed {s : Settings} (hs : s.Fits) (lines : List Text) :
    let r := start s (MemoryLines.ofList lines)
    ∃ n, r.EndsAt n ∧ ∀ left,
      Line.contents left = Line.contents
        (MemoryLines.without ((r.outcomes n).filterMap Outcome.malformed?) lines) →
      (start s (MemoryLines.ofList left)).readAll.1 =
          .ok ((r.outcomes n).filterMap Outcome.record?) ∧
        (start s (MemoryLines.ofList left)).readAll.2.labelCount =
          (r.after (n + 1)).labelCount := by
  intro r
  have hstands := stands_ofList s lines
  obtain ⟨houtcomes, hafter⟩ := hstands.outcomes_lines
  refine ⟨_, hstands.endsAt_lines, ?_⟩
  intro left hleft
  rw [houtcomes] at hleft ⊢
  have hdecodes := Settings.decodes_readLines hs s.numLabels (MemoryLines.contentsFrom 1 lines)
    (MemoryLines.nodup_numbers 1 lines)
  rw [← MemoryLines.contents_without, ← hleft, ← MemoryLines.map_text_contentsFrom 1] at hdecodes
  obtain ⟨hrecords, hcount⟩ := (stands_ofList s left).readAllOnto_of_decodes hdecodes []
  refine ⟨hrecords, hcount.trans ?_⟩
  exact hafter.readPlaced.2.labelCount.symm

/-- Of five lines, one has a malformed label and stands in front of the first record, one is a
comment, and one has two labels; the other two are read. -/
theorem readAll_without_malformed_two :
    let lines : List Text := [['x'], ['1'], ['#'], ['2', ',', '3'], ['2']]
    let left : List Text := [['1'], ['2']]
    let r := start (Settings.plain 1) (MemoryLines.ofList lines)
    ∃ n, r.EndsAt n ∧
      Line.contents left = Line.contents
        (MemoryLines.without ((r.outcomes n).filterMap Outcome.malformed?) lines) ∧
      (start (Settings.plain 1) (MemoryLines.ofList left)).readAll.1 =
        .ok ((r.outcomes n).filterMap Outcome.record?) ∧
      (start (Settings.plain 1) (MemoryLines.ofList left)).readAll.2.labelCount =
        (r.after (n + 1)).labelCount := by
  intro lines left r
  have hs : (Settings.plain 1).Fits := Settings.fits_plain (by decide)
  obtain ⟨n, hend, hleft⟩ := readAll_without_malformed hs lines
  have hstands := stands_ofList (Settings.plain 1) lines
  obtain rfl := hend.unique hstands.endsAt_lines
  have hcontents : Line.contents left = Line.contents (MemoryLines.without
      ((r.outcomes (MemoryLines.contentsFrom 1 lines).length).filterMap Outcome.malformed?)
      lines) := by
    rw [hstands.outcomes_lines.1]
    rfl
  exact ⟨_, hend, hcontents, hleft left hcontents⟩

end Reader

end SvmLight
