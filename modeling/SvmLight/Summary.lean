import SvmLight.Batch
import SvmLight.CommandLine.Arguments
import SvmLight.Shuffle
import SvmLight.Split

/-!
# Summaries of files

A summary shows what a reader makes of some files. They are read twice, in two **passes**:

* **record by record** — lines that are no records are skipped, each with its error, so only a file
  that cannot be read stops this pass. The records are shuffled if that is asked for, and split.
* **batch by batch** — here the first error ends the pass.

The records are printed before the batches are counted. Skipped lines and batches are counted in 32
bits, one of them for the sign, and what cannot be counted in them halts the pass.
-/

namespace SvmLight

/-! ### Counting -/

/-- Counts in 32 bits, one of them for the sign. -/
abbrev Counter := Int32

/-- One more, unless the counter has reached its last number. -/
def Counter.succ? (n : Counter) : Option Counter :=
  if n = Int32.maxValue then none else some (n + 1)

/-! ### Passes -/

/-- Why a pass ends before its time. -/
inductive Halt where
  /-- an error ends it -/
  | failed (cause : Error)
  /-- there is more to be counted than the counter has numbers for -/
  | overflow
  /-- a vector of `2 ^ 63` bytes or more is asked for -/
  | oversize
deriving DecidableEq

/-- What a pass over the input comes to. -/
structure Pass (σ α : Type) where
  /-- what it yields, also if it is halted -/
  value : α
  /-- what halts it, if anything does -/
  halt? : Option Halt
  /-- the reader as it is afterwards -/
  reader : Reader σ

/-! ### Record by record -/

/-- What reading on over bad lines yields. -/
structure Harvest where
  /-- the records -/
  records : List Record
  /-- the errors of the lines that were skipped -/
  errors : List Error
  /-- how many lines were skipped -/
  skipped : Counter
deriving DecidableEq

namespace Harvest

/-- Before the first line. -/
def empty : Harvest := ⟨[], [], 0⟩

/-- Records and errors the other way round. -/
def reverse (h : Harvest) : Harvest :=
  { h with records := h.records.reverse, errors := h.errors.reverse }

/-- One more record, in front of the others. -/
def keep (h : Harvest) (record : Record) : Harvest := { h with records := record :: h.records }

/-- One more error, in front of the others. -/
def report (h : Harvest) (e : Error) : Harvest := { h with errors := e :: h.errors }

end Harvest

namespace Reader

variable {σ : Type} [LineSource σ]

/-- Reads on behind the harvest so far, the last line first, until there is no room left for a
record. An error is reported before its line is counted. -/
def harvestOnto (room : Option Nat) (done : Harvest) (r : Reader σ) : Pass σ Harvest :=
  if room = some 0 then ⟨done.reverse, none, r⟩
  else
    match _h : r.hasNext with
    | (.error e, r') => ⟨done.reverse, some (.failed (.io e)), r'⟩
    | (.ok false, r') => ⟨done.reverse, none, r'⟩
    | (.ok true, r') =>
      match r'.read.1 with
      | .ok record => harvestOnto (room.map (· - 1)) (done.keep record) r'.read.2
      | .error e =>
        match done.skipped.succ? with
        | some skipped => harvestOnto room { done.report e with skipped } r'.read.2
        | none => ⟨(done.report e).reverse, some .overflow, r'.read.2⟩
      | .oversize => ⟨done.reverse, some .oversize, r'.read.2⟩
termination_by r.remaining
decreasing_by all_goals exact remaining_read_lt_of_hasNext _h

/-- Reads records up to a limit, where there is one, and passes over lines that are none. -/
def harvest (limit : Option Nat) (r : Reader σ) : Pass σ Harvest := r.harvestOnto limit .empty

/-! ### Batch by batch -/

/-- Counts on from the batches that are done. -/
def countBatchesFrom (size : Nat) (done : Counter) (r : Reader σ) : Pass σ Counter :=
  match _h : r.readBatch size with
  | (.ok (some _), r') =>
    match done.succ? with
    | some done => countBatchesFrom size done r'
    | none => ⟨done, some .overflow, r'⟩
  | (.ok none, r') => ⟨done, none, r'⟩
  | (.error e, r') => ⟨done, some (.failed e), r'⟩
  | (.oversize, r') => ⟨done, some .oversize, r'⟩
termination_by r.remaining
decreasing_by exact remaining_readBatch_lt _h

/-- How many batches can be read before the end or an error. -/
def countBatches (size : Nat) (r : Reader σ) : Pass σ Counter := r.countBatchesFrom size 0

end Reader

/-! ### The summary -/

/-- The records, shuffled if that is asked for, in two parts. Where the arguments give no seed,
`entropy` is the seed. -/
def Arguments.arrange (a : Arguments) (entropy : UInt64) (records : List Record) : Split Record :=
  Split.ofShare a.validationRatio
    (if a.shuffle then SvmLight.shuffle (a.seed.getD entropy) records else records)

/-- What a reader makes of some files. -/
structure Summary where
  /-- the records, in two parts -/
  records : Split Record
  /-- how many lines were skipped -/
  skipped : Counter
  /-- how many records a batch has -/
  batchSize : Nat
  /-- how many batches there are -/
  batches : Counter
deriving DecidableEq

namespace Summary

/-- A heading and the records under it. -/
def sectionLines (title : String) (records : List Record) : List String :=
  ("=== " ++ title ++ " records: " ++ toString records.length ++ " ===")
    :: records.map fun record => String.ofList record.text

/-- The records, part by part. Where none is held out, nothing is said of validation. -/
def recordLines (records : Split Record) : List String :=
  sectionLines "Training" records.training
    ++ (if records.validation.isEmpty then []
      else "" :: sectionLines "Validation" records.validation)

/-- The numbers of a summary. -/
def countLines (s : Summary) : List String :=
  ["",
    "Records read: " ++ toString (s.records.training.length + s.records.validation.length),
    "Records skipped: " ++ toString s.skipped,
    "Batches of " ++ toString s.batchSize ++ ": " ++ toString s.batches]

end Summary

end SvmLight
