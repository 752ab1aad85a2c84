import SvmLight.Reader

/-!
# Batches

A **batch** holds the numbers of several records in two dense blocks, row after row: one of
features, one of labels. `Reader.readBatch` reads as many records as a batch may have, or as are
left.

An error drops the records that were read for the batch before it. Room for all rows is asked for
before the first record is read.
-/

namespace SvmLight

/-- The numbers of some records, row after row. -/
structure Batch where
  /-- the feature values of all rows -/
  features : List Double
  /-- the labels of all rows, as doubles -/
  labels : List Double
  /-- how many records there are -/
  rows : Nat
  /-- how many features each row has -/
  numFeatures : Nat
  /-- how many labels the first row has -/
  labelWidth : Nat
deriving DecidableEq

/-- The batch of some records; none is made of no records. -/
def Batch.ofRecords (numFeatures : Nat) (records : List Record) : Option Batch :=
  match records with
  | [] => none
  | first :: _ => some
    { features := records.flatMap Record.features
      labels := records.flatMap fun record => record.labels.map Value.toDouble
      rows := records.length
      numFeatures
      labelWidth := first.labels.length }

namespace Reader

variable {σ : Type} [LineSource σ]

/-- Reads up to so many records, behind those that are done, the last one first. -/
def gather : Nat → List Record → Reader σ → Outcome Error (List Record) × Reader σ
  | 0, done, r => (.ok done.reverse, r)
  | room + 1, done, r =>
    match r.hasNext with
    | (.error e, r) => (.error (.io e), r)
    | (.ok false, r) => (.ok done.reverse, r)
    | (.ok true, r) =>
      match r.read with
      | (.ok record, r) => gather room (record :: done) r
      | (.error e, r) => (.error e, r)
      | (.oversize, r) => (.oversize, r)

/-- The batch of the next records, `size` at most; `none` if there is none. -/
def readBatch (size : Nat) (r : Reader σ) : Outcome Error (Option Batch) × Reader σ :=
  match (Outcome.reserve (size * r.settings.numFeatures) Features.bytesPerFeature :
      Outcome Error Unit) with
  | .ok () =>
    let step := r.gather size []
    (Batch.ofRecords r.settings.numFeatures <$> step.1, step.2)
  | .error e => (.error e, r)
  | .oversize => (.oversize, r)

/-! ### What is left -/

/-- Every record that is gathered uses a line up. -/
theorem length_add_remaining_gather_le {room : Nat} {done records : List Record}
    {r r' : Reader σ} (h : gather room done r = (.ok records, r')) :
    records.length + r'.remaining ≤ done.length + r.remaining := by
  fun_induction gather room done r with
  | case1 done r =>
    obtain ⟨h1, rfl⟩ := Prod.mk.inj h
    obtain rfl := Outcome.ok.inj h1
    exact Nat.le_of_eq (congrArg (· + r.remaining) List.length_reverse)
  | case2 => simp at h
  | case3 room done r r₁ hnext =>
    obtain ⟨h1, rfl⟩ := Prod.mk.inj h
    obtain rfl := Outcome.ok.inj h1
    have hle := r.remaining_hasNext_le
    rw [hnext] at hle
    rw [List.length_reverse]
    exact Nat.add_le_add_left hle _
  | case4 room done r r₁ hnext record r₂ hread ih =>
    have hlt : r₂.remaining < r.remaining := by
      simpa only [hread] using remaining_read_lt_of_hasNext hnext
    have := ih h
    rw [List.length_cons] at this
    omega
  | case5 => simp at h
  | case6 => simp at h

/-- A batch has a record, so its lines are used up. -/
theorem remaining_readBatch_lt {size : Nat} {r r' : Reader σ} {batch : Batch}
    (h : r.readBatch size = (.ok (some batch), r')) : r'.remaining < r.remaining := by
  rw [readBatch] at h
  split at h
  · obtain ⟨h1, rfl⟩ := Prod.mk.inj h
    cases hgather : (r.gather size []).1 with
    | error e => simp [hgather] at h1
    | oversize => simp [hgather] at h1
    | ok records =>
      have hle := length_add_remaining_gather_le
        (show r.gather size [] = (.ok records, (r.gather size []).2) from Prod.ext hgather rfl)
      cases records with
      | nil => simp [hgather, Batch.ofRecords] at h1
      | cons record records =>
        simp only [List.length_cons, List.length_nil] at hle
        omega
  · simp at h
  · simp at h

end Reader

end SvmLight
