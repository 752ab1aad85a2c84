import SvmLight.Proofs.Features

/-!
# Strict decoding

Decoding is written here a second time, one step after the other, on rows that are changed in
place. A step that cannot be done in every state checks that it can be, and else the computation
ends in a **trap**: where a row would be beyond the address space, where an entry would be placed
behind the end of its row, and where one would be taken from zero.

Decoding comes to the same as strict decoding. So there is no trap but the first, which is the
outcome `oversize`: an index is compared with the bound before anything is placed at it, and with
zero before one is taken from it.

* `Trap`, `Abort` — what can end a computation early.
* `Strict.allocate`, `Strict.place`, `Strict.decrement` — the steps that are checked.
* `Strict.index_eq`, `Strict.fold_eq` — an index, and a row that is filled entry by entry.
* `Strict.decode_eq` — **decoding is strict**.
-/

namespace SvmLight

/-- What no computation can go on from. -/
inductive Trap where
  /-- a row of `2 ^ 63` bytes or more is asked for -/
  | oversize
  /-- an entry is placed behind the end of its row -/
  | outOfBounds
  /-- one is taken from zero -/
  | underflow
deriving DecidableEq

/-- What ends a computation early. -/
inductive Abort where
  /-- a step cannot be done -/
  | trap (trap : Trap)
  /-- a line is no record -/
  | decoding (cause : DecodeError)
deriving DecidableEq

/-- An outcome as the outcome of a strict computation. -/
def Outcome.strict {α : Type} : Outcome DecodeError α → Except Abort α
  | .ok a => .ok a
  | .error e => .error (.decoding e)
  | .oversize => .error (.trap .oversize)

namespace Strict

/-! ### Steps -/

/-- A new row of so many entries, each of which takes so many bytes. -/
def allocate {α : Type} (size width : Nat) (fill : α) : Except Abort (Array α) :=
  if size * width < Outcome.addressSpace then .ok (Array.replicate size fill)
  else .error (.trap .oversize)

/-- Places an entry in a row. -/
def place {α : Type} (row : Array α) (entry : Nat × α) : Except Abort (Array α) :=
  if h : entry.1 < row.size then .ok (row.set entry.1 entry.2) else .error (.trap .outOfBounds)

/-- Takes one from a number. -/
def decrement : Nat → Except Abort Nat
  | 0 => .error (.trap .underflow)
  | n + 1 => .ok n

/-- Counts an index from zero. -/
def normalize (base : IndexBase) (kind : IndexKind) (n : Nat) : Except Abort Nat :=
  match base with
  | .zero => .ok n
  | .one => if n = 0 then .error (.decoding (.zeroIndex kind)) else decrement n

/-- Reads an index, counts it from zero, and compares it with the bound. -/
def index (base : IndexBase) (kind : IndexKind) (bound : Nat) (token numeral : Text) :
    Except Abort Nat :=
  match Numeral.index? numeral with
  | none => .error (.decoding (.malformedIndex kind token))
  | some n => do
    let position ← normalize base kind n
    if bound ≤ position then throw (.decoding (.indexOutOfRange kind position bound))
    else return position

/-! ### Rows -/

/-- Reads a feature token, and places its value; a token that tells the query changes nothing. -/
def feature (s : Settings) (row : Array Double) (token : Text) : Except Abort (Array Double) :=
  if Features.isQuery token then .ok row
  else do
    let (key, value?) := token.breakAt Features.mark
    let position ← index s.indexBase .feature s.numFeatures token key
    match value?.bind Double.ofText? with
    | none => throw (.decoding (.malformedValue token))
    | some value => place row (position, value)

/-- Decodes feature tokens, from the first to the last. -/
def features (s : Settings) (tokens : List Text) : Except Abort (List Double) := do
  let row ← allocate s.numFeatures Features.bytesPerFeature .zero
  let row ← tokens.foldlM (feature s) row
  return row.toList

/-- Reads the index of a label, and places a one. -/
def label (base : IndexBase) (numLabels : Nat) (row : Array Value) (piece : Text) :
    Except Abort (Array Value) := do
  let position ← index base .label numLabels piece piece
  place row (position, .int 1)

/-- Decodes a field of label indices, from the first piece to the last. -/
def indicator (base : IndexBase) (numLabels : Nat) (field : Text) :
    Except Abort (List Value) := do
  let row ← allocate numLabels Labels.bytesPerLabel (.int 0)
  let row ← (Labels.pieces field).foldlM (label base numLabels) row
  return row.toList

/-- Decodes a label field, as the settings have it. -/
def labels (s : Settings) (count : Option Nat) (field : Text) : Except Abort (List Value) :=
  match s.labelMode with
  | .omitted => .ok []
  | .indicator numLabels => indicator s.indexBase numLabels field
  | .listed => (Outcome.ofExcept (Labels.listed count field)).strict

/-- Decodes a line. -/
def decode (s : Settings) (count : Option Nat) (line : Text) : Except Abort Record := do
  let (field, tokens) := Line.fields line
  let features ← features s tokens
  let labels ← labels s count field
  return ⟨features, labels⟩

/-! ### Indices -/

theorem strict_bind {α β : Type} (x : Outcome DecodeError α) (f : α → Outcome DecodeError β) :
    (x >>= f).strict = x.strict >>= fun a => (f a).strict := by
  cases x <;> rfl

/-- **One is never taken from zero**: the index zero is an error where indices count from one. -/
theorem normalize_eq (base : IndexBase) (kind : IndexKind) (n : Nat) :
    normalize base kind n =
      match base.normalize? n with
      | none => .error (.decoding (.zeroIndex kind))
      | some position => .ok position := by
  cases base with
  | zero => rfl
  | one =>
    cases n with
    | zero => rfl
    | succ n => rfl

/-- An index is decoded strictly. -/
theorem index_eq (base : IndexBase) (kind : IndexKind) (bound : Nat) (token numeral : Text) :
    index base kind bound token numeral =
      (Outcome.ofExcept (base.decode kind bound token numeral)).strict := by
  rw [index, IndexBase.decode]
  cases Numeral.index? numeral with
  | none => rfl
  | some n =>
    dsimp only
    rw [normalize_eq]
    cases base.normalize? n with
    | none => rfl
    | some position =>
      by_cases hlt : position < bound
      · have hnot : ¬bound ≤ position := Nat.not_le.2 hlt
        simp only [if_pos hlt]
        exact if_neg hnot
      · simp only [if_neg hlt]
        exact if_pos (Nat.le_of_not_lt hlt)

/-! ### Filling a row -/

theorem place_of_lt {α : Type} {row : Array α} {entry : Nat × α} (h : entry.1 < row.size) :
    place row entry = .ok (row.setIfInBounds entry.1 entry.2) := by
  rw [place, dif_pos h, Array.setIfInBounds, dif_pos h]

/-- **Nothing is placed behind the end of a row.** The entries of a list may be decoded and placed
one by one, or all be decoded first: whichever comes first, the list is decoded to the same row, or
fails at the same piece. -/
theorem fold_eq {α β : Type} {f : α → Except DecodeError (Nat × β)} {size : Nat}
    (hbound : ∀ x entry, f x = .ok entry → entry.1 < size) (xs : List α) {row : Array β}
    (hrow : row.size = size) :
    xs.foldlM (fun row x => (Outcome.ofExcept (f x)).strict >>= place row) row =
      ((Outcome.ofExcept (xs.mapM f)).strict >>= fun entries =>
        .ok (entries.foldl (fun row entry => row.setIfInBounds entry.1 entry.2) row)) := by
  induction xs generalizing row with
  | nil => rfl
  | cons x xs ih =>
    rw [List.foldlM_cons, List.mapM_cons]
    cases hx : f x with
    | error e => rfl
    | ok entry =>
      have hlt : entry.1 < row.size := hrow.symm ▸ hbound x entry hx
      have hplaced : ((Outcome.ofExcept (.ok entry : Except DecodeError (Nat × β))).strict >>=
          place row) = .ok (row.setIfInBounds entry.1 entry.2) := place_of_lt hlt
      rw [hplaced]
      have hsize : (row.setIfInBounds entry.1 entry.2).size = size := by
        rw [Array.size_setIfInBounds, hrow]
      refine (ih hsize).trans ?_
      cases xs.mapM f with
      | error e => rfl
      | ok entries => rfl

/-- A row that is made, and then filled. -/
theorem allocate_fold_eq {α β : Type} {f : α → Except DecodeError (Nat × β)} {size : Nat}
    (hbound : ∀ x entry, f x = .ok entry → entry.1 < size) (xs : List α) (width : Nat) (fill : β) :
    (allocate size width fill >>= fun row =>
      xs.foldlM (fun row x => (Outcome.ofExcept (f x)).strict >>= place row) row >>= fun row =>
        pure row.toList) =
      (Outcome.reserve size width >>= fun _ => Outcome.ofExcept (xs.mapM f) >>= fun entries =>
        Outcome.ok (scatter size fill entries)).strict := by
  by_cases hroom : size * width < Outcome.addressSpace
  · rw [allocate, if_pos hroom, Outcome.reserve_of_lt hroom]
    have hsize : (Array.replicate size fill).size = size := Array.size_replicate
    refine (congrArg (· >>= fun row => pure row.toList) (fold_eq hbound xs hsize)).trans ?_
    cases xs.mapM f with
    | error e => rfl
    | ok entries => rfl
  · rw [allocate, if_neg hroom, Outcome.reserve, if_neg hroom]
    rfl

theorem feature_eq (s : Settings) (row : Array Double) (token : Text) :
    feature s row token =
      if !Features.isQuery token then
        (Outcome.ofExcept (Features.entry s token)).strict >>= place row
      else pure row := by
  rw [feature, Features.entry]
  cases Features.isQuery token with
  | true => rfl
  | false =>
    simp only [Bool.false_eq_true, if_false, Bool.not_false, if_true, index_eq]
    cases s.indexBase.decode .feature s.numFeatures token (token.breakAt Features.mark).1 with
    | error e => rfl
    | ok position =>
      cases (token.breakAt Features.mark).2.bind Double.ofText? with
      | none => rfl
      | some value => rfl

/-- Features are decoded strictly. -/
theorem features_eq (s : Settings) (tokens : List Text) :
    features s tokens = (Features.decode s tokens).strict := by
  have hbound : ∀ token entry, Features.entry s token = .ok entry → entry.1 < s.numFeatures := by
    intro token entry h
    obtain ⟨literal, hfeature, -⟩ := Features.entry_eq_ok_iff.1 h
    cases hfeature with
    | feature _ _ position_lt _ => exact position_lt
  have hfold : ∀ row, tokens.foldlM (feature s) row =
      (tokens.filter (!Features.isQuery ·)).foldlM
        (fun row token => (Outcome.ofExcept (Features.entry s token)).strict >>= place row) row := by
    intro row
    rw [List.foldlM_filter]
    congr 1
    funext row token
    exact feature_eq s row token
  rw [features]
  simp only [hfold]
  exact allocate_fold_eq hbound _ _ _

/-- What is decoded may be changed piece by piece, or all at once. -/
theorem mapM_map_eq {α β γ ε : Type} (f : α → Except ε β) (g : β → γ) (xs : List α) :
    xs.mapM (fun x => (f x).map g) = (xs.mapM f).map (List.map g) := by
  induction xs with
  | nil => rfl
  | cons x xs ih =>
    rw [List.mapM_cons, List.mapM_cons, ih]
    cases f x with
    | error e => rfl
    | ok y =>
      cases xs.mapM f with
      | error e => rfl
      | ok ys => rfl

theorem label_eq (base : IndexBase) (numLabels : Nat) (row : Array Value) (piece : Text) :
    label base numLabels row piece =
      (Outcome.ofExcept ((base.decode .label numLabels piece piece).map
        fun position => (position, .int 1))).strict >>= place row := by
  rw [label, index_eq]
  cases base.decode .label numLabels piece piece <;> rfl

/-- Label indices are decoded strictly. -/
theorem indicator_eq (base : IndexBase) (numLabels : Nat) (field : Text) :
    indicator base numLabels field = (Labels.indicator base numLabels field).strict := by
  have hbound : ∀ piece (entry : Nat × Value),
      (base.decode .label numLabels piece piece).map (fun position => (position, .int 1)) =
        .ok entry → entry.1 < numLabels := by
    intro piece entry h
    cases hposition : base.decode .label numLabels piece piece with
    | error e =>
      rw [hposition] at h
      cases h
    | ok position =>
      rw [hposition] at h
      cases h
      exact (IndexBase.decode_eq_ok_iff.1 hposition).2
  rw [indicator, funext fun row => funext fun piece => label_eq base numLabels row piece]
  refine (allocate_fold_eq hbound _ _ _).trans ?_
  rw [mapM_map_eq, Labels.indicator]
  cases (Labels.pieces field).mapM fun piece => base.decode .label numLabels piece piece <;> rfl

/-- A label field is decoded strictly. -/
theorem labels_eq (s : Settings) (count : Option Nat) (field : Text) :
    labels s count field = (s.decodeLabels count field).strict := by
  rw [labels, Settings.decodeLabels]
  cases s.labelMode with
  | omitted => rfl
  | indicator numLabels => exact indicator_eq _ _ _
  | listed => rfl

/-- **Decoding is strict.** Of all that can end it early there is only the fault of a line, and a
row that is beyond the address space. -/
theorem decode_eq (s : Settings) (count : Option Nat) (line : Text) :
    decode s count line = (s.decode count line).strict := by
  rw [Settings.decode_eq, strict_bind, ← features_eq, decode]
  refine congrArg (features s (Line.fields line).2 >>= ·) ?_
  funext row
  rw [strict_bind, ← labels_eq]
  rfl

/-- No entry is placed behind the end of a row, and one is never taken from zero. -/
theorem trap_eq_oversize {s : Settings} {count : Option Nat} {line : Text} {trap : Trap}
    (h : decode s count line = .error (.trap trap)) :
    trap = .oversize ∧ s.decode count line = .oversize := by
  rw [decode_eq] at h
  cases hdecode : s.decode count line with
  | ok record =>
    rw [hdecode] at h
    cases h
  | error e =>
    rw [hdecode] at h
    cases h
  | oversize =>
    rw [hdecode] at h
    cases h
    exact ⟨rfl, rfl⟩

end Strict

end SvmLight
