/-!
# Outcomes

A computation that builds a vector of a requested size has three outcomes: a value, an error, or
**oversize**. The last one means that the vector would have to hold `2 ^ 63` bytes or more, which
no address space has room for. It is no error of the input, and nothing recovers from it.

`reserve` is the only source of it.
-/

namespace SvmLight

/-- What a computation comes to: a value, an error, or a request beyond the address space. -/
inductive Outcome (ε α : Type) where
  /-- it has a value -/
  | ok (value : α)
  /-- it fails -/
  | error (cause : ε)
  /-- it asks for a vector of `2 ^ 63` bytes or more -/
  | oversize
deriving DecidableEq

namespace Outcome

variable {ε δ α β : Type}

/-- Goes on with the value, if there is one. -/
protected def bind (x : Outcome ε α) (f : α → Outcome ε β) : Outcome ε β :=
  match x with
  | .ok a => f a
  | .error e => .error e
  | .oversize => .oversize

instance : Monad (Outcome ε) where
  pure := .ok
  bind := Outcome.bind

/-- Renames the error. -/
def mapError (f : ε → δ) : Outcome ε α → Outcome δ α
  | .ok a => .ok a
  | .error e => .error (f e)
  | .oversize => .oversize

/-- A computation that never asks for an oversize vector. -/
def ofExcept : Except ε α → Outcome ε α
  | .ok a => .ok a
  | .error e => .error e

/-- An address space has room for fewer bytes than this, which are `2 ^ 63`. -/
def addressSpace : Nat := 0x8000000000000000

/-- Asks for room for `count` elements of `width` bytes each. -/
def reserve (count width : Nat) : Outcome ε Unit :=
  if count * width < addressSpace then .ok () else .oversize

/-! ### How sequencing computes -/

@[simp] theorem pure_eq (a : α) : (pure a : Outcome ε α) = .ok a := rfl

@[simp] theorem ok_bind (a : α) (f : α → Outcome ε β) : (Outcome.ok a >>= f) = f a := rfl

@[simp] theorem error_bind (e : ε) (f : α → Outcome ε β) : (Outcome.error e >>= f) = .error e :=
  rfl

@[simp] theorem oversize_bind (f : α → Outcome ε β) :
    ((Outcome.oversize : Outcome ε α) >>= f) = .oversize := rfl

@[simp] theorem map_ok (f : α → β) (a : α) : f <$> (Outcome.ok a : Outcome ε α) = .ok (f a) :=
  rfl

@[simp] theorem map_error (f : α → β) (e : ε) :
    f <$> (Outcome.error e : Outcome ε α) = .error e := rfl

@[simp] theorem map_oversize (f : α → β) :
    f <$> (Outcome.oversize : Outcome ε α) = .oversize := rfl

/-! ### What a sequence came to -/

theorem bind_eq_ok {x : Outcome ε α} {f : α → Outcome ε β} {b : β} (h : (x >>= f) = .ok b) :
    ∃ a, x = .ok a ∧ f a = .ok b := by
  cases x with
  | ok a => exact ⟨a, rfl, h⟩
  | error e => cases h
  | oversize => cases h

theorem bind_eq_error {x : Outcome ε α} {f : α → Outcome ε β} {e : ε}
    (h : (x >>= f) = .error e) : x = .error e ∨ ∃ a, x = .ok a ∧ f a = .error e := by
  cases x with
  | ok a => exact .inr ⟨a, rfl, h⟩
  | error e' =>
    cases h
    exact .inl rfl
  | oversize => cases h

theorem bind_eq_oversize_iff {x : Outcome ε α} {f : α → Outcome ε β} :
    (x >>= f) = .oversize ↔ x = .oversize ∨ ∃ a, x = .ok a ∧ f a = .oversize := by
  cases x with
  | ok a => simp
  | error e => simp
  | oversize => simp

theorem eq_ok_of_ofExcept {x : Except ε α} {a : α} (h : ofExcept x = .ok a) : x = .ok a := by
  cases x with
  | ok b => exact congrArg Except.ok (Outcome.ok.inj h)
  | error e => cases h

theorem eq_error_of_ofExcept {x : Except ε α} {e : ε} (h : ofExcept x = .error e) :
    x = .error e := by
  cases x with
  | ok a => cases h
  | error e' => exact congrArg Except.error (Outcome.error.inj h)

/-- A value is handed on to a function, and an error is kept. -/
theorem ofExcept_map_eq_ok_iff {x : Except ε α} {f : α → β} {b : β} :
    (ofExcept x >>= fun a => .ok (f a)) = .ok b ↔ ∃ a, x = .ok a ∧ f a = b := by
  cases x with
  | ok a => simp [ofExcept]
  | error e => simp [ofExcept]

theorem ofExcept_map_eq_error_iff {x : Except ε α} {f : α → β} {e : ε} :
    (ofExcept x >>= fun a => .ok (f a)) = .error e ↔ x = .error e := by
  cases x with
  | ok a => simp [ofExcept]
  | error e => simp [ofExcept]

/-! ### Requests for room -/

theorem reserve_of_lt {count width : Nat} (h : count * width < addressSpace) :
    (reserve count width : Outcome ε Unit) = .ok () := if_pos h

theorem reserve_eq_oversize_iff {count width : Nat} :
    (reserve count width : Outcome ε Unit) = .oversize ↔ addressSpace ≤ count * width := by
  rw [reserve]
  split
  · rename_i hlt
    exact iff_of_false (by simp) (Nat.not_le.2 hlt)
  · rename_i hge
    exact iff_of_true rfl (Nat.le_of_not_lt hge)

/-- Asking for room is no error. -/
theorem reserve_bind_eq_error {count width : Nat} {f : Unit → Outcome ε α} {e : ε}
    (h : (reserve count width >>= f) = .error e) : f () = .error e := by
  rw [reserve] at h
  split at h
  · exact h
  · cases h

theorem bind_ne_oversize {x : Outcome ε α} {f : α → Outcome ε β} (hx : x ≠ .oversize)
    (hf : ∀ a, f a ≠ .oversize) : (x >>= f) ≠ .oversize := by
  cases x with
  | ok a => exact hf a
  | error e => simp
  | oversize => exact absurd rfl hx

theorem ofExcept_ne_oversize (x : Except ε α) : ofExcept x ≠ .oversize := by
  cases x with
  | ok a => simp [ofExcept]
  | error e => simp [ofExcept]

end Outcome

end SvmLight
