import SvmLight.Error

/-!
# Options

Options are named texts, as a caller hands them over. Setting a name again replaces its text. A
text is read as a number or a truth value only when it is asked for; blanks around it do not
matter then, but an error reports it as it was set.
-/

namespace SvmLight

/-- Named texts; the entry in front is the one that was set last. -/
structure Options where
  /-- all entries ever set, the last one first -/
  entries : List (String × Text) := []
deriving DecidableEq

namespace Options

/-- No options. -/
def empty : Options := ⟨[]⟩

/-- Sets an option, whatever it was before. -/
def set (o : Options) (key : String) (value : Text) : Options := ⟨(key, value) :: o.entries⟩

/-- The text of an option, if it is set. -/
def get? (o : Options) (key : String) : Option Text := o.entries.lookup key

/-- The whole number that an option holds, if it is set. -/
def int? (o : Options) (key : String) : Except SettingsError (Option Int64) :=
  match o.get? key with
  | none => .ok none
  | some raw =>
    match Numeral.int64? raw.trim with
    | some n => .ok (some n)
    | none => .error (.notAnInteger key raw)

/-- The truth value that an option holds; `default` if it is not set. ASCII letters may have
either case. -/
def bool (o : Options) (key : String) (default : Bool) : Except SettingsError Bool :=
  match o.get? key with
  | none => .ok default
  | some raw =>
    let word := raw.trim.lowerAscii
    if word = ['t', 'r', 'u', 'e'] then .ok true
    else if word = ['f', 'a', 'l', 's', 'e'] then .ok false
    else .error (.notABoolean key raw)

/-! ### The last setting counts -/

@[simp] theorem get?_set_self (o : Options) (key : String) (value : Text) :
    (o.set key value).get? key = some value := by
  simp [get?, set]

theorem get?_set_of_ne (o : Options) {key other : String} (value : Text) (h : other ≠ key) :
    (o.set key value).get? other = o.get? other := by
  have h' : (other == key) = false := by simp [h]
  rw [get?, set, List.lookup_cons, h']
  rfl

end Options

end SvmLight
