import Mathlib.Algebra.Ring.Nat
import SvmLight.Utf8

/-!
# Decoding and encoding

`encode` is the standard encoding of a text. Decoding is its inverse: it gives back what was
encoded, and fails on everything else.

A sequence of several octets is a lead octet and **continuation octets**, six bits of the number of
the character each. A state inside a sequence stands for the numbers that it can still **spell**.

* `decodeFrom_continuation`, `exists_continuation` — which octets end a sequence.
* `encodeChar_cases`, `encodeChar_of_lead_wait` — which octets begin one, and what they leave to be
  spelled.
* `decode_eq_ok_iff` — **octets are decoded to a text exactly if they are its octets**.
* `newline_mem_encode` — the octet of a newline stands for nothing else.
-/

namespace SvmLight.Utf8

/-- The octets of a text. -/
def encode (t : Text) : List UInt8 := t.flatMap String.utf8EncodeChar

@[simp] theorem encode_nil : encode [] = [] := rfl

@[simp] theorem encode_cons (c : Char) (t : Text) :
    encode (c :: t) = String.utf8EncodeChar c ++ encode t := rfl

@[simp] theorem encode_append (t u : Text) : encode (t ++ u) = encode t ++ encode u :=
  List.flatMap_append

/-- Every character has an octet. -/
theorem encode_eq_nil {t : Text} (h : encode t = []) : t = [] := by
  cases t with
  | nil => rfl
  | cons c t =>
    rw [encode_cons] at h
    exact absurd (List.append_eq_nil_iff.1 h).1 String.utf8EncodeChar_ne_nil

/-! ### Octets inside a sequence -/

/-- The continuation octets for the last bits of a number: one octet, and `more` behind it. -/
def continuation : Nat → Nat → List UInt8
  | 0, v => [UInt8.ofNat (v % 64 + 0x80)]
  | more + 1, v => UInt8.ofNat (v / 64 ^ (more + 1) % 64 + 0x80) :: continuation more v

/-- The numbers that a sequence can still spell: they begin with the bits so far, and the next
octet is in its range. -/
structure Inside.Spells (i : Inside) (v : Nat) : Prop where
  /-- the bits so far -/
  bits : v / 64 ^ (i.more + 1) = i.bits
  /-- the next octet is not below its range -/
  low : i.low ≤ v / 64 ^ i.more % 64 + 0x80
  /-- the next octet is not above its range -/
  high : v / 64 ^ i.more % 64 + 0x80 ≤ i.high

theorem toNat_octet (v : Nat) : (UInt8.ofNat (v % 64 + 0x80)).toNat = v % 64 + 0x80 := by
  rw [UInt8.toNat_ofNat']
  omega

/-- The bits of a number in front of some more of its last ones. -/
theorem div_pow_succ (v n : Nat) : v / 64 ^ (n + 1) = v / 64 ^ n / 64 := by
  rw [Nat.pow_succ, Nat.div_div_eq_div_mul]

section Inside

variable {low high bits seen start : Nat} {done t : Text} {octet : UInt8} {octets : List UInt8}

/-- Inside a sequence, success needs an octet of the range. -/
theorem exists_octet {i : Inside} (h : decodeFrom start (some i) done octets = .ok t) :
    ∃ octet rest, octets = octet :: rest ∧ i.low ≤ octet.toNat ∧ octet.toNat ≤ i.high := by
  cases octets with
  | nil => cases h
  | cons octet rest =>
    by_cases hrange : i.low ≤ octet.toNat ∧ octet.toNat ≤ i.high
    · exact ⟨octet, rest, rfl, hrange⟩
    · simp only [decodeFrom, Option.map_some, Option.getD_some, Inside.next, if_neg hrange] at h
      cases h

/-- The last octet of a sequence ends its character. -/
theorem decodeFrom_last (hlow : low ≤ octet.toNat) (hhigh : octet.toNat ≤ high) :
    decodeFrom start (some ⟨low, high, 0, bits, seen⟩) done (octet :: octets) =
      decodeFrom (start + (seen + 1)) none
        (Char.ofNat (bits * 64 + (octet.toNat - 0x80)) :: done) octets := by
  simp only [decodeFrom, Option.map_some, Option.getD_some, Inside.next, hlow, hhigh, and_self,
    if_true]

/-- An octet before the last one adds its bits. -/
theorem decodeFrom_more {more : Nat} (hlow : low ≤ octet.toNat) (hhigh : octet.toNat ≤ high) :
    decodeFrom start (some ⟨low, high, more + 1, bits, seen⟩) done (octet :: octets) =
      decodeFrom start (some ⟨0x80, 0xBF, more, bits * 64 + (octet.toNat - 0x80), seen + 1⟩) done
        octets := by
  simp only [decodeFrom, Option.map_some, Option.getD_some, Inside.next, hlow, hhigh, and_self,
    if_true]

end Inside

/-- The continuation octets of a number end the sequence with its character. -/
theorem decodeFrom_continuation (more : Nat) :
    ∀ (low high bits seen v : Nat), (⟨low, high, more, bits, seen⟩ : Inside).Spells v →
      ∀ (start : Nat) (done : Text) (octets : List UInt8),
        ∃ start', decodeFrom start (some ⟨low, high, more, bits, seen⟩) done
            (continuation more v ++ octets) =
          decodeFrom start' none (Char.ofNat v :: done) octets := by
  induction more with
  | zero =>
    intro low high bits seen v h start done octets
    obtain ⟨hbits, hlow, hhigh⟩ := h
    simp only [Nat.pow_zero, Nat.div_one, Nat.zero_add, Nat.pow_one] at hbits hlow hhigh
    rw [← toNat_octet] at hlow hhigh
    refine ⟨start + (seen + 1), ?_⟩
    rw [continuation, List.singleton_append, decodeFrom_last hlow hhigh, toNat_octet,
      show bits * 64 + (v % 64 + 0x80 - 0x80) = v by omega]
  | succ more ih =>
    intro low high bits seen v h start done octets
    obtain ⟨hbits, hlow, hhigh⟩ := h
    simp only [div_pow_succ v (more + 1)] at hbits hlow hhigh
    rw [← toNat_octet] at hlow hhigh
    -- with six bits more, what is left can be spelled from the widest range
    have hv : bits * 64 + (v / 64 ^ (more + 1) % 64 + 0x80 - 0x80) = v / 64 ^ (more + 1) := by omega
    obtain ⟨start', hrest⟩ := ih 0x80 0xBF (v / 64 ^ (more + 1)) (seen + 1) v
      ⟨rfl, by simp only; omega, by simp only; omega⟩ start done octets
    refine ⟨start', ?_⟩
    rw [continuation, List.cons_append, decodeFrom_more hlow hhigh, toNat_octet, hv, hrest]

/-- If a sequence is ended, then by the continuation octets of a number that it can spell. -/
theorem exists_continuation (more : Nat) :
    ∀ (low high bits seen : Nat), 0x80 ≤ low → high ≤ 0xBF →
      ∀ (start : Nat) (done : Text) (octets : List UInt8) (t : Text),
        decodeFrom start (some ⟨low, high, more, bits, seen⟩) done octets = .ok t →
        ∃ v rest start', (⟨low, high, more, bits, seen⟩ : Inside).Spells v ∧
          octets = continuation more v ++ rest ∧
          decodeFrom start' none (Char.ofNat v :: done) rest = .ok t := by
  induction more with
  | zero =>
    intro low high bits seen hlow_ge hhigh_le start done octets t h
    obtain ⟨octet, rest, rfl, hlow, hhigh⟩ := exists_octet h
    simp only at hlow hhigh
    rw [decodeFrom_last hlow hhigh] at h
    have hbits : (bits * 64 + (octet.toNat - 0x80)) % 64 + 0x80 = octet.toNat := by omega
    refine ⟨_, rest, _, ⟨?_, ?_, ?_⟩, ?_, h⟩
    · simp only [Nat.zero_add, Nat.pow_one]
      omega
    · simp only [Nat.pow_zero, Nat.div_one]
      omega
    · simp only [Nat.pow_zero, Nat.div_one]
      omega
    · rw [continuation, hbits, UInt8.ofNat_toNat]
      rfl
  | succ more ih =>
    intro low high bits seen hlow_ge hhigh_le start done octets t h
    obtain ⟨octet, rest, rfl, hlow, hhigh⟩ := exists_octet h
    simp only at hlow hhigh
    rw [decodeFrom_more hlow hhigh] at h
    -- the number is complete only behind the last octet; this one turns out to hold its bits
    obtain ⟨v, rest', start', hspells, rfl, hok⟩ :=
      ih 0x80 0xBF _ _ (Nat.le_refl _) (Nat.le_refl _) _ _ _ _ h
    have hv : v / 64 ^ (more + 1) = bits * 64 + (octet.toNat - 0x80) := hspells.bits
    have hbits : v / 64 ^ (more + 1) % 64 + 0x80 = octet.toNat := by omega
    refine ⟨v, rest', start', ⟨?_, ?_, ?_⟩, ?_, hok⟩
    · simp only [div_pow_succ v (more + 1)]
      omega
    · simp only
      omega
    · simp only
      omega
    · rw [continuation, hbits, UInt8.ofNat_toNat]
      rfl

/-! ### Lead octets

One fact for each length of a sequence: its lead octet, the numbers that it leaves to be spelled,
and the octets of a character of that length. -/

theorem lead_one {n : Nat} (h : n < 0x80) : lead n = .char (Char.ofNat n) := by
  rw [lead, if_pos h]

theorem lead_two {n : Nat} (hlow : 0xC2 ≤ n) (hhigh : n < 0xE0) :
    lead n = .wait ⟨0x80, 0xBF, 0, n - 0xC0, 1⟩ := by
  rw [lead, if_neg (by omega), if_neg (by omega), if_pos hhigh]

theorem lead_three {n : Nat} (hlow : 0xE0 ≤ n) (hhigh : n < 0xF0) :
    lead n = .wait ⟨if n = 0xE0 then 0xA0 else 0x80, if n = 0xED then 0x9F else 0xBF, 1,
      n - 0xE0, 1⟩ := by
  rw [lead, if_neg (by omega), if_neg (by omega), if_neg (by omega)]
  by_cases h1 : n = 0xE0
  · subst h1
    rfl
  by_cases h2 : n = 0xED
  · subst h2
    rfl
  simp only [h1, h2, hhigh, if_false, if_true]

theorem lead_four {n : Nat} (hlow : 0xF0 ≤ n) (hhigh : n < 0xF5) :
    lead n = .wait ⟨if n = 0xF0 then 0x90 else 0x80, if n = 0xF4 then 0x8F else 0xBF, 2,
      n - 0xF0, 1⟩ := by
  rw [lead, if_neg (by omega), if_neg (by omega), if_neg (by omega), if_neg (by omega),
    if_neg (by omega), if_neg (by omega)]
  by_cases h1 : n = 0xF0
  · subst h1
    rfl
  by_cases h2 : n = 0xF4
  · subst h2
    rfl
  have h3 : n < 0xF4 := by omega
  simp only [h1, h2, h3, if_false, if_true]

/-- No character begins with another octet. -/
theorem lead_bad {n : Nat} (hlow : 0x80 ≤ n) (h : n < 0xC2 ∨ 0xF5 ≤ n) : lead n = .bad := by
  rcases h with h | h
  · rw [lead, if_neg (by omega), if_pos h]
  · rw [lead, if_neg (by omega), if_neg (by omega), if_neg (by omega), if_neg (by omega),
      if_neg (by omega), if_neg (by omega), if_neg (by omega), if_neg (by omega),
      if_neg (by omega)]

theorem spells_two {n v : Nat} (hlow : 0xC2 ≤ n) :
    (⟨0x80, 0xBF, 0, n - 0xC0, 1⟩ : Inside).Spells v ↔ v / 64 + 0xC0 = n := by
  constructor
  · rintro ⟨hbits, -, -⟩
    simp only [Nat.zero_add, Nat.pow_one] at hbits
    omega
  · intro h
    refine ⟨?_, ?_, ?_⟩
    · simp only [Nat.zero_add, Nat.pow_one]
      omega
    · simp only [Nat.pow_zero, Nat.div_one]
      omega
    · simp only [Nat.pow_zero, Nat.div_one]
      omega

/-- The range of the octet after the lead one leaves out the numbers that need fewer octets, and
those that are no characters. -/
theorem spells_three {n v : Nat} (hlow : 0xE0 ≤ n) (hhigh : n < 0xF0) :
    (⟨if n = 0xE0 then 0xA0 else 0x80, if n = 0xED then 0x9F else 0xBF, 1, n - 0xE0, 1⟩ :
        Inside).Spells v ↔
      v / 4096 + 0xE0 = n ∧ 0x800 ≤ v ∧ v.isValidChar := by
  rw [Nat.isValidChar]
  constructor
  · rintro ⟨hbits, hge, hle⟩
    simp only [Nat.reduceAdd, Nat.reducePow, Nat.pow_one] at hbits hge hle
    split at hge <;> split at hle <;> omega
  · rintro ⟨hn, hge, hvalid⟩
    refine ⟨?_, ?_, ?_⟩
    · simp only [Nat.reduceAdd, Nat.reducePow]
      omega
    · simp only [Nat.pow_one]
      split <;> omega
    · simp only [Nat.pow_one]
      split <;> omega

theorem spells_four {n v : Nat} (hlow : 0xF0 ≤ n) (hhigh : n < 0xF5) :
    (⟨if n = 0xF0 then 0x90 else 0x80, if n = 0xF4 then 0x8F else 0xBF, 2, n - 0xF0, 1⟩ :
        Inside).Spells v ↔
      v / 262144 + 0xF0 = n ∧ 0x10000 ≤ v ∧ v.isValidChar := by
  rw [Nat.isValidChar]
  constructor
  · rintro ⟨hbits, hge, hle⟩
    simp only [Nat.reduceAdd, Nat.reducePow] at hbits hge hle
    split at hge <;> split at hle <;> omega
  · rintro ⟨hn, hge, hvalid⟩
    refine ⟨?_, ?_, ?_⟩
    · simp only [Nat.reduceAdd, Nat.reducePow]
      omega
    · simp only [Nat.reducePow]
      split <;> omega
    · simp only [Nat.reducePow]
      split <;> omega

/-! ### The octets of a character -/

theorem encodeChar_one {c : Char} (h : c.toNat < 0x80) :
    String.utf8EncodeChar c = [UInt8.ofNat c.toNat] := by
  have hle : c.val.toNat ≤ 0x7f := Nat.le_of_lt_succ h
  rw [String.utf8EncodeChar, if_pos hle]
  rfl

theorem encodeChar_two {c : Char} (hlow : 0x80 ≤ c.toNat) (hhigh : c.toNat < 0x800) :
    String.utf8EncodeChar c = UInt8.ofNat (c.toNat / 64 + 0xC0) :: continuation 0 c.toNat := by
  have hgt : ¬c.val.toNat ≤ 0x7f := Nat.not_le_of_lt hlow
  have hle : c.val.toNat ≤ 0x7ff := Nat.le_of_lt_succ hhigh
  have hlead : c.val.toNat / 64 % 0x20 = c.toNat / 64 := by
    rw [Char.toNat_val]
    omega
  rw [String.utf8EncodeChar, if_neg hgt, if_pos hle, hlead]
  rfl

theorem encodeChar_three {c : Char} (hlow : 0x800 ≤ c.toNat) (hhigh : c.toNat < 0x10000) :
    String.utf8EncodeChar c = UInt8.ofNat (c.toNat / 4096 + 0xE0) :: continuation 1 c.toNat := by
  have hgt : ¬c.val.toNat ≤ 0x7f := Nat.not_le_of_lt (Nat.lt_of_lt_of_le (by decide) hlow)
  have hgt' : ¬c.val.toNat ≤ 0x7ff := Nat.not_le_of_lt hlow
  have hle : c.val.toNat ≤ 0xffff := Nat.le_of_lt_succ hhigh
  have hlead : c.val.toNat / 4096 % 0x10 = c.toNat / 4096 := by
    rw [Char.toNat_val]
    omega
  rw [String.utf8EncodeChar, if_neg hgt, if_neg hgt', if_pos hle, hlead]
  rfl

theorem encodeChar_four {c : Char} (hlow : 0x10000 ≤ c.toNat) (hhigh : c.toNat < 0x110000) :
    String.utf8EncodeChar c = UInt8.ofNat (c.toNat / 262144 + 0xF0) :: continuation 2 c.toNat := by
  have hgt : ¬c.val.toNat ≤ 0x7f := Nat.not_le_of_lt (Nat.lt_of_lt_of_le (by decide) hlow)
  have hgt' : ¬c.val.toNat ≤ 0x7ff := Nat.not_le_of_lt (Nat.lt_of_lt_of_le (by decide) hlow)
  have hgt'' : ¬c.val.toNat ≤ 0xffff := Nat.not_le_of_lt hlow
  have hlead : c.val.toNat / 262144 % 0x08 = c.toNat / 262144 := by
    rw [Char.toNat_val]
    omega
  rw [String.utf8EncodeChar, if_neg hgt, if_neg hgt', if_neg hgt'', hlead]
  rfl

theorem isValidChar_toNat (c : Char) : c.toNat.isValidChar := c.valid

theorem toNat_ofNat {v : Nat} (h : v.isValidChar) : (Char.ofNat v).toNat = v := by
  rw [Char.ofNat, dif_pos h]
  rfl

/-- The octets of a character are one octet, or a lead octet and continuation octets that can be
spelled behind it. -/
theorem encodeChar_cases (c : Char) :
    (∃ octet, String.utf8EncodeChar c = [octet] ∧ lead octet.toNat = .char c) ∨
      ∃ octet i, String.utf8EncodeChar c = octet :: continuation i.more c.toNat ∧
        lead octet.toNat = .wait i ∧ i.Spells c.toNat := by
  have hvalid := isValidChar_toNat c
  have hlt : c.toNat < 0x110000 := by
    rcases hvalid with h | h
    · omega
    · exact h.2
  have hoctet : ∀ {n : Nat}, n < 256 → (UInt8.ofNat n).toNat = n := by
    intro n hn
    exact UInt8.toNat_ofNat_of_lt' hn
  by_cases h1 : c.toNat < 0x80
  · refine .inl ⟨_, encodeChar_one h1, ?_⟩
    rw [hoctet (by omega), lead_one h1, Char.ofNat_toNat]
  right
  by_cases h2 : c.toNat < 0x800
  · refine ⟨_, _, encodeChar_two (by omega) h2, ?_, (spells_two (by omega)).2 rfl⟩
    rw [hoctet (by omega), lead_two (by omega) (by omega)]
  by_cases h3 : c.toNat < 0x10000
  · refine ⟨_, _, encodeChar_three (by omega) h3, ?_,
      (spells_three (by omega) (by omega)).2 ⟨rfl, by omega, hvalid⟩⟩
    rw [hoctet (by omega), lead_three (by omega) (by omega)]
  · refine ⟨_, _, encodeChar_four (by omega) hlt, ?_,
      (spells_four (by omega) (by omega)).2 ⟨rfl, by omega, hvalid⟩⟩
    rw [hoctet (by omega), lead_four (by omega) (by omega)]

/-- An octet that is a character is the only one of it. -/
theorem encodeChar_of_lead_char {octet : UInt8} {c : Char} (h : lead octet.toNat = .char c) :
    String.utf8EncodeChar c = [octet] := by
  by_cases h1 : octet.toNat < 0x80
  · rw [lead_one h1] at h
    cases h
    have hvalid : octet.toNat.isValidChar := .inl (by omega)
    rw [encodeChar_one (by rw [toNat_ofNat hvalid]; exact h1), toNat_ofNat hvalid,
      UInt8.ofNat_toNat]
  · exfalso
    by_cases h2 : octet.toNat < 0xC2 ∨ 0xF5 ≤ octet.toNat
    · simp [lead_bad (by omega) h2] at h
    by_cases h3 : octet.toNat < 0xE0
    · simp [lead_two (by omega) h3] at h
    by_cases h4 : octet.toNat < 0xF0
    · simp [lead_three (by omega) h4] at h
    · simp [lead_four (n := octet.toNat) (by omega) (by omega)] at h

/-- What can be spelled behind a lead octet, and nothing else, are characters that begin with it. -/
theorem encodeChar_of_lead_wait {octet : UInt8} {i : Inside} (h : lead octet.toNat = .wait i) :
    0x80 ≤ i.low ∧ i.high ≤ 0xBF ∧
      ∀ v, i.Spells v → String.utf8EncodeChar (Char.ofNat v) = octet :: continuation i.more v := by
  by_cases h1 : octet.toNat < 0x80
  · simp [lead_one h1] at h
  by_cases h2 : octet.toNat < 0xC2 ∨ 0xF5 ≤ octet.toNat
  · simp [lead_bad (by omega) h2] at h
  by_cases h3 : octet.toNat < 0xE0
  · rw [lead_two (by omega) h3] at h
    cases h
    refine ⟨Nat.le_refl _, Nat.le_refl _, ?_⟩
    intro v hspells
    have hv := (spells_two (by omega)).1 hspells
    have hvalid : v.isValidChar := .inl (by omega)
    rw [encodeChar_two (by rw [toNat_ofNat hvalid]; omega) (by rw [toNat_ofNat hvalid]; omega),
      toNat_ofNat hvalid, hv, UInt8.ofNat_toNat]
  by_cases h4 : octet.toNat < 0xF0
  · rw [lead_three (by omega) h4] at h
    cases h
    refine ⟨by simp only; split <;> omega, by simp only; split <;> omega, ?_⟩
    intro v hspells
    obtain ⟨hv, hlow, hvalid⟩ := (spells_three (by omega) h4).1 hspells
    rw [encodeChar_three (by rw [toNat_ofNat hvalid]; omega) (by rw [toNat_ofNat hvalid]; omega),
      toNat_ofNat hvalid, hv, UInt8.ofNat_toNat]
  · rw [lead_four (by omega) (by omega)] at h
    cases h
    refine ⟨by simp only; split <;> omega, by simp only; split <;> omega, ?_⟩
    intro v hspells
    obtain ⟨hv, hlow, hvalid⟩ := (spells_four (by omega) (by omega)).1 hspells
    rw [encodeChar_four (by rw [toNat_ofNat hvalid]; omega) (by rw [toNat_ofNat hvalid]; omega),
      toNat_ofNat hvalid, hv, UInt8.ofNat_toNat]

/-! ### Decoding a character -/

theorem decodeFrom_char {octet : UInt8} {c : Char} (h : lead octet.toNat = .char c)
    (start : Nat) (done : Text) (octets : List UInt8) :
    decodeFrom start none done (octet :: octets) =
      decodeFrom (start + 1) none (c :: done) octets := by
  simp only [decodeFrom, Option.map_none, Option.getD_none, h]

theorem decodeFrom_wait {octet : UInt8} {i : Inside} (h : lead octet.toNat = .wait i)
    (start : Nat) (done : Text) (octets : List UInt8) :
    decodeFrom start none done (octet :: octets) = decodeFrom start (some i) done octets := by
  simp only [decodeFrom, Option.map_none, Option.getD_none, h]

/-- **The octets of a character are decoded to it.** -/
theorem decodeFrom_encodeChar (c : Char) (start : Nat) (done : Text) (octets : List UInt8) :
    ∃ start', decodeFrom start none done (String.utf8EncodeChar c ++ octets) =
      decodeFrom start' none (c :: done) octets := by
  rcases encodeChar_cases c with ⟨octet, hc, hlead⟩ | ⟨octet, i, hc, hlead, hspells⟩
  · refine ⟨start + 1, ?_⟩
    rw [hc, List.singleton_append, decodeFrom_char hlead]
  · obtain ⟨start', h⟩ := decodeFrom_continuation _ _ _ _ _ _ hspells start done octets
    refine ⟨start', ?_⟩
    rw [hc, List.cons_append, decodeFrom_wait hlead, h, Char.ofNat_toNat]

/-- **What is decoded begins with the octets of a character.** -/
theorem exists_encodeChar {start : Nat} {done t : Text} {octet : UInt8} {octets : List UInt8}
    (h : decodeFrom start none done (octet :: octets) = .ok t) :
    ∃ c rest start', octet :: octets = String.utf8EncodeChar c ++ rest ∧
      decodeFrom start' none (c :: done) rest = .ok t := by
  cases hlead : lead octet.toNat with
  | char c =>
    rw [decodeFrom_char hlead] at h
    refine ⟨c, octets, start + 1, ?_, h⟩
    rw [encodeChar_of_lead_char hlead, List.singleton_append]
  | wait i =>
    rw [decodeFrom_wait hlead] at h
    obtain ⟨hlow, hhigh, hencode⟩ := encodeChar_of_lead_wait hlead
    obtain ⟨v, rest, start', hspells, rfl, hok⟩ :=
      exists_continuation _ _ _ _ _ hlow hhigh _ _ _ _ h
    refine ⟨Char.ofNat v, rest, start', ?_, hok⟩
    rw [hencode v hspells, List.cons_append]
  | bad =>
    simp only [decodeFrom, Option.map_none, Option.getD_none, hlead] at h
    cases h

/-! ### Texts -/

theorem decodeFrom_encode (t : Text) :
    ∀ (start : Nat) (done : Text),
      decodeFrom start none done (encode t) = .ok (done.reverse ++ t) := by
  induction t with
  | nil =>
    intro start done
    rw [encode_nil, decodeFrom, List.append_nil]
  | cons c t ih =>
    intro start done
    obtain ⟨start', h⟩ := decodeFrom_encodeChar c start done (encode t)
    rw [encode_cons, h, ih, List.reverse_cons, List.append_assoc, List.singleton_append]

/-- Characters are decoded one after another, so the induction is on the number of octets left. -/
theorem exists_encode_of_decodeFrom (n : Nat) :
    ∀ (octets : List UInt8), octets.length ≤ n → ∀ (start : Nat) (done t : Text),
      decodeFrom start none done octets = .ok t →
        ∃ rest, t = done.reverse ++ rest ∧ octets = encode rest := by
  induction n with
  | zero =>
    intro octets hlen start done t h
    obtain rfl := List.eq_nil_of_length_eq_zero (Nat.le_zero.1 hlen)
    cases h
    exact ⟨[], (List.append_nil _).symm, rfl⟩
  | succ n ih =>
    intro octets hlen start done t h
    cases octets with
    | nil =>
      cases h
      exact ⟨[], (List.append_nil _).symm, rfl⟩
    | cons octet octets =>
      obtain ⟨c, left, start', hc, hleft⟩ := exists_encodeChar h
      have hpos := List.length_pos_iff.2 (String.utf8EncodeChar_ne_nil (c := c))
      have hlength := congrArg List.length hc
      rw [List.length_append] at hlength
      obtain ⟨rest, rfl, rfl⟩ := ih left (by omega) start' _ t hleft
      refine ⟨c :: rest, ?_, ?_⟩
      · rw [List.reverse_cons, List.append_assoc, List.singleton_append]
      · rw [hc, encode_cons]

/-- **Octets are decoded to a text exactly if they are its octets.** -/
theorem decode_eq_ok_iff {octets : List UInt8} {t : Text} :
    decode octets = .ok t ↔ octets = encode t := by
  constructor
  · intro h
    obtain ⟨rest, rfl, rfl⟩ := exists_encode_of_decodeFrom _ octets (Nat.le_refl _) 0 [] t h
    rfl
  · rintro rfl
    exact decodeFrom_encode t 0 []

/-! ### Newlines -/

theorem lt_of_mem_continuation (more v : Nat) :
    ∀ octet ∈ continuation more v, 0x80 ≤ octet.toNat := by
  induction more with
  | zero =>
    intro octet hmem
    obtain rfl := List.mem_singleton.1 hmem
    rw [toNat_octet]
    omega
  | succ more ih =>
    intro octet hmem
    rcases List.mem_cons.1 hmem with rfl | hmem
    · rw [toNat_octet]
      omega
    · exact ih octet hmem

/-- A newline is one octet, and every octet of another character is another one. -/
theorem newline_mem_encodeChar {c : Char} (h : 10 ∈ String.utf8EncodeChar c) : c = '\n' := by
  rcases encodeChar_cases c with ⟨octet, hc, hlead⟩ | ⟨octet, i, hc, hlead, -⟩
  · rw [hc] at h
    obtain rfl := List.mem_singleton.1 h
    cases hlead
    rfl
  · rw [hc] at h
    exfalso
    rcases List.mem_cons.1 h with rfl | h
    · cases hlead
    · have := lt_of_mem_continuation _ _ _ h
      simp at this

theorem newline_mem_encode {t : Text} (h : 10 ∈ encode t) : '\n' ∈ t := by
  obtain ⟨c, hmem, hc⟩ := List.mem_flatMap.1 h
  rw [newline_mem_encodeChar hc] at hmem
  exact hmem

end SvmLight.Utf8
