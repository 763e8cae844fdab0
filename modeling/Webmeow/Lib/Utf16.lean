import Mathlib.Data.List.Basic

/-!
# Strings of UTF-16 code units

A string of JavaScript is any list of 16-bit units. A high and a low surrogate that follow each other
are one character; a surrogate on its own is none.
-/

namespace Utf16

/-- A high surrogate. -/
def isHigh (u : UInt16) : Bool := 0xD800 ≤ u.toNat && u.toNat < 0xDC00

/-- A low surrogate. -/
def isLow (u : UInt16) : Bool := 0xDC00 ≤ u.toNat && u.toNat < 0xE000

/-- The character of a surrogate pair. -/
def pairChar (high low : UInt16) : Char :=
  Char.ofNat (0x10000 + (high.toNat - 0xD800) * 0x400 + (low.toNat - 0xDC00))

/-- The character of a unit that is not a surrogate. -/
def unitChar (u : UInt16) : Char := Char.ofNat u.toNat

/-- The units of a character. -/
def units (c : Char) : List UInt16 :=
  if c.toNat < 0x10000 then [UInt16.ofNat c.toNat]
  else
    [UInt16.ofNat (0xD800 + (c.toNat - 0x10000) / 0x400),
      UInt16.ofNat (0xDC00 + (c.toNat - 0x10000) % 0x400)]

/-- The code units of a string. -/
def ofString (s : String) : List UInt16 := s.toList.flatMap units

theorem toNat_ofNat_char {n : ℕ} (h : n.isValidChar) : (Char.ofNat n).toNat = n := by
  unfold Char.ofNat
  rw [dif_pos h]
  rfl

theorem toNat_pairChar {high low : UInt16} (hh : isHigh high = true) (hl : isLow low = true) :
    (pairChar high low).toNat = 0x10000 + (high.toNat - 0xD800) * 0x400 + (low.toNat - 0xDC00) := by
  simp only [isHigh, isLow, Bool.and_eq_true, decide_eq_true_eq] at hh hl
  refine toNat_ofNat_char (Or.inr ⟨?_, ?_⟩)
  · omega
  · omega

/-- The code units of a character from a pair are the pair. -/
theorem units_pairChar {high low : UInt16} (hh : isHigh high = true) (hl : isLow low = true) :
    units (pairChar high low) = [high, low] := by
  have hn := toNat_pairChar hh hl
  simp only [isHigh, isLow, Bool.and_eq_true, decide_eq_true_eq] at hh hl
  have hhigh : 0xD800 + ((pairChar high low).toNat - 0x10000) / 0x400 = high.toNat := by omega
  have hlow : 0xDC00 + ((pairChar high low).toNat - 0x10000) % 0x400 = low.toNat := by omega
  rw [units, if_neg (by omega), hhigh, hlow, UInt16.ofNat_toNat, UInt16.ofNat_toNat]

theorem toNat_unitChar {u : UInt16} (hh : isHigh u = false) (hl : isLow u = false) :
    (unitChar u).toNat = u.toNat := by
  have hlt := u.toNat_lt
  simp only [isHigh, isLow, Bool.and_eq_false_iff, decide_eq_false_iff_not] at hh hl
  apply toNat_ofNat_char
  by_cases h : u.toNat < 0xD800
  · exact Or.inl h
  · exact Or.inr ⟨by omega, by omega⟩

/-- The code unit of a character from one is that one. -/
theorem units_unitChar {u : UInt16} (hh : isHigh u = false) (hl : isLow u = false) :
    units (unitChar u) = [u] := by
  have hlt := u.toNat_lt
  rw [units, toNat_unitChar hh hl, if_pos (by omega), UInt16.ofNat_toNat]

/-! ## Reading units as characters -/

/-- The characters of a list of units; a surrogate on its own is none. -/
def chars : List UInt16 → Option (List Char)
  | [] => some []
  | [u] => if isHigh u || isLow u then none else some [unitChar u]
  | u :: v :: us =>
    if isHigh u then
      if isLow v then (chars us).map fun cs => pairChar u v :: cs else none
    else if isLow u then none
    else (chars (v :: us)).map fun cs => unitChar u :: cs

/-- `String` of the units, if they are one. -/
def toString? (us : List UInt16) : Option String := (chars us).map String.ofList

theorem chars_unit {u : UInt16} (hh : isHigh u = false) (hl : isLow u = false) (us : List UInt16) :
    chars (u :: us) = (chars us).map fun cs => unitChar u :: cs := by
  cases us with
  | nil => simp [chars, hh, hl]
  | cons v us => simp [chars, hh, hl]

theorem chars_pair {u v : UInt16} (hu : isHigh u = true) (hv : isLow v = true) (us : List UInt16) :
    chars (u :: v :: us) = (chars us).map fun cs => pairChar u v :: cs := by
  simp [chars, hu, hv]

/-- The units of a character are read as that character. -/
theorem chars_units (c : Char) (us : List UInt16) :
    chars (units c ++ us) = (chars us).map fun cs => c :: cs := by
  have hvalid : c.toNat < 0xD800 ∨ 0xDFFF < c.toNat ∧ c.toNat < 0x110000 := c.valid
  unfold units
  split_ifs with h
  · have hn : (UInt16.ofNat c.toNat).toNat = c.toNat := UInt16.toNat_ofNat_of_lt' h
    have hh : isHigh (UInt16.ofNat c.toNat) = false := by
      simp only [isHigh, hn, Bool.and_eq_false_iff, decide_eq_false_iff_not]
      omega
    have hl : isLow (UInt16.ofNat c.toNat) = false := by
      simp only [isLow, hn, Bool.and_eq_false_iff, decide_eq_false_iff_not]
      omega
    have hc : unitChar (UInt16.ofNat c.toNat) = c := by rw [unitChar, hn, Char.ofNat_toNat]
    rw [List.singleton_append, chars_unit hh hl, hc]
  · have hhigh : (UInt16.ofNat (0xD800 + (c.toNat - 0x10000) / 0x400)).toNat =
        0xD800 + (c.toNat - 0x10000) / 0x400 :=
      UInt16.toNat_ofNat_of_lt' (show _ < 65536 by omega)
    have hlow : (UInt16.ofNat (0xDC00 + (c.toNat - 0x10000) % 0x400)).toNat =
        0xDC00 + (c.toNat - 0x10000) % 0x400 :=
      UInt16.toNat_ofNat_of_lt' (show _ < 65536 by omega)
    have hu : isHigh (UInt16.ofNat (0xD800 + (c.toNat - 0x10000) / 0x400)) = true := by
      simp only [isHigh, hhigh, Bool.and_eq_true, decide_eq_true_eq]
      omega
    have hv : isLow (UInt16.ofNat (0xDC00 + (c.toNat - 0x10000) % 0x400)) = true := by
      simp only [isLow, hlow, Bool.and_eq_true, decide_eq_true_eq]
      omega
    have hc : pairChar (UInt16.ofNat (0xD800 + (c.toNat - 0x10000) / 0x400))
        (UInt16.ofNat (0xDC00 + (c.toNat - 0x10000) % 0x400)) = c := by
      have hsum : 0x10000 + (0xD800 + (c.toNat - 0x10000) / 0x400 - 0xD800) * 0x400 +
          (0xDC00 + (c.toNat - 0x10000) % 0x400 - 0xDC00) = c.toNat := by omega
      rw [pairChar, hhigh, hlow, hsum, Char.ofNat_toNat]
    rw [List.cons_append, List.singleton_append, chars_pair hu hv, hc]

/-- **Units are read back** as the string they were made of. -/
theorem toString?_ofString (s : String) : toString? (ofString s) = some s := by
  have hchars : ∀ cs : List Char, chars (cs.flatMap units) = some cs := by
    intro cs
    induction cs with
    | nil => rfl
    | cons c cs ih =>
      rw [List.flatMap_cons, chars_units, ih]
      rfl
  rw [toString?, ofString, hchars, Option.map_some, String.ofList_toList]

end Utf16
