import Webmeow.Lib.JsonRoundTrip
import Mathlib.Data.List.TakeWhile

/-!
# `json.dumps`

The literals of integers and the texts that `json.dumps` of Python returns: a space follows every
comma and colon, and of a string only printable ASCII is left as it is. `JSON.parse` reads them.
-/

namespace JsonText

open Utf16

/-! ## Integers -/

/-- A natural number in decimal. -/
def natLiteral (n : ℕ) : List Char := Nat.toDigits 10 n

/-- An integer in decimal. -/
def intLiteral : Int → List Char
  | .ofNat n => natLiteral n
  | .negSucc n => '-' :: natLiteral (n + 1)

theorem isDigit_digitChar : ∀ n < 10, isDigit (Nat.digitChar n) = true := by decide

theorem digitChar_ne_zero : ∀ n < 10, n ≠ 0 → Nat.digitChar n ≠ '0' := by decide

/-- The digits of a positive number do not start with a zero. -/
theorem natLiteral_cons (n : ℕ) (hn : n ≠ 0) :
    ∃ c cs, natLiteral n = c :: cs ∧ c ≠ '0' ∧ ∀ d ∈ c :: cs, isDigit d = true := by
  induction n using Nat.strongRecOn with
  | _ n ih =>
    unfold natLiteral
    by_cases hlt : n < 10
    · refine ⟨_, [], Nat.toDigits_of_lt_base hlt, digitChar_ne_zero n hlt hn, ?_⟩
      intro d hd
      rw [List.mem_singleton.1 hd]
      exact isDigit_digitChar n hlt
    · obtain ⟨c, cs, htext, hc, hdigits⟩ := ih (n / 10) (by omega) (by omega)
      refine ⟨c, cs ++ [Nat.digitChar (n % 10)], ?_, hc, ?_⟩
      · rw [Nat.toDigits_of_base_le (by decide) (by omega), ← natLiteral, htext, List.cons_append]
      · intro d hd
        rw [← List.cons_append] at hd
        rcases List.mem_append.1 hd with hd | hd
        · exact hdigits d hd
        · rw [List.mem_singleton.1 hd]
          exact isDigit_digitChar _ (Nat.mod_lt n (by decide))

theorem isNumberChar_of_isDigit {c : Char} (h : isDigit c = true) : isNumberChar c = true := by
  simp [isNumberChar, h]

theorem isUnsigned_of_digits {c : Char} {cs : List Char} (hc : c ≠ '0')
    (h : ∀ d ∈ c :: cs, isDigit d = true) : isUnsigned (c :: cs) = true := by
  have hdrop : cs.dropWhile isDigit = [] :=
    List.dropWhile_eq_nil_iff.2 fun d hd => h d (List.mem_cons_of_mem c hd)
  rw [isUnsigned, if_neg hc, h c List.mem_cons_self, hdrop]
  rfl

theorem natLiteral_unsigned (n : ℕ) :
    isUnsigned (natLiteral n) = true ∧ ∀ c ∈ natLiteral n, isNumberChar c = true := by
  by_cases hn : n = 0
  · have hzero : natLiteral n = ['0'] := by rw [hn, natLiteral, Nat.toDigits_zero]
    rw [hzero]
    refine ⟨rfl, fun c hc => ?_⟩
    rw [List.mem_singleton.1 hc]
    rfl
  · obtain ⟨c, cs, htext, hc, hdigits⟩ := natLiteral_cons n hn
    rw [htext]
    exact ⟨isUnsigned_of_digits hc hdigits, fun d hd => isNumberChar_of_isDigit (hdigits d hd)⟩

theorem isNumber_of_unsigned {cs : List Char} (h : isUnsigned cs = true)
    (hchars : ∀ c ∈ cs, isNumberChar c = true) : isNumber cs = true := by
  cases cs with
  | nil => cases h
  | cons c cs =>
    have hc : c ≠ '-' := by
      rintro rfl
      cases h
    rw [isNumber, List.all_eq_true.2 hchars]
    simp only [if_neg hc, h, Bool.and_true]

/-- An integer is written as a number. -/
theorem isNumber_intLiteral (z : Int) : isNumber (intLiteral z) = true := by
  cases z with
  | ofNat n => exact isNumber_of_unsigned (natLiteral_unsigned n).1 (natLiteral_unsigned n).2
  | negSucc n =>
    obtain ⟨hunsigned, hchars⟩ := natLiteral_unsigned (n + 1)
    have hall : ('-' :: natLiteral (n + 1)).all isNumberChar = true := by
      rw [List.all_cons, List.all_eq_true.2 hchars]
      rfl
    rw [intLiteral, isNumber, hall]
    simp only [if_true, hunsigned, Bool.and_true]

/-- An integer as a number. -/
def Number.ofInt (z : Int) : Number := ⟨intLiteral z, isNumber_intLiteral z⟩

/-! ## Texts -/

/-- A code unit in a string of ASCII characters. -/
def asciiUnit (u : UInt16) : List Char :=
  match escapes.lookup u with
  | some letter => ['\x5c', letter]
  | none => if 0x20 ≤ u.toNat ∧ u.toNat ≤ 0x7E then [unitChar u] else unicodeEscape u

/-- A string of ASCII characters. -/
def asciiQuote (s : List UInt16) : List Char := '\x22' :: (s.flatMap asciiUnit ++ ['\x22'])

mutual

/-- `json.dumps` with its default separators. -/
def dumps : Value → List Char
  | .null => ['n', 'u', 'l', 'l']
  | .bool true => ['t', 'r', 'u', 'e']
  | .bool false => ['f', 'a', 'l', 's', 'e']
  | .num n => n.literal
  | .str s => asciiQuote s
  | .arr items => '[' :: (dumpsItems items ++ [']'])
  | .obj members => '\x7b' :: (dumpsMembers members ++ ['\x7d'])

/-- The items, separated by a comma and a space. -/
def dumpsItems : List Value → List Char
  | [] => []
  | v :: vs => dumps v ++ (if vs.isEmpty then [] else ',' :: ' ' :: dumpsItems vs)

/-- The members, separated by a comma and a space. -/
def dumpsMembers : List (List UInt16 × Value) → List Char
  | [] => []
  | (k, v) :: ms =>
    asciiQuote k ++ ':' :: ' ' ::
      (dumps v ++ (if ms.isEmpty then [] else ',' :: ' ' :: dumpsMembers ms))

end

/-! ## Reading them -/

/-- An escaped code unit is read back. -/
theorem parseUnits_asciiUnit (u : UInt16) (fuel : ℕ) (cs : List Char) :
    parseUnits (fuel + 1) (asciiUnit u ++ cs) =
      (parseUnits fuel cs).map fun q => (u :: q.1, q.2) := by
  unfold asciiUnit
  cases hl : escapes.lookup u with
  | some letter =>
    have hescape : parseEscape ([letter] ++ cs) = some (u, cs) := parseEscape_letter hl cs
    exact parseUnits_escape hescape fuel
  | none =>
    dsimp only
    split_ifs with hascii
    · have hh : isHigh u = false := by
        simp only [isHigh, Bool.and_eq_false_iff, decide_eq_false_iff_not]
        omega
      have hlow : isLow u = false := by
        simp only [isLow, Bool.and_eq_false_iff, decide_eq_false_iff_not]
        omega
      have hn := toNat_unitChar hh hlow
      obtain ⟨hq, hb⟩ := ne_of_lookup_none hl
      rw [List.singleton_append, parseUnits_char (by rwa [hn]) (by rwa [hn]) (by rw [hn]; omega),
        units_unitChar hh hlow]
      rfl
    · exact parseUnits_escape (parseEscape_unicodeEscape u cs) fuel

theorem asciiUnit_length (u : UInt16) : 1 ≤ (asciiUnit u).length := by
  unfold asciiUnit
  split
  · exact Nat.le_succ 1
  · split_ifs
    · exact Nat.le_refl 1
    · exact Nat.le_add_left 1 5

theorem parseUnits_asciiUnits (s : List UInt16) (rest : List Char) {fuel : ℕ}
    (hfuel : (s.flatMap asciiUnit).length < fuel) :
    parseUnits fuel (s.flatMap asciiUnit ++ '\x22' :: rest) = some (s, rest) := by
  obtain ⟨fuel, rfl⟩ : ∃ n, fuel = n + 1 := ⟨fuel - 1, by omega⟩
  induction s generalizing fuel with
  | nil => rfl
  | cons u s ih =>
    have hlen := asciiUnit_length u
    rw [List.flatMap_cons, List.length_append] at hfuel
    obtain ⟨fuel, rfl⟩ : ∃ n, fuel = n + 1 := ⟨fuel - 1, by omega⟩
    rw [List.flatMap_cons, List.append_assoc, parseUnits_asciiUnit, ih fuel (by omega)]
    rfl

/-- An escaped string is read back. -/
theorem parseString_asciiQuote (s : List UInt16) (rest : List Char) :
    parseString ((asciiQuote s).tail ++ rest) = some (s, rest) := by
  show parseUnits _ (s.flatMap asciiUnit ++ ['\x22'] ++ rest) = _
  rw [List.append_assoc]
  refine parseUnits_asciiUnits s rest ?_
  simp only [asciiQuote, List.tail_cons, List.length_append]
  omega

/-- The texts with a space before each but the first. -/
def gapped : List (List Char) → List (List Char)
  | [] => []
  | t :: ts => t :: ts.map (' ' :: ·)

/-- A member. -/
def memberDumps (m : List UInt16 × Value) : List Char := asciiQuote m.1 ++ ':' :: ' ' :: dumps m.2

theorem separated_gapped_cons (t : List Char) (ts : List (List Char)) :
    separated (gapped (t :: ts)) =
      t ++ (if ts.isEmpty then [] else ',' :: ' ' :: separated (gapped ts)) := by
  cases ts with
  | nil => rfl
  | cons t' ts => rfl

/-- The items as separated texts. -/
theorem dumpsItems_eq (vs : List Value) : dumpsItems vs = separated (gapped (vs.map dumps)) := by
  induction vs with
  | nil => rfl
  | cons v vs ih =>
    rw [dumpsItems, ih, List.map_cons, separated_gapped_cons, List.isEmpty_map]

/-- The members as separated texts. -/
theorem dumpsMembers_eq (ms : List (List UInt16 × Value)) :
    dumpsMembers ms = separated (gapped (ms.map memberDumps)) := by
  induction ms with
  | nil => rfl
  | cons m ms ih =>
    obtain ⟨k, v⟩ := m
    rw [dumpsMembers, ih, List.map_cons, separated_gapped_cons, List.isEmpty_map, memberDumps,
      List.append_assoc, List.cons_append, List.cons_append]

theorem length_le_separated_gapped {ts : List (List Char)} {t : List Char} (h : t ∈ ts) :
    t.length ≤ (separated (gapped ts)).length := by
  cases ts with
  | nil => cases h
  | cons t' ts =>
    rcases List.mem_cons.1 h with rfl | h
    · exact length_le_separated List.mem_cons_self
    · have hspaced := List.mem_map_of_mem (f := (' ' :: ·)) h
      have hle := length_le_separated (List.mem_cons_of_mem t' hspaced)
      exact Nat.le_of_succ_le hle

theorem opens_gapped {close : Char} {ts : List (List Char)} (h : Opens close ts) :
    Opens close (gapped ts) := by
  cases ts with
  | nil => exact h
  | cons t ts => exact h

theorem gapped_ne_nil {ts : List (List Char)} (h : ∀ t ∈ ts, t ≠ []) : ∀ t ∈ gapped ts, t ≠ [] := by
  cases ts with
  | nil => exact h
  | cons t ts =>
    intro t' ht'
    rcases List.mem_cons.1 ht' with rfl | ht'
    · exact h t' List.mem_cons_self
    · obtain ⟨t'', -, rfl⟩ := List.mem_map.1 ht'
      exact List.cons_ne_nil ' ' t''

/-- A parser that skips a space reads the texts with the spaces before them. -/
theorem reads_gapped {α : Type} {item : List Char → Option (α × List Char)}
    (hskip : ∀ cs, item (' ' :: cs) = item cs) {ts : List (List Char)} {xs : List α}
    (h : List.Forall₂ (Reads item) ts xs) : List.Forall₂ (Reads item) (gapped ts) xs := by
  cases h with
  | nil => exact List.Forall₂.nil
  | cons ht hts =>
    refine List.Forall₂.cons ht (List.forall₂_map_left_iff.2 (hts.imp fun t x htx rest hrest => ?_))
    rw [List.cons_append, hskip]
    exact htx rest hrest

/-- A space before a value is skipped. -/
theorem parseValue_space (fuel : ℕ) (cs : List Char) :
    parseValue fuel (' ' :: cs) = parseValue fuel cs := by
  cases fuel with
  | zero => rfl
  | succ fuel => rfl

theorem parseMember_space (value : List Char → Option (Value × List Char)) (cs : List Char) :
    parseMember value (' ' :: cs) = parseMember value cs := rfl

/-- A member is read back if its value is. -/
theorem parseMember_memberDumps {fuel : ℕ} {m : List UInt16 × Value}
    (h : Reads (parseValue fuel) (dumps m.2) m.2) :
    Reads (parseMember (parseValue fuel)) (memberDumps m) m := by
  intro rest hrest
  obtain ⟨k, v⟩ := m
  have htext : memberDumps (k, v) ++ rest =
      '\x22' :: ((asciiQuote k).tail ++ ':' :: ((' ' :: dumps v) ++ rest)) := by
    simp [memberDumps, asciiQuote]
  rw [htext]
  refine parseMember_text (parseString_asciiQuote k _) ?_
  rw [List.cons_append, parseValue_space]
  exact h rest hrest

/-- A value starts with no space and no closing bracket. -/
theorem dumps_head (v : Value) : ∃ c cs, dumps v = c :: cs ∧ isSpace c = false ∧ c ≠ ']' := by
  cases v with
  | null => exact ⟨_, _, rfl, rfl, by decide⟩
  | bool b =>
    cases b with
    | false => exact ⟨_, _, rfl, rfl, by decide⟩
    | true => exact ⟨_, _, rfl, rfl, by decide⟩
  | num n =>
    obtain ⟨c, cs, hn⟩ := n.eq_cons
    have hhead := number_head (n.chars c (hn ▸ List.mem_cons_self))
    exact ⟨c, cs, hn, hhead.1, hhead.2.1⟩
  | str s => exact ⟨_, _, rfl, rfl, by decide⟩
  | arr items => exact ⟨_, _, rfl, rfl, by decide⟩
  | obj members => exact ⟨_, _, rfl, rfl, by decide⟩

theorem dumps_ne_nil (v : Value) : dumps v ≠ [] := by
  obtain ⟨c, cs, hv, -⟩ := dumps_head v
  rw [hv]
  exact List.cons_ne_nil c cs

theorem memberDumps_head (m : List UInt16 × Value) :
    ∃ c cs, memberDumps m = c :: cs ∧ isSpace c = false ∧ c ≠ '\x7d' :=
  ⟨_, _, rfl, rfl, by decide⟩

/-- A value is read back with enough fuel. -/
theorem reads_dumps {v : Value} {fuel : ℕ} (hfuel : (dumps v).length < fuel) :
    Reads (parseValue fuel) (dumps v) v := by
  induction fuel generalizing v with
  | zero => exact absurd hfuel (Nat.not_lt_zero _)
  | succ fuel ih =>
    intro rest hrest
    cases v with
    | null => rfl
    | bool b =>
      cases b with
      | false => rfl
      | true => rfl
    | num n => exact parseValue_num n hrest fuel
    | str s => exact parseValue_str (parseString_asciiQuote s rest) fuel
    | arr items =>
      rw [dumps, dumpsItems_eq] at hfuel ⊢
      rw [List.length_cons, List.length_append] at hfuel
      have hitems : List.Forall₂ (Reads (parseValue fuel)) (items.map dumps) items := by
        refine forall₂_map_reads fun v hv => ih ?_
        have hle := length_le_separated_gapped (List.mem_map_of_mem (f := dumps) hv)
        omega
      exact parseValue_arr (opens_gapped (opens_map fun v _ => dumps_head v))
        (gapped_ne_nil (ne_nil_of_mem_map fun v _ => dumps_ne_nil v))
        (reads_gapped (parseValue_space fuel) hitems) rest
    | obj members =>
      rw [dumps, dumpsMembers_eq] at hfuel ⊢
      rw [List.length_cons, List.length_append] at hfuel
      have hmembers : List.Forall₂ (Reads (parseMember (parseValue fuel)))
          (members.map memberDumps) members := by
        refine forall₂_map_reads fun m hm => parseMember_memberDumps (ih ?_)
        have hle := length_le_separated_gapped (List.mem_map_of_mem (f := memberDumps) hm)
        rw [memberDumps, List.length_append, List.length_cons, List.length_cons] at hle
        omega
      exact parseValue_obj (opens_gapped (opens_map fun m _ => memberDumps_head m))
        (gapped_ne_nil (ne_nil_of_mem_map fun m _ => List.cons_ne_nil _ _))
        (reads_gapped (parseMember_space _) hmembers) rest

/-- **The round trip**: `JSON.parse` reads back what `json.dumps` returns. -/
theorem parse_dumps (v : Value) : parse (dumps v) = some v :=
  parse_of_reads (reads_dumps (Nat.lt_succ_self _))

/-! ## Line breaks -/

/-- A unit is written as `JSON.stringify` writes it, or as its number. -/
theorem asciiUnit_eq (u : UInt16) : asciiUnit u = quoteUnit u ∨ asciiUnit u = unicodeEscape u := by
  unfold asciiUnit quoteUnit
  cases hl : escapes.lookup u with
  | some letter => exact Or.inl rfl
  | none =>
    dsimp only
    by_cases hascii : 0x20 ≤ u.toNat ∧ u.toNat ≤ 0x7E
    · have hplain : (decide (u.toNat < 0x20) || isHigh u || isLow u) = false := by
        simp only [isHigh, isLow, Bool.or_eq_false_iff, Bool.and_eq_false_iff, decide_eq_false_iff_not]
        omega
      rw [if_pos hascii, if_neg (by rw [hplain]; exact Bool.false_ne_true)]
      exact Or.inl rfl
    · rw [if_neg hascii]
      exact Or.inr rfl

/-- A string has no line break. -/
theorem inLine_asciiQuote (s : List UInt16) : ∀ c ∈ asciiQuote s, InLine c := by
  refine inLine_bracket (by decide) (by decide) fun c hc => ?_
  obtain ⟨u, -, hu⟩ := List.mem_flatMap.1 hc
  rcases asciiUnit_eq u with h | h
  · exact inLine_quoteUnit u c (h ▸ hu)
  · exact inLine_unicodeEscape u c (h ▸ hu)

theorem inLine_space {cs : List Char} (h : ∀ c ∈ cs, InLine c) : ∀ c ∈ ' ' :: cs, InLine c := by
  intro c hc
  rcases List.mem_cons.1 hc with rfl | hc
  · decide
  · exact h c hc

mutual

/-- **One line**: what `json.dumps` returns has no line break. -/
theorem inLine_dumps : ∀ v, ∀ c ∈ dumps v, InLine c
  | .null => inLine_of_all (by decide)
  | .bool true => inLine_of_all (by decide)
  | .bool false => inLine_of_all (by decide)
  | .num n => inLine_literal n
  | .str s => inLine_asciiQuote s
  | .arr items => inLine_bracket (by decide) (by decide) (inLine_dumpsItems items)
  | .obj members => inLine_bracket (by decide) (by decide) (inLine_dumpsMembers members)

theorem inLine_dumpsItems : ∀ vs, ∀ c ∈ dumpsItems vs, InLine c
  | [] => fun c hc => by cases hc
  | v :: vs => fun c hc => by
    rw [dumpsItems] at hc
    rcases List.mem_append.1 hc with hc | hc
    · exact inLine_dumps v c hc
    · exact inLine_tail (inLine_space (inLine_dumpsItems vs)) c hc

theorem inLine_dumpsMembers : ∀ ms, ∀ c ∈ dumpsMembers ms, InLine c
  | [] => fun c hc => by cases hc
  | (k, v) :: ms => fun c hc => by
    rw [dumpsMembers] at hc
    rcases List.mem_append.1 hc with hc | hc
    · exact inLine_asciiQuote k c hc
    · rcases List.mem_cons.1 hc with rfl | hc
      · decide
      · rcases List.mem_cons.1 hc with rfl | hc
        · decide
        · rcases List.mem_append.1 hc with hc | hc
          · exact inLine_dumps v c hc
          · exact inLine_tail (inLine_space (inLine_dumpsMembers ms)) c hc

end

end JsonText
