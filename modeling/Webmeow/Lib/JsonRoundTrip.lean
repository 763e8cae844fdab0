import Webmeow.Lib.JsonText
import Mathlib.Data.List.Forall2

/-!
# What is stringified is parsed back

`parse (stringify v) = v` for every value, and a text that `stringify` returns has no line break,
since every control character of a string is escaped.
-/

namespace JsonText

open Utf16

/-! ## Strings -/

theorem hexValue_hexDigit : ∀ n < 0x10, hexValue (hexDigit n) = some n := by decide

/-- A numeric escape is read back. -/
theorem parseEscape_unicodeEscape (u : UInt16) (rest : List Char) :
    parseEscape ((unicodeEscape u).tail ++ rest) = some (u, rest) := by
  have hlt : u.toNat < 0x10000 := u.toNat_lt
  have ha := hexValue_hexDigit (u.toNat / 0x1000) (by omega)
  have hb := hexValue_hexDigit (u.toNat / 0x100 % 0x10) (by omega)
  have hc := hexValue_hexDigit (u.toNat / 0x10 % 0x10) (by omega)
  have hd := hexValue_hexDigit (u.toNat % 0x10) (by omega)
  have hsum : ((u.toNat / 0x1000 * 0x10 + u.toNat / 0x100 % 0x10) * 0x10 +
      u.toNat / 0x10 % 0x10) * 0x10 + u.toNat % 0x10 = u.toNat := by omega
  show ((hexValue _).bind fun a => (hexValue _).bind fun b => (hexValue _).bind fun c =>
    (hexValue _).bind fun d => some (UInt16.ofNat (((a * 0x10 + b) * 0x10 + c) * 0x10 + d), rest)) = _
  rw [ha, hb, hc, hd]
  show some (UInt16.ofNat _, rest) = some (u, rest)
  rw [hsum, UInt16.ofNat_toNat]

/-- A letter escape is read back. -/
theorem parseEscape_letter {u : UInt16} {letter : Char} (h : escapes.lookup u = some letter)
    (rest : List Char) : parseEscape (letter :: rest) = some (u, rest) := by
  obtain ⟨l₁, l₂, hl, -⟩ := List.lookup_eq_some_iff.1 h
  have hmem : (u, letter) ∈ escapes := hl ▸ List.mem_append_right l₁ List.mem_cons_self
  simp only [escapes, List.mem_cons, List.not_mem_nil, or_false, Prod.mk.injEq] at hmem
  rcases hmem with ⟨rfl, rfl⟩ | ⟨rfl, rfl⟩ | ⟨rfl, rfl⟩ | ⟨rfl, rfl⟩ | ⟨rfl, rfl⟩ | ⟨rfl, rfl⟩ |
    ⟨rfl, rfl⟩ <;> rfl

/-- A unit without a letter is neither a quote nor a backslash. -/
theorem ne_of_lookup_none {u : UInt16} (h : escapes.lookup u = none) :
    u.toNat ≠ 0x22 ∧ u.toNat ≠ 0x5C := by
  constructor
  · intro hu
    rw [show u = 0x22 from UInt16.toNat_inj.1 hu] at h
    exact absurd h (by decide)
  · intro hu
    rw [show u = 0x5C from UInt16.toNat_inj.1 hu] at h
    exact absurd h (by decide)

/-- A character that is not escaped is read as its units. -/
theorem parseUnits_char {c : Char} (hq : c.toNat ≠ 0x22) (hb : c.toNat ≠ 0x5C)
    (hc : ¬c.toNat < 0x20) (fuel : ℕ) (cs : List Char) :
    parseUnits (fuel + 1) (c :: cs) =
      (parseUnits fuel cs).map fun q => (units c ++ q.1, q.2) := by
  have hq' : c ≠ '\x22' := fun h => hq (h ▸ rfl)
  have hb' : c ≠ '\x5c' := fun h => hb (h ▸ rfl)
  rw [parseUnits, if_neg hq', if_neg hb', if_neg hc]

/-- An escape gives its code unit. -/
theorem parseUnits_escape {u : UInt16} {esc cs : List Char}
    (h : parseEscape (esc ++ cs) = some (u, cs)) (fuel : ℕ) :
    parseUnits (fuel + 1) ('\x5c' :: esc ++ cs) =
      (parseUnits fuel cs).map fun q => (u :: q.1, q.2) := by
  rw [List.cons_append, parseUnits, if_neg (by decide), if_pos rfl, h]
  rfl

/-- A unit is read back, whatever follows. -/
theorem parseUnits_quoteUnit (u : UInt16) (fuel : ℕ) (cs : List Char) :
    parseUnits (fuel + 1) (quoteUnit u ++ cs) =
      (parseUnits fuel cs).map fun q => (u :: q.1, q.2) := by
  unfold quoteUnit
  cases hl : escapes.lookup u with
  | some letter =>
    have hescape : parseEscape ([letter] ++ cs) = some (u, cs) := parseEscape_letter hl cs
    exact parseUnits_escape hescape fuel
  | none =>
    dsimp only
    split_ifs with hesc
    · exact parseUnits_escape (parseEscape_unicodeEscape u cs) fuel
    · simp only [Bool.or_eq_true, decide_eq_true_eq, not_or, Bool.not_eq_true] at hesc
      obtain ⟨⟨hctl, hh⟩, hlow⟩ := hesc
      have hn := toNat_unitChar hh hlow
      obtain ⟨hq, hb⟩ := ne_of_lookup_none hl
      rw [List.singleton_append, parseUnits_char (by rwa [hn]) (by rwa [hn]) (by rwa [hn]),
        units_unitChar hh hlow]
      rfl

theorem quoteUnit_length (u : UInt16) : 1 ≤ (quoteUnit u).length := by
  unfold quoteUnit
  split
  · exact Nat.le_succ 1
  · split_ifs
    · exact Nat.le_add_left 1 5
    · exact Nat.le_refl 1

/-- A pair of surrogates gives both. -/
theorem parseUnits_pair {u v : UInt16} (hu : isHigh u = true) (hv : isLow v = true) (fuel : ℕ)
    (cs : List Char) : parseUnits (fuel + 1) (pairChar u v :: cs) =
      (parseUnits fuel cs).map fun q => (u :: v :: q.1, q.2) := by
  have hn := toNat_pairChar hu hv
  rw [parseUnits_char (by omega) (by omega) (by omega), units_pairChar hu hv]
  rfl

/-- The code units of a string are read back. -/
theorem parseUnits_quoteUnits (s : List UInt16) (rest : List Char) {fuel : ℕ}
    (hfuel : (quoteUnits s).length < fuel) :
    parseUnits fuel (quoteUnits s ++ '\x22' :: rest) = some (s, rest) := by
  obtain ⟨fuel, rfl⟩ := Nat.exists_eq_succ_of_ne_zero (Nat.ne_of_gt (Nat.zero_lt_of_lt hfuel))
  induction s using quoteUnits.induct generalizing fuel with
  | case1 => rfl
  | case2 u =>
    have hlen := quoteUnit_length u
    rw [quoteUnits] at hfuel ⊢
    rw [parseUnits_quoteUnit]
    obtain ⟨fuel, rfl⟩ : ∃ n, fuel = n + 1 := ⟨fuel - 1, by omega⟩
    rfl
  | case3 u v us hpair ih =>
    obtain ⟨hu, hv⟩ := Bool.and_eq_true_iff.1 hpair
    rw [quoteUnits, if_pos hpair] at hfuel ⊢
    rw [List.length_cons] at hfuel
    obtain ⟨fuel, rfl⟩ : ∃ n, fuel = n + 1 := ⟨fuel - 1, by omega⟩
    rw [List.cons_append, parseUnits_pair hu hv, ih fuel (by omega)]
    rfl
  | case4 u v us hpair ih =>
    have hlen := quoteUnit_length u
    rw [quoteUnits, if_neg hpair] at hfuel ⊢
    rw [List.length_append] at hfuel
    obtain ⟨fuel, rfl⟩ : ∃ n, fuel = n + 1 := ⟨fuel - 1, by omega⟩
    rw [List.append_assoc, parseUnits_quoteUnit, ih fuel (by omega)]
    rfl

/-- A string is read back. -/
theorem parseString_quote (s : List UInt16) (rest : List Char) :
    parseString ((quote s).tail ++ rest) = some (s, rest) := by
  show parseUnits _ (quoteUnits s ++ ['\x22'] ++ rest) = _
  rw [List.append_assoc]
  refine parseUnits_quoteUnits s rest ?_
  simp only [quote, List.tail_cons, List.length_append]
  omega

/-! ## Lists -/

/-- The texts with commas between them. -/
def separated : List (List Char) → List Char
  | [] => []
  | t :: ts => t ++ (if ts.isEmpty then [] else ',' :: separated ts)

/-- A member. -/
def memberText (m : List UInt16 × Value) : List Char := quote m.1 ++ ':' :: stringify m.2

/-- The items as separated texts. -/
theorem stringifyItems_eq (vs : List Value) :
    stringifyItems vs = separated (vs.map stringify) := by
  induction vs with
  | nil => rfl
  | cons v vs ih => rw [stringifyItems, ih, List.map_cons, separated, List.isEmpty_map]

/-- The members as separated texts. -/
theorem stringifyMembers_eq (ms : List (List UInt16 × Value)) :
    stringifyMembers ms = separated (ms.map memberText) := by
  induction ms with
  | nil => rfl
  | cons m ms ih =>
    obtain ⟨k, v⟩ := m
    rw [stringifyMembers, ih, List.map_cons, separated, List.isEmpty_map, memberText,
      List.append_assoc, List.cons_append]

theorem length_le_separated {ts : List (List Char)} {t : List Char} (h : t ∈ ts) :
    t.length ≤ (separated ts).length := by
  induction ts with
  | nil => cases h
  | cons t' ts ih =>
    rw [separated, List.length_append]
    rcases List.mem_cons.1 h with rfl | h
    · exact Nat.le_add_right _ _
    · have hne : ts.isEmpty = false := List.isEmpty_eq_false_iff_exists_mem.2 ⟨t, h⟩
      have := ih h
      rw [hne]
      simp only [Bool.false_eq_true, if_false, List.length_cons]
      omega

theorem length_le_length_separated {ts : List (List Char)} (h : ∀ t ∈ ts, t ≠ []) :
    ts.length ≤ (separated ts).length := by
  induction ts with
  | nil => exact Nat.le_refl 0
  | cons t ts ih =>
    have ht := List.length_pos_iff.2 (h t List.mem_cons_self)
    have hts := ih fun t' ht' => h t' (List.mem_cons_of_mem t ht')
    rw [separated, List.length_append]
    cases ts with
    | nil => exact Nat.le_add_right_of_le ht
    | cons t' ts =>
      simp only [List.isEmpty_cons, Bool.false_eq_true, if_false, List.length_cons] at hts ⊢
      omega

theorem skipSpace_cons {c : Char} (h : isSpace c = false) (cs : List Char) :
    skipSpace (c :: cs) = c :: cs := by
  rw [skipSpace, List.dropWhile_cons, if_neg (by rw [h]; exact Bool.false_ne_true)]

/-- The text does not go on with a character of a number. -/
def Stops (cs : List Char) : Prop := ∀ c ∈ cs.head?, isNumberChar c = false

/-- The text is read back, whatever it is followed by. -/
def Reads {α : Type} (item : List Char → Option (α × List Char)) (text : List Char) (x : α) : Prop :=
  ∀ rest, Stops rest → item (text ++ rest) = some (x, rest)

theorem forall₂_map_reads {α : Type} {item : List Char → Option (α × List Char)}
    {text : α → List Char} {xs : List α} (h : ∀ x ∈ xs, Reads item (text x) x) :
    List.Forall₂ (Reads item) (xs.map text) xs := by
  rw [List.forall₂_map_left_iff, List.forall₂_same]
  exact h

/-- Items that are read back one by one are read back as a list. -/
theorem parseList_separated {α : Type} {item : List Char → Option (α × List Char)} {close : Char}
    (hspace : isSpace close = false) (hcomma : close ≠ ',') (hstop : isNumberChar close = false)
    {ts : List (List Char)} {xs : List α} (hne : xs ≠ []) (hitems : List.Forall₂ (Reads item) ts xs)
    {fuel : ℕ} (hfuel : xs.length ≤ fuel) (rest : List Char) :
    parseList item close fuel (separated ts ++ close :: rest) = some (xs, rest) := by
  induction hitems generalizing fuel with
  | nil => exact absurd rfl hne
  | @cons t x ts xs hx hxs ih =>
    obtain ⟨fuel, rfl⟩ : ∃ n, fuel = n + 1 := ⟨fuel - 1, by rw [List.length_cons] at hfuel; omega⟩
    rw [separated, parseList, List.append_assoc]
    cases hxs with
    | nil =>
      have hclose : Stops (close :: rest) := fun c hc => by cases hc; exact hstop
      rw [List.isEmpty_nil, if_pos rfl, List.nil_append, hx _ hclose]
      simp only [Option.bind_some, skipSpace_cons hspace, if_neg hcomma, if_true]
    | @cons t' y ts ys hy hys =>
      have hmore : Stops (',' :: (separated (t' :: ts) ++ close :: rest)) :=
        fun c hc => by cases hc; decide
      rw [List.isEmpty_cons, if_neg Bool.false_ne_true, List.cons_append, hx _ hmore]
      have htail := ih (List.cons_ne_nil y ys) (Nat.le_of_succ_le_succ hfuel)
      rw [Option.bind_some]
      simp only [skipSpace_cons (by decide : isSpace ',' = false), if_true, htail, Option.map_some]

/-! ## Values -/

/-- A literal is of number characters. -/
theorem Number.chars (n : Number) : ∀ c ∈ n.literal, isNumberChar c = true := by
  have h := n.valid
  unfold isNumber at h
  exact List.all_eq_true.1 (Bool.and_eq_true_iff.1 h).1

theorem Number.eq_cons (n : Number) : ∃ c cs, n.literal = c :: cs := by
  have h := n.valid
  cases hl : n.literal with
  | nil =>
    rw [hl] at h
    cases h
  | cons c cs => exact ⟨c, cs, rfl⟩

theorem Stops.takeWhile {cs : List Char} (h : Stops cs) :
    cs.takeWhile isNumberChar = [] ∧ cs.dropWhile isNumberChar = cs := by
  cases cs with
  | nil => exact ⟨rfl, rfl⟩
  | cons c cs =>
    have hc : ¬isNumberChar c = true := by
      rw [h c rfl]
      exact Bool.false_ne_true
    rw [List.takeWhile_cons, List.dropWhile_cons, if_neg hc, if_neg hc]
    exact ⟨rfl, rfl⟩

/-- A number is read back. -/
theorem parseNumber_literal (n : Number) {rest : List Char} (h : Stops rest) :
    parseNumber (n.literal ++ rest) = some (.num n, rest) := by
  have htake : (n.literal ++ rest).takeWhile isNumberChar = n.literal := by
    rw [List.takeWhile_append_of_pos n.chars, h.takeWhile.1, List.append_nil]
  have hdrop : (n.literal ++ rest).dropWhile isNumberChar = rest := by
    rw [List.dropWhile_append_of_pos n.chars, h.takeWhile.2]
  unfold parseNumber
  rw [dif_pos (by rw [htake]; exact n.valid), hdrop]
  obtain ⟨literal, valid⟩ := n
  simp only [htake]

/-- A number starts unlike any other value. -/
theorem number_head {c : Char} (h : isNumberChar c = true) :
    isSpace c = false ∧ c ≠ ']' ∧ c ≠ '\x22' ∧ c ≠ '[' ∧ c ≠ '\x7b' ∧ c ≠ 'n' ∧ c ≠ 't' ∧ c ≠ 'f' := by
  refine ⟨?_, ?_, ?_, ?_, ?_, ?_, ?_, ?_⟩
  · cases hs : isSpace c with
    | false => rfl
    | true =>
      simp only [isSpace, Bool.or_eq_true, decide_eq_true_eq] at hs
      rcases hs with ((rfl | rfl) | rfl) | rfl <;> exact absurd h (by decide)
  all_goals
    rintro rfl
    exact absurd h (by decide)

/-- A text starts with a character that is neither a space nor a closing bracket. -/
theorem stringify_head (v : Value) :
    ∃ c cs, stringify v = c :: cs ∧ isSpace c = false ∧ c ≠ ']' := by
  cases v with
  | null => exact ⟨_, _, rfl, rfl, by decide⟩
  | bool b =>
    cases b with
    | false => exact ⟨_, _, rfl, rfl, by decide⟩
    | true => exact ⟨_, _, rfl, rfl, by decide⟩
  | num n =>
    obtain ⟨c, cs, hn⟩ := n.eq_cons
    have hhead := number_head (n.chars c (hn ▸ List.mem_cons_self))
    exact ⟨c, cs, hn, hhead.1, hhead.2.1⟩
  | str s => exact ⟨_, _, rfl, rfl, by decide⟩
  | arr items => exact ⟨_, _, rfl, rfl, by decide⟩
  | obj members => exact ⟨_, _, rfl, rfl, by decide⟩

/-- A member is read back if its parts are. -/
theorem parseMember_text {value : List Char → Option (Value × List Char)} {key t : List Char}
    {k : List UInt16} {v : Value} {rest : List Char}
    (hkey : parseString (key ++ ':' :: (t ++ rest)) = some (k, ':' :: (t ++ rest)))
    (hvalue : value (t ++ rest) = some (v, rest)) :
    parseMember value ('\x22' :: (key ++ ':' :: (t ++ rest))) = some ((k, v), rest) := by
  rw [parseMember]
  simp only [skipSpace_cons (by decide : isSpace '\x22' = false), if_true, hkey, Option.bind_some,
    skipSpace_cons (by decide : isSpace ':' = false)]
  rw [hvalue]
  rfl

theorem parseMember_memberText {value : List Char → Option (Value × List Char)}
    {m : List UInt16 × Value} (h : Reads value (stringify m.2) m.2) :
    Reads (parseMember value) (memberText m) m := by
  intro rest hrest
  obtain ⟨k, v⟩ := m
  have htext : memberText (k, v) ++ rest =
      '\x22' :: ((quote k).tail ++ ':' :: (stringify v ++ rest)) := by
    simp [memberText, quote]
  rw [htext]
  exact parseMember_text (parseString_quote k _) (h rest hrest)

/-- The first of the texts, if there is one, starts with a character that is neither a space nor a
closing bracket. -/
def Opens (close : Char) (ts : List (List Char)) : Prop :=
  ∀ t ∈ ts.head?, ∃ c cs, t = c :: cs ∧ isSpace c = false ∧ c ≠ close

theorem opens_map {α : Type} {text : α → List Char} {close : Char} {xs : List α}
    (h : ∀ x ∈ xs, ∃ c cs, text x = c :: cs ∧ isSpace c = false ∧ c ≠ close) :
    Opens close (xs.map text) := by
  intro t ht
  cases xs with
  | nil => cases ht
  | cons x xs =>
    cases ht
    exact h x List.mem_cons_self

/-- A bracket with items that are read back. -/
theorem parseBracket_separated {α : Type} {item : List Char → Option (α × List Char)} {close : Char}
    (hspace : isSpace close = false) (hcomma : close ≠ ',') (hstop : isNumberChar close = false)
    {ts : List (List Char)} {xs : List α} (hhead : Opens close ts) (hne : ∀ t ∈ ts, t ≠ [])
    (hitems : List.Forall₂ (Reads item) ts xs) (rest : List Char) :
    parseBracket item close (separated ts ++ close :: rest) = some (xs, rest) := by
  cases hitems with
  | nil =>
    rw [parseBracket, separated, List.nil_append, skipSpace_cons hspace]
    simp only [if_true]
  | @cons t x ts xs hx hxs =>
    obtain ⟨c, cs, htext, hc, hclose⟩ := hhead t rfl
    have hlen : (x :: xs).length ≤ (separated (t :: ts) ++ close :: rest).length := by
      have hle := length_le_length_separated hne
      have hsame := hxs.length_eq
      rw [List.length_cons] at hle ⊢
      rw [List.length_append]
      omega
    have hlist := parseList_separated hspace hcomma hstop (List.cons_ne_nil x xs)
      (List.Forall₂.cons hx hxs) hlen rest
    rw [parseBracket, hlist]
    rw [separated, htext, List.cons_append, List.cons_append, skipSpace_cons hc]
    simp only [if_neg hclose]

/-- A number is read back as a value. -/
theorem parseValue_num (n : Number) {rest : List Char} (hrest : Stops rest) (fuel : ℕ) :
    parseValue (fuel + 1) (n.literal ++ rest) = some (.num n, rest) := by
  obtain ⟨c, cs, hn⟩ := n.eq_cons
  obtain ⟨hspace, -, h1, h2, h3, h4, h5, h6⟩ := number_head (n.chars c (hn ▸ List.mem_cons_self))
  have hnumber := parseNumber_literal n hrest
  rw [hn, List.cons_append] at hnumber ⊢
  rw [parseValue]
  simp only [skipSpace_cons hspace, if_neg h1, if_neg h2, if_neg h3, if_neg h4, if_neg h5, if_neg h6]
  exact hnumber

/-- A string is read back as a value. -/
theorem parseValue_str {text : List Char} {s : List UInt16} {rest : List Char}
    (h : parseString (text ++ rest) = some (s, rest)) (fuel : ℕ) :
    parseValue (fuel + 1) ('\x22' :: (text ++ rest)) = some (.str s, rest) := by
  rw [parseValue]
  simp only [skipSpace_cons (by decide : isSpace '\x22' = false), if_true, h, Option.map_some]

/-- An array is read back if its items are. -/
theorem parseValue_arr {ts : List (List Char)} {items : List Value} {fuel : ℕ} (hhead : Opens ']' ts)
    (hne : ∀ t ∈ ts, t ≠ []) (hitems : List.Forall₂ (Reads (parseValue fuel)) ts items)
    (rest : List Char) :
    parseValue (fuel + 1) ('[' :: (separated ts ++ [']']) ++ rest) = some (.arr items, rest) := by
  rw [List.cons_append, List.append_assoc, List.singleton_append, parseValue]
  simp only [skipSpace_cons (by decide : isSpace '[' = false),
    if_neg (by decide : ('[' : Char) ≠ '\x22'), if_true]
  rw [parseBracket_separated (by decide) (by decide) (by decide) hhead hne hitems]
  rfl

/-- An object is read back if its members are. -/
theorem parseValue_obj {ts : List (List Char)} {members : List (List UInt16 × Value)} {fuel : ℕ}
    (hhead : Opens '\x7d' ts) (hne : ∀ t ∈ ts, t ≠ [])
    (hmembers : List.Forall₂ (Reads (parseMember (parseValue fuel))) ts members)
    (rest : List Char) :
    parseValue (fuel + 1) ('\x7b' :: (separated ts ++ ['\x7d']) ++ rest) =
      some (.obj members, rest) := by
  rw [List.cons_append, List.append_assoc, List.singleton_append, parseValue]
  simp only [skipSpace_cons (by decide : isSpace '\x7b' = false),
    if_neg (by decide : ('\x7b' : Char) ≠ '\x22'), if_neg (by decide : ('\x7b' : Char) ≠ '['),
    if_true]
  rw [parseBracket_separated (by decide) (by decide) (by decide) hhead hne hmembers]
  rfl

theorem ne_nil_of_mem_map {α : Type} {text : α → List Char} {xs : List α}
    (h : ∀ x ∈ xs, text x ≠ []) : ∀ t ∈ xs.map text, t ≠ [] := by
  intro t ht
  obtain ⟨x, hx, rfl⟩ := List.mem_map.1 ht
  exact h x hx

theorem stringify_ne_nil (v : Value) : stringify v ≠ [] := by
  obtain ⟨c, cs, hv, -⟩ := stringify_head v
  rw [hv]
  exact List.cons_ne_nil c cs

theorem memberText_head (m : List UInt16 × Value) :
    ∃ c cs, memberText m = c :: cs ∧ isSpace c = false ∧ c ≠ '\x7d' :=
  ⟨_, _, rfl, rfl, by decide⟩

/-- A value is read back with enough fuel. -/
theorem reads_stringify {v : Value} {fuel : ℕ} (hfuel : (stringify v).length < fuel) :
    Reads (parseValue fuel) (stringify v) v := by
  -- the texts of the parts are shorter, so the induction is on the fuel
  induction fuel generalizing v with
  | zero => exact absurd hfuel (Nat.not_lt_zero _)
  | succ fuel ih =>
    intro rest hrest
    cases v with
    | null => rfl
    | bool b =>
      cases b with
      | false => rfl
      | true => rfl
    | num n => exact parseValue_num n hrest fuel
    | str s => exact parseValue_str (parseString_quote s rest) fuel
    | arr items =>
      rw [stringify, stringifyItems_eq] at hfuel ⊢
      rw [List.length_cons, List.length_append] at hfuel
      refine parseValue_arr (opens_map fun v _ => stringify_head v)
        (ne_nil_of_mem_map fun v _ => stringify_ne_nil v) (forall₂_map_reads fun v hv => ih ?_) rest
      have hle := length_le_separated (List.mem_map_of_mem (f := stringify) hv)
      omega
    | obj members =>
      rw [stringify, stringifyMembers_eq] at hfuel ⊢
      rw [List.length_cons, List.length_append] at hfuel
      refine parseValue_obj (opens_map fun m _ => memberText_head m)
        (ne_nil_of_mem_map fun m _ => List.cons_ne_nil _ _)
        (forall₂_map_reads fun m hm => parseMember_memberText (ih ?_)) rest
      have hle := length_le_separated (List.mem_map_of_mem (f := memberText) hm)
      rw [memberText, List.length_append, List.length_cons] at hle
      omega

/-- A value whose text is read back with enough fuel is parsed. -/
theorem parse_of_reads {text : List Char} {v : Value}
    (h : Reads (parseValue (text.length + 1)) text v) : parse text = some v := by
  have hv := h [] fun c hc => by cases hc
  rw [List.append_nil] at hv
  rw [parse, hv]
  rfl

/-- **The round trip**: every value is parsed back from its text. -/
theorem parse_stringify (v : Value) : parse (stringify v) = some v :=
  parse_of_reads (reads_stringify (Nat.lt_succ_self _))

/-! ## Line breaks -/

/-- Neither a line feed nor a carriage return. -/
def InLine (c : Char) : Prop := c ≠ '\n' ∧ c ≠ '\r'

instance (c : Char) : Decidable (InLine c) := inferInstanceAs (Decidable (_ ∧ _))

theorem inLine_of_all {cs : List Char} (h : cs.all (fun c => InLine c) = true) : ∀ c ∈ cs, InLine c := by
  intro c hc
  exact of_decide_eq_true (List.all_eq_true.1 h c hc)

theorem inLine_of_toNat {c : Char} (h : 0x20 ≤ c.toNat) : InLine c := by
  constructor
  · rintro rfl
    exact absurd h (by decide)
  · rintro rfl
    exact absurd h (by decide)

theorem inLine_hexDigit : ∀ n < 0x10, InLine (hexDigit n) := by decide

theorem inLine_unicodeEscape (u : UInt16) : ∀ c ∈ unicodeEscape u, InLine c := by
  have hlt : u.toNat < 0x10000 := u.toNat_lt
  intro c hc
  simp only [unicodeEscape, List.mem_cons, List.not_mem_nil, or_false] at hc
  rcases hc with rfl | rfl | rfl | rfl | rfl | rfl
  · decide
  · decide
  all_goals exact inLine_hexDigit _ (by omega)

theorem inLine_quoteUnit (u : UInt16) : ∀ c ∈ quoteUnit u, InLine c := by
  unfold quoteUnit
  cases hl : escapes.lookup u with
  | some letter =>
    obtain ⟨l₁, l₂, he, -⟩ := List.lookup_eq_some_iff.1 hl
    have hmem : (u, letter) ∈ escapes := he ▸ List.mem_append_right l₁ List.mem_cons_self
    have hletter : ∀ p ∈ escapes, InLine p.2 := by decide
    intro c hc
    rcases List.mem_cons.1 hc with rfl | hc
    · decide
    · rw [List.mem_singleton.1 hc]
      exact hletter _ hmem
  | none =>
    dsimp only
    split_ifs with hesc
    · exact inLine_unicodeEscape u
    · simp only [Bool.or_eq_true, decide_eq_true_eq, not_or, Bool.not_eq_true] at hesc
      obtain ⟨⟨hctl, hh⟩, hlow⟩ := hesc
      intro c hc
      rw [List.mem_singleton.1 hc]
      apply inLine_of_toNat
      rw [toNat_unitChar hh hlow]
      omega

theorem inLine_quoteUnits (s : List UInt16) : ∀ c ∈ quoteUnits s, InLine c := by
  induction s using quoteUnits.induct with
  | case1 => exact fun c hc => by cases hc
  | case2 u => exact inLine_quoteUnit u
  | case3 u v us hpair ih =>
    obtain ⟨hu, hv⟩ := Bool.and_eq_true_iff.1 hpair
    have hge : 0x20 ≤ (pairChar u v).toNat := by
      rw [toNat_pairChar hu hv]
      omega
    rw [quoteUnits, if_pos hpair]
    intro c hc
    rcases List.mem_cons.1 hc with hc | hc
    · rw [hc]
      exact inLine_of_toNat hge
    · exact ih c hc
  | case4 u v us hpair ih =>
    rw [quoteUnits, if_neg hpair]
    intro c hc
    rcases List.mem_append.1 hc with hc | hc
    · exact inLine_quoteUnit u c hc
    · exact ih c hc

/-- A string has no line break. -/
theorem inLine_quote (s : List UInt16) : ∀ c ∈ quote s, InLine c := by
  intro c hc
  rcases List.mem_cons.1 hc with rfl | hc
  · decide
  · rcases List.mem_append.1 hc with hc | hc
    · exact inLine_quoteUnits s c hc
    · rw [List.mem_singleton.1 hc]
      decide

/-- An optional rest after a comma. -/
theorem inLine_tail {b : Bool} {cs : List Char} (h : ∀ c ∈ cs, InLine c) :
    ∀ c ∈ if b then [] else ',' :: cs, InLine c := by
  intro c hc
  split_ifs at hc with hb
  · cases hc
  · rcases List.mem_cons.1 hc with rfl | hc
    · decide
    · exact h c hc

/-- Brackets are no line breaks. -/
theorem inLine_bracket {l r : Char} (hl : InLine l) (hr : InLine r) {cs : List Char}
    (h : ∀ c ∈ cs, InLine c) : ∀ c ∈ l :: (cs ++ [r]), InLine c := by
  intro c hc
  rcases List.mem_cons.1 hc with rfl | hc
  · exact hl
  · rcases List.mem_append.1 hc with hc | hc
    · exact h c hc
    · rw [List.mem_singleton.1 hc]
      exact hr

theorem inLine_literal (n : Number) : ∀ c ∈ n.literal, InLine c := by
  intro c hc
  have h := (number_head (n.chars c hc)).1
  constructor
  · rintro rfl
    exact absurd h (by decide)
  · rintro rfl
    exact absurd h (by decide)

mutual

/-- **One line**: a text has no line break, whatever the strings in the value are. -/
theorem inLine_stringify : ∀ v, ∀ c ∈ stringify v, InLine c
  | .null => inLine_of_all (by decide)
  | .bool true => inLine_of_all (by decide)
  | .bool false => inLine_of_all (by decide)
  | .num n => inLine_literal n
  | .str s => inLine_quote s
  | .arr items => inLine_bracket (by decide) (by decide) (inLine_stringifyItems items)
  | .obj members => inLine_bracket (by decide) (by decide) (inLine_stringifyMembers members)

theorem inLine_stringifyItems : ∀ vs, ∀ c ∈ stringifyItems vs, InLine c
  | [] => fun c hc => by cases hc
  | v :: vs => fun c hc => by
    rw [stringifyItems] at hc
    rcases List.mem_append.1 hc with hc | hc
    · exact inLine_stringify v c hc
    · exact inLine_tail (inLine_stringifyItems vs) c hc

theorem inLine_stringifyMembers : ∀ ms, ∀ c ∈ stringifyMembers ms, InLine c
  | [] => fun c hc => by cases hc
  | (k, v) :: ms => fun c hc => by
    rw [stringifyMembers] at hc
    rcases List.mem_append.1 hc with hc | hc
    · exact inLine_quote k c hc
    · rcases List.mem_cons.1 hc with rfl | hc
      · decide
      · rcases List.mem_append.1 hc with hc | hc
        · exact inLine_stringify v c hc
        · exact inLine_tail (inLine_stringifyMembers ms) c hc

end

end JsonText
