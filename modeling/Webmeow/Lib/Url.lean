import Webmeow.Lib.Separators
import Mathlib.Data.List.Sort
import Mathlib.Data.String.Basic

/-!
# URLs as the Go library `net/url` reads and writes them

A Go string is a string of bytes; a byte is the character with its code. A URL keeps the decoded path,
and the path as it was written only where that is not the default encoding of the decoded one.
-/

namespace Url

open Separators

/-- What a text is escaped for. -/
inductive Encoding where
  /-- A path. -/
  | path
  /-- A key or a value of a query. -/
  | queryComponent
deriving DecidableEq

/-- The value of a hexadecimal digit. -/
def unhex (c : Char) : Option ℕ :=
  if '0' ≤ c ∧ c ≤ '9' then some (c.toNat - '0'.toNat)
  else if 'a' ≤ c ∧ c ≤ 'f' then some (c.toNat - 'a'.toNat + 10)
  else if 'A' ≤ c ∧ c ≤ 'F' then some (c.toNat - 'A'.toNat + 10)
  else none

/-- `none` is an `EscapeError`. -/
def unescape (mode : Encoding) : List Char → Option (List Char)
  | [] => some []
  | '%' :: a :: b :: s =>
    match unhex a, unhex b, unescape mode s with
    | some hi, some lo, some t => some (Char.ofNat (16 * hi + lo) :: t)
    | _, _, _ => none
  | '%' :: _ => none
  | c :: s => (unescape mode s).map ((if c = '+' ∧ mode = .queryComponent then ' ' else c) :: ·)

/-- Whether a byte has to be escaped. -/
def shouldEscape (mode : Encoding) (c : Char) : Bool :=
  if ('a' ≤ c ∧ c ≤ 'z') ∨ ('A' ≤ c ∧ c ≤ 'Z') ∨ ('0' ≤ c ∧ c ≤ '9') then false
  else if c ∈ ['-', '_', '.', '~'] then false
  else if c ∈ ['$', '&', '+', ',', '/', ':', ';', '=', '?', '@'] then
    match mode with
    | .path => c = '?'
    | .queryComponent => true
  else true

/-- The digits of an escape. -/
def upperhex : List Char :=
  ['0', '1', '2', '3', '4', '5', '6', '7', '8', '9', 'A', 'B', 'C', 'D', 'E', 'F']

/-- A byte, escaped if it has to be. -/
def escapeByte (mode : Encoding) (c : Char) : List Char :=
  if c = ' ' ∧ mode = .queryComponent then ['+']
  else if shouldEscape mode c then
    ['%', upperhex.getD (c.toNat / 16 % 16) '0', upperhex.getD (c.toNat % 16) '0']
  else [c]

/-- A text, escaped. -/
def escape (mode : Encoding) (s : List Char) : List Char := s.flatMap (escapeByte mode)

/-! ## URLs -/

/-- The parts of a URL that the target of a request gives. -/
structure URL where
  /-- The path. -/
  path : List Char
  /-- The path as it was written, if escaping the path does not give that. -/
  rawPath : List Char
  /-- The query as it was written. -/
  rawQuery : List Char
  /-- A raw path is an encoding of the path. -/
  encodes : rawPath ≠ [] → unescape .path rawPath = some path

/-- `strings.Cut`. -/
def cut (sep : Char) (s : List Char) : List Char × List Char :=
  (s.takeWhile (· ≠ sep), (s.dropWhile (· ≠ sep)).tail)

/-- `URL.setPath`. -/
def setPath (p rawQuery : List Char) : Option URL :=
  match h : unescape .path p with
  | none => none
  | some path =>
    if escape .path path = p then some ⟨path, [], rawQuery, fun hne => absurd rfl hne⟩
    else some ⟨path, p, rawQuery, fun _ => h⟩

/-- `url.ParseRequestURI` of a target that starts with a slash. -/
def parseRequestURI (target : List Char) : Option URL :=
  if target.any fun c => c < ' ' ∨ c = '\x7f' then none
  else
    let (p, rawQuery) := cut '?' target
    if p.head? = some '/' then setPath p rawQuery else none

/-! ## Queries -/

/-- One pair of a query; `none` for a pair that is dropped. -/
def parsePair (pair : List Char) : Option (List Char × List Char) :=
  if ';' ∈ pair ∨ pair = [] then none
  else do
    let (key, value) := cut '=' pair
    let key ← unescape .queryComponent key
    let value ← unescape .queryComponent value
    some (key, value)

/-- `URL.Query`: the values in the order of the query, each with its key. -/
def parseQuery (query : List Char) : List (List Char × List Char) :=
  (query.splitOn '&').filterMap parsePair

/-- A key and a value. -/
def encodePair (pair : List Char × List Char) : List Char :=
  escape .queryComponent pair.1 ++ '=' :: escape .queryComponent pair.2

/-- The order of strings, byte by byte. -/
def stringLE : List Char → List Char → Bool
  | [], _ => true
  | _ :: _, [] => false
  | a :: s, b :: t => a < b || (a = b && stringLE s t)

/-- `Values.Encode`: sorted by key, the values of one key in their order. -/
def encode (values : List (List Char × List Char)) : List Char :=
  ['&'].intercalate ((values.insertionSort fun a b => stringLE a.1 b.1).map encodePair)

/-! ## Decoding -/

theorem unescape_cons {mode : Encoding} {c : Char} (hc : c ≠ '%') (s : List Char) :
    unescape mode (c :: s) = (unescape mode s).map
      ((if c = '+' ∧ mode = .queryComponent then ' ' else c) :: ·) := by
  rw [unescape.eq_4]
  · intro a b s h
    exact absurd h hc
  · exact hc

/-- Text without an escape is decoded as it is. -/
theorem unescape_append {r : List Char} (hr : '%' ∉ r) (s : List Char) :
    unescape .path (r ++ s) = (unescape .path s).map (r ++ ·) := by
  induction r with
  | nil => simp
  | cons c r ih =>
    have hc : c ≠ '%' := fun h => hr (h ▸ List.mem_cons_self)
    have ih' := ih fun h => hr (List.mem_cons_of_mem _ h)
    rw [List.cons_append, unescape_cons hc, ih']
    cases unescape .path s with
    | none => rfl
    | some t => simp

/-- The shape of a text and its decoding: an escape becomes one character, and so does every other
character. -/
inductive Decodes : List Char → List Char → Prop where
  /-- The empty text. -/
  | nil : Decodes [] []
  /-- An escape stands for one byte. -/
  | escape (a b c : Char) {s t : List Char} (h : Decodes s t) : Decodes ('%' :: a :: b :: s) (c :: t)
  /-- Any other byte stands for one. -/
  | plain {c : Char} (hc : c ≠ '%') (d : Char) {s t : List Char} (h : Decodes s t) :
      Decodes (c :: s) (d :: t)

/-- Unescaping reads byte by byte. -/
theorem decodes {mode : Encoding} {s t : List Char} (h : unescape mode s = some t) :
    Decodes s t := by
  induction s using unescape.induct mode generalizing t with
  | case1 =>
    cases h
    exact .nil
  | case2 a b s hi lo rest hs hb ha ih =>
    rw [unescape, ha, hb, hs] at h
    cases h
    exact .escape a b _ (ih hs)
  | case3 a b s hnone ih =>
    rw [unescape] at h
    split at h
    · next hi lo rest ha hb hs => exact (hnone hi lo rest ha hb hs).elim
    · cases h
  | case4 s hs =>
    rw [unescape] at h
    · cases h
    · exact hs
  | case5 c s _ hc ih =>
    rw [unescape_cons hc, Option.map_eq_some_iff] at h
    obtain ⟨rest, hrest, rfl⟩ := h
    exact .plain hc _ (ih hrest)

/-- Decoding never makes a text longer. -/
theorem Decodes.length_le {s t : List Char} (h : Decodes s t) : t.length ≤ s.length := by
  induction h with
  | nil => exact le_rfl
  | escape a b c h ih =>
    simp only [List.length_cons]
    omega
  | plain hc d h ih =>
    simp only [List.length_cons]
    omega

/-! ## The characters of an encoded query -/

/-- The characters that an encoded query may have. -/
def isQueryChar (c : Char) : Bool := c ∉ ['?', '|']

theorem isQueryChar_upperhex {n : ℕ} : isQueryChar (upperhex.getD n '0') = true := by
  have hall : ('0' :: upperhex).all isQueryChar = true := by decide
  refine List.all_eq_true.1 hall _ ?_
  rw [List.getD_eq_getElem?_getD]
  cases h : upperhex[n]? with
  | none => exact List.mem_cons_self
  | some c => exact List.mem_cons_of_mem _ (List.mem_of_getElem? h)

/-- An escaped byte is of query characters. -/
theorem isQueryChar_escapeByte {b c : Char} (hc : c ∈ escapeByte .queryComponent b) :
    isQueryChar c = true := by
  unfold escapeByte at hc
  by_cases hspace : b = ' ' ∧ Encoding.queryComponent = .queryComponent
  · rw [if_pos hspace] at hc
    rw [List.mem_singleton.1 hc]
    decide
  · rw [if_neg hspace] at hc
    by_cases hesc : shouldEscape .queryComponent b = true
    · rw [if_pos hesc] at hc
      rcases List.mem_cons.1 hc with rfl | hc
      · decide
      · rcases List.mem_cons.1 hc with rfl | hc
        · exact isQueryChar_upperhex
        · rw [List.mem_singleton.1 hc]
          exact isQueryChar_upperhex
    · rw [if_neg hesc] at hc
      rw [List.mem_singleton.1 hc]
      have hquestion : b ≠ '?' := fun h => hesc (h ▸ by decide)
      have hbar : b ≠ '|' := fun h => hesc (h ▸ by decide)
      simp [isQueryChar, hquestion, hbar]

/-- Neither a question mark nor a bar occurs in an encoded query. -/
theorem isQueryChar_encode {values : List (List Char × List Char)} {c : Char}
    (hc : c ∈ encode values) : isQueryChar c = true := by
  rcases mem_intercalate hc with rfl | ⟨l, hl, hcl⟩
  · decide
  · obtain ⟨pair, -, rfl⟩ := List.mem_map.1 hl
    rcases List.mem_append.1 hcl with h | h
    · obtain ⟨b, -, hb⟩ := List.mem_flatMap.1 h
      exact isQueryChar_escapeByte hb
    · rcases List.mem_cons.1 h with rfl | h
      · decide
      · obtain ⟨b, -, hb⟩ := List.mem_flatMap.1 h
        exact isQueryChar_escapeByte hb

end Url
