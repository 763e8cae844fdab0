import Webmeow.Lib.Utf16

/-!
# JSON texts

`JSON.stringify` and `JSON.parse` of JavaScript. A number is kept as the literal that is printed for
it, and an object as its members in the order of enumeration.
-/

namespace JsonText

open Utf16

/-! ## Values -/

/-- A decimal digit. -/
def isDigit (c : Char) : Bool := '0' ≤ c && c ≤ '9'

/-- The characters of number literals. -/
def isNumberChar (c : Char) : Bool :=
  isDigit c || c = '+' || c = '-' || c = '.' || c = 'e' || c = 'E'

/-- One digit at least and nothing else. -/
def allDigits (cs : List Char) : Bool := !cs.isEmpty && cs.all isDigit

/-- An exponent, or nothing. -/
def isExponent : List Char → Bool
  | [] => true
  | e :: cs =>
    (e = 'e' || e = 'E') &&
      match cs with
      | s :: ds => if s = '+' || s = '-' then allDigits ds else allDigits (s :: ds)
      | [] => false

/-- A fraction and an exponent, or nothing. -/
def isFraction : List Char → Bool
  | [] => true
  | c :: cs =>
    if c = '.' then !(cs.takeWhile isDigit).isEmpty && isExponent (cs.dropWhile isDigit)
    else isExponent (c :: cs)

/-- A number without its sign. -/
def isUnsigned : List Char → Bool
  | [] => false
  | c :: cs =>
    if c = '0' then isFraction cs else isDigit c && isFraction (cs.dropWhile isDigit)

/-- The number literals of JSON. -/
def isNumber (cs : List Char) : Bool :=
  cs.all isNumberChar &&
    match cs with
    | [] => false
    | c :: rest => if c = '-' then isUnsigned rest else isUnsigned cs

/-- A number, as the literal that is printed for it. -/
structure Number where
  /-- The text of the number. -/
  literal : List Char
  /-- It is one by the grammar. -/
  valid : isNumber literal = true

/-- A value of JSON. -/
inductive Value where
  | null
  | bool (b : Bool)
  | num (n : Number)
  | str (s : List UInt16)
  | arr (items : List Value)
  | obj (members : List (List UInt16 × Value))

/-! ## Properties -/

/-- The property `v[name]`, which is `none` where JavaScript has `undefined`. Of the members with
one name the last one counts. -/
def Value.get (v : Value) (name : String) : Option Value :=
  match v with
  | .obj members => members.reverse.lookup (ofString name)
  | _ => none

/-- The string, if `typeof` is `"string"`. -/
def stringOf : Option Value → Option (List UInt16)
  | some (.str s) => some s
  | _ => none

/-! ## `JSON.stringify` -/

/-- A hexadecimal digit. -/
def hexDigit (n : ℕ) : Char :=
  if n < 10 then Char.ofNat (0x30 + n) else Char.ofNat (0x61 + (n - 10))

/-- The escape of a code unit by its number. -/
def unicodeEscape (u : UInt16) : List Char :=
  ['\x5c', 'u', hexDigit (u.toNat / 0x1000), hexDigit (u.toNat / 0x100 % 0x10),
    hexDigit (u.toNat / 0x10 % 0x10), hexDigit (u.toNat % 0x10)]

/-- The units with an escape of one letter. -/
def escapes : List (UInt16 × Char) :=
  [(0x08, 'b'), (0x09, 't'), (0x0A, 'n'), (0x0C, 'f'), (0x0D, 'r'), (0x22, '\x22'), (0x5C, '\x5c')]

/-- A unit that is not part of a surrogate pair. -/
def quoteUnit (u : UInt16) : List Char :=
  match escapes.lookup u with
  | some letter => ['\x5c', letter]
  | none =>
    if u.toNat < 0x20 || isHigh u || isLow u then unicodeEscape u else [unitChar u]

/-- The code units of a string, in which pairs of surrogates are one character. -/
def quoteUnits : List UInt16 → List Char
  | [] => []
  | [u] => quoteUnit u
  | u :: v :: us =>
    if isHigh u && isLow v then pairChar u v :: quoteUnits us
    else quoteUnit u ++ quoteUnits (v :: us)

/-- `QuoteJSONString` -/
def quote (s : List UInt16) : List Char := '\x22' :: (quoteUnits s ++ ['\x22'])

mutual

/-- The text of a value. -/
def stringify : Value → List Char
  | .null => ['n', 'u', 'l', 'l']
  | .bool true => ['t', 'r', 'u', 'e']
  | .bool false => ['f', 'a', 'l', 's', 'e']
  | .num n => n.literal
  | .str s => quote s
  | .arr items => '[' :: (stringifyItems items ++ [']'])
  | .obj members => '\x7b' :: (stringifyMembers members ++ ['\x7d'])

/-- The items, separated by commas. -/
def stringifyItems : List Value → List Char
  | [] => []
  | v :: vs => stringify v ++ (if vs.isEmpty then [] else ',' :: stringifyItems vs)

/-- The members, separated by commas. -/
def stringifyMembers : List (List UInt16 × Value) → List Char
  | [] => []
  | (k, v) :: ms =>
    quote k ++ ':' :: (stringify v ++ (if ms.isEmpty then [] else ',' :: stringifyMembers ms))

end

/-! ## `JSON.parse` -/

/-- The white space of JSON. -/
def isSpace (c : Char) : Bool := c = ' ' || c = '\t' || c = '\n' || c = '\r'

/-- The text behind the white space. -/
def skipSpace (cs : List Char) : List Char := cs.dropWhile isSpace

/-- The value of a hexadecimal digit. -/
def hexValue (c : Char) : Option ℕ :=
  if isDigit c then some (c.toNat - 0x30)
  else if 'a' ≤ c && c ≤ 'f' then some (c.toNat - 0x61 + 10)
  else if 'A' ≤ c && c ≤ 'F' then some (c.toNat - 0x41 + 10)
  else none

/-- The unit that an escape stands for, after its backslash. -/
def parseEscape : List Char → Option (UInt16 × List Char)
  | [] => none
  | e :: cs =>
    if e = 'u' then
      match cs with
      | a :: b :: c :: d :: rest => do
        let a ← hexValue a
        let b ← hexValue b
        let c ← hexValue c
        let d ← hexValue d
        some (UInt16.ofNat (((a * 0x10 + b) * 0x10 + c) * 0x10 + d), rest)
      | _ => none
    else if e = '/' then some (0x2F, cs)
    else ((escapes.map Prod.swap).lookup e).map fun u => (u, cs)

/-- The rest of a string literal after its opening quote. -/
def parseUnits : ℕ → List Char → Option (List UInt16 × List Char)
  | 0, _ => none
  | _ + 1, [] => none
  | fuel + 1, c :: cs =>
    if c = '\x22' then some ([], cs)
    else if c = '\x5c' then
      (parseEscape cs).bind fun p => (parseUnits fuel p.2).map fun q => (p.1 :: q.1, q.2)
    else if c.toNat < 0x20 then none
    else (parseUnits fuel cs).map fun q => (units c ++ q.1, q.2)

/-- The string behind its opening quote. -/
def parseString (cs : List Char) : Option (List UInt16 × List Char) :=
  parseUnits (cs.length + 1) cs

/-- Items with commas between them and a closing bracket, one item at least. -/
def parseList {α : Type} (item : List Char → Option (α × List Char)) (close : Char) :
    ℕ → List Char → Option (List α × List Char)
  | 0, _ => none
  | fuel + 1, cs =>
    (item cs).bind fun p =>
      match skipSpace p.2 with
      | [] => none
      | c :: rest =>
        if c = ',' then (parseList item close fuel rest).map fun q => (p.1 :: q.1, q.2)
        else if c = close then some ([p.1], rest)
        else none

/-- The rest of an array or an object after its opening bracket. -/
def parseBracket {α : Type} (item : List Char → Option (α × List Char)) (close : Char)
    (cs : List Char) : Option (List α × List Char) :=
  match skipSpace cs with
  | [] => none
  | c :: rest => if c = close then some ([], rest) else parseList item close cs.length cs

/-- A member of an object. -/
def parseMember (value : List Char → Option (Value × List Char)) (cs : List Char) :
    Option ((List UInt16 × Value) × List Char) :=
  match skipSpace cs with
  | [] => none
  | c :: rest =>
    if c = '\x22' then
      (parseString rest).bind fun k =>
        match skipSpace k.2 with
        | [] => none
        | c :: rest => if c = ':' then (value rest).map fun v => ((k.1, v.1), v.2) else none
    else none

/-- A number. -/
def parseNumber (cs : List Char) : Option (Value × List Char) :=
  if h : isNumber (cs.takeWhile isNumberChar) = true then
    some (.num ⟨cs.takeWhile isNumberChar, h⟩, cs.dropWhile isNumberChar)
  else none

/-- The rest of a literal name after its first letter. -/
def parseName (name : List Char) (v : Value) (cs : List Char) : Option (Value × List Char) :=
  if name.isPrefixOf cs then some (v, cs.drop name.length) else none

/-- A value, to a depth of nesting. -/
def parseValue : ℕ → List Char → Option (Value × List Char)
  | 0, _ => none
  | fuel + 1, cs =>
    match skipSpace cs with
    | [] => none
    | c :: rest =>
      if c = '\x22' then (parseString rest).map fun p => (.str p.1, p.2)
      else if c = '[' then
        (parseBracket (parseValue fuel) ']' rest).map fun p => (.arr p.1, p.2)
      else if c = '\x7b' then
        (parseBracket (parseMember (parseValue fuel)) '\x7d' rest).map fun p => (.obj p.1, p.2)
      else if c = 'n' then parseName ['u', 'l', 'l'] .null rest
      else if c = 't' then parseName ['r', 'u', 'e'] (.bool true) rest
      else if c = 'f' then parseName ['a', 'l', 's', 'e'] (.bool false) rest
      else parseNumber (c :: rest)

/-- `JSON.parse`; a value is nested less deeply than its text is long. -/
def parse (text : List Char) : Option Value :=
  (parseValue (text.length + 1) text).bind fun p =>
    if (skipSpace p.2).isEmpty then some p.1 else none

end JsonText
