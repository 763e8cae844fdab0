import Mathlib.Data.List.Dedup
import Mathlib.Data.List.Sort
import Webmeow.Lib.Masking

/-!
# The profanity filter

`profanity.py`: the patterns that are compiled from a stop list, the masking of a text by one
substitution after the other, and the detection of masks in a stored text. A match of a pattern is a
spelling of its word, in the order of the backtracking of `re`.
-/

namespace Parrot

open Spelling

/-- What Python knows about characters, and how it changes texts by it. Beyond ASCII it is left
open. -/
structure Unicode where
  /-- `str.isalnum` -/
  isAlnum : Char → Bool
  /-- The characters that `str.strip` removes. -/
  isSpace : Char → Bool
  /-- Whether `re.IGNORECASE` lets the second stand for the first. -/
  ignoreCase : Char → Char → Bool
  /-- `unicodedata.normalize("NFKD", text)` -/
  nfkd : List Char → List Char
  /-- `str.lower` -/
  lower : String → String
  /-- On ASCII, the letters and digits. -/
  isAlnum_ascii : ∀ c : Char, c.val < 128 → isAlnum c = c.isAlphanum
  /-- On ASCII, the space and the control characters that separate. -/
  isSpace_ascii : ∀ c : Char, c.val < 128 →
    isSpace c = decide (c = ' ' ∨ 9 ≤ c.toNat ∧ c.toNat ≤ 13 ∨ 28 ≤ c.toNat ∧ c.toNat ≤ 31)
  /-- On ASCII, the case is ignored. -/
  ignoreCase_ascii : ∀ c d : Char, c.val < 128 → d.val < 128 →
    ignoreCase c d = decide (c.toLower = d.toLower)
  /-- ASCII is in normal form. -/
  nfkd_ascii : ∀ s : List Char, (∀ c ∈ s, c.val < 128) → nfkd s = s
  /-- On ASCII, letters become small. -/
  lower_ascii : ∀ s : String, (∀ c ∈ s.toList, c.val < 128) → lower s = s.toLower

/-- The order in which a `set` of strings is iterated. -/
structure SetOrder where
  /-- The order in which a set of the words is iterated over. -/
  iterate : List String → List String
  /-- It is an order of the words. -/
  perm : ∀ l, (iterate l).Perm l.dedup

/-- The character of a mask. -/
def MASK_CHAR : Char := '*'

/-- `_LEET_TO_LETTER` -/
def LEET_TO_LETTER : List (Char × Char) :=
  [('@', 'a'), ('4', 'a'), ('8', 'b'), ('(', 'c'), ('3', 'e'), ('9', 'g'), ('1', 'i'), ('!', 'i'),
    ('|', 'l'), ('0', 'o'), ('$', 's'), ('5', 's'), ('7', 't'), ('+', 't'), ('2', 'z')]

/-- `_LEET_VARIANTS` -/
def LEET_VARIANTS : List (Char × List Char) :=
  [('a', ['a', '@', '4']), ('b', ['b', '8']), ('c', ['c', '(']), ('e', ['e', '3']),
    ('g', ['g', '9']), ('i', ['i', '1', '!', '|']), ('l', ['l', '1', '|']), ('o', ['o', '0']),
    ('s', ['s', '$', '5']), ('t', ['t', '7', '+']), ('z', ['z', '2'])]

/-- The text in small ASCII letters, leet spelling undone. -/
def normalizeText (u : Unicode) (text : String) : List Char :=
  let ascii := (u.nfkd text.toList).filter fun c => c.val < 128
  (ascii.map fun c => (LEET_TO_LETTER.lookup c).getD c).map Char.toLower

/-- The characters that match `_leet_char_class(ch)`. -/
def leetCharClass (u : Unicode) (ch : Char) : Char → Bool :=
  let ch := ch.toLower
  let variants := ch :: (LEET_VARIANTS.lookup ch).getD []
  fun c => variants.any fun v => u.ignoreCase v c

/-- The letters of `[a-zA-Z0-9@$]`. -/
def boundaryChars : List Char :=
  "abcdefghijklmnopqrstuvwxyzABCDEFGHIJKLMNOPQRSTUVWXYZ0123456789@$".toList

/-- The separators `[\W_]` between letters, and the lookarounds `(?<![a-zA-Z0-9@$])` and
`(?![a-zA-Z0-9@$])`. -/
def patternAlphabet (u : Unicode) : Alphabet Char where
  sep c := !(u.isAlnum c || c == '_') || c == '_'
  bound c := boundaryChars.any fun b => u.ignoreCase b c

/-- `_word_boundary_pattern` -/
def wordBoundaryPattern (u : Unicode) (word : String) : Word Char :=
  (normalizeText u word).map (leetCharClass u)

/-- What `profanity.py` is loaded with: the words of its stop list and the order that a set of them
has in this process. -/
structure StopList where
  /-- The tables of the interpreter. -/
  unicode : Unicode
  /-- The order of its sets. -/
  order : SetOrder
  /-- The stop words. -/
  words : List String

/-- The words in the order of `_compile_patterns`. -/
def StopList.unique (f : StopList) : List String :=
  (f.order.iterate ((f.words.filter (· ≠ "")).map f.unicode.lower)).insertionSort
    fun a b => b.length ≤ a.length

/-- `_PATTERNS` -/
def StopList.patterns (f : StopList) : List (Word Char) :=
  f.unique.map (wordBoundaryPattern f.unicode)

/-- `pattern.sub(lambda m: MASK_CHAR * len(m.group(0)), text)` -/
def StopList.substitute (f : StopList) (pattern : Word Char) (text : List Char) : List Char :=
  (patternAlphabet f.unicode).sub pattern MASK_CHAR 0 none text

/-- The text with every pattern substituted in turn. -/
def StopList.maskProfanity (f : StopList) (text : String) : String :=
  if text = "" then text
  else
    String.ofList (f.patterns.foldl (fun masked pattern => f.substitute pattern masked) text.toList)

/-- Masking changes the text. -/
def StopList.wasCensored (f : StopList) (text : String) : Bool :=
  if text = "" then false else decide (f.maskProfanity text ≠ text)

/-- `str.strip` -/
def strip (u : Unicode) (s : List Char) : List Char :=
  ((s.dropWhile u.isSpace).reverse.dropWhile u.isSpace).reverse

/-- The lengths of the maximal runs of the mask character, `n` of the current one having been
read. -/
def maskRuns : ℕ → List Char → List ℕ
  | n, [] => if n = 0 then [] else [n]
  | n, c :: s =>
    if c = MASK_CHAR then maskRuns (n + 1) s
    else if n = 0 then maskRuns 0 s
    else n :: maskRuns 0 s

/-- `contains_mask`; `_MASK_LENGTHS` are the lengths of the words. -/
def StopList.containsMask (f : StopList) (text : String) : Bool :=
  let stripped := strip f.unicode text.toList
  if text = "" then false
  else if stripped ≠ [] && stripped.all (· == MASK_CHAR) then false
  else (maskRuns 0 text.toList).any fun n => f.words.any fun w => w.length == n

/-- `PROFANITY_WORDS`, from the setting. -/
def profanityWords (u : Unicode) (setting : String) : List String :=
  ((setting.toList.splitOn ',').map fun w => String.ofList (strip u w)).filter (· ≠ "")

/-- The default of the setting `profanity_words`. -/
def defaultProfanityWords : String := "ass,crap,damn,hell,piss,shit,bastard"

end Parrot
