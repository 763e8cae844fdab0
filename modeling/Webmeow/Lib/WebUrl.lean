import Mathlib.Data.List.DropRight
import Webmeow.Lib.Url

/-!
# The path of a URL, from a script to a server

A script joins a text to an origin and fetches the result. The URL parser of the browser cuts and
normalises the path, and the server decodes what arrives. `requestPath` is the composition; it gives
the text back exactly if the text is `Plain`.
-/

namespace WebUrl

open Url (unhex)

/-! ## Bytes as UTF-8 -/

/-- What stands for bytes that are no text. -/
def replacement : Char := '\uFFFD'

/-- The beginning of a character: how many bytes are missing, between which bounds the next one
must be, and the bits so far. -/
structure Pending where
  /-- The continuation bytes that are missing. -/
  needed : ℕ
  /-- The least value of the next one. -/
  lower : ℕ
  /-- The greatest value of the next one. -/
  upper : ℕ
  /-- The bits read so far. -/
  bits : ℕ

/-- What a lead byte is followed by. -/
def Pending.ofLead (b : ℕ) : Option Pending :=
  if 0xC2 ≤ b ∧ b ≤ 0xDF then some ⟨1, 0x80, 0xBF, b % 0x20⟩
  else if b = 0xE0 then some ⟨2, 0xA0, 0xBF, 0⟩
  else if b = 0xED then some ⟨2, 0x80, 0x9F, 0xD⟩
  else if 0xE1 ≤ b ∧ b ≤ 0xEF then some ⟨2, 0x80, 0xBF, b % 0x10⟩
  else if b = 0xF0 then some ⟨3, 0x90, 0xBF, 0⟩
  else if 0xF1 ≤ b ∧ b ≤ 0xF3 then some ⟨3, 0x80, 0xBF, b % 8⟩
  else if b = 0xF4 then some ⟨3, 0x80, 0x8F, 4⟩
  else none

/-- A byte at which a character begins. -/
def decodeLead (b : ℕ) : List Char × Option Pending :=
  if b < 0x80 then ([Char.ofNat b], none)
  else
    match Pending.ofLead b with
    | some p => ([], some p)
    | none => ([replacement], none)

/-- The characters that a byte completes, and what is pending after it. -/
def decodeByte (pending : Option Pending) (b : ℕ) : List Char × Option Pending :=
  match pending with
  | none => decodeLead b
  | some p =>
    if p.lower ≤ b ∧ b ≤ p.upper then
      let bits := p.bits * 0x40 + b % 0x40
      if p.needed = 1 then ([Char.ofNat bits], none)
      else ([], some ⟨p.needed - 1, 0x80, 0xBF, bits⟩)
    else
      -- the beginning is given up, and the byte is read again
      (replacement :: (decodeLead b).1, (decodeLead b).2)

/-- The characters of the bytes, after those of a sequence begun. -/
def decodeFrom (pending : Option Pending) : List ℕ → List Char
  | [] => if pending.isSome then [replacement] else []
  | b :: bs => (decodeByte pending b).1 ++ decodeFrom (decodeByte pending b).2 bs

/-- The characters of the bytes. -/
def decodeUtf8 (bytes : List ℕ) : List Char := decodeFrom none bytes

example : decodeUtf8 [0x61, 0xC3, 0xA9, 0xE2, 0x82, 0xF0, 0x9F, 0x98, 0x80, 0xC0] =
    ['a', 'é', replacement, '😀', replacement] := by
  decide

/-! ## Percent-decoding -/

/-- The bytes of the escapes in a row are decoded together; `run` are those read so far. Any other
character begins and ends a character of its own, so it can be kept as it is. -/
def percentDecodeFrom (run : List ℕ) : List Char → List Char
  | '%' :: a :: b :: s =>
    match unhex a, unhex b with
    | some hi, some lo => percentDecodeFrom (run ++ [16 * hi + lo]) s
    | _, _ => decodeUtf8 run ++ '%' :: percentDecodeFrom [] (a :: b :: s)
  | c :: s => decodeUtf8 run ++ c :: percentDecodeFrom [] s
  | [] => decodeUtf8 run

/-- The text with its escapes decoded. -/
def percentDecode (s : List Char) : List Char := percentDecodeFrom [] s

/-- The text has an escape. -/
def hasEscape : List Char → Bool
  | '%' :: a :: b :: s => ((unhex a).isSome && (unhex b).isSome) || hasEscape (a :: b :: s)
  | _ :: s => hasEscape s
  | [] => false

/-! ## The path of a URL -/

/-- The control characters and the space at the end of a URL are dropped. -/
def trimEnd (s : List Char) : List Char := s.rdropWhile fun c => c ≤ ' '

/-- The text without tabs and line breaks. -/
def removeTabsAndNewlines (s : List Char) : List Char :=
  s.filter fun c => c ∉ ['\t', '\n', '\r']

/-- The query and the fragment are no part of the path. -/
def cutPath (s : List Char) : List Char := s.takeWhile fun c => c ∉ ['?', '#']

/-- What separates the segments of a path. -/
def isSeparator (c : Char) : Bool := c ∈ ['/', '\\']

/-- A dot may be written as an escape. -/
def dots : List (List Char) := [".".toList, "%2e".toList, "%2E".toList]

/-- The segment is a dot, escaped or not. -/
def isSingleDot (segment : List Char) : Bool := segment ∈ dots

/-- The segment is two dots, escaped or not. -/
def isDoubleDot (segment : List Char) : Bool :=
  segment ∈ dots.flatMap fun first => dots.map fun second => first ++ second

/-- The segments that are left after those in `out`. At the end of the path a dot segment leaves an
empty one. -/
def resolveDots (out : List (List Char)) : List (List Char) → List (List Char)
  | [] => out
  | s :: rest =>
    if isDoubleDot s then
      if rest = [] then out.dropLast ++ [[]] else resolveDots out.dropLast rest
    else if isSingleDot s then
      if rest = [] then out ++ [[]] else resolveDots out rest
    else resolveDots (out ++ [s]) rest

/-- The text of a path. -/
def pathText (segments : List (List Char)) : List Char := segments.flatMap ('/' :: ·)

/-- The path of the URL `origin ++ s`, where `s` begins with a slash. -/
def parsePath (s : List Char) : List (List Char) :=
  resolveDots [] ((cutPath (removeTabsAndNewlines (trimEnd s))).splitOnP isSeparator).tail

/-- The path as the server reads it. What the parser escapes itself is decoded again, so it is left
out here. -/
def requestPath (s : List Char) : List Char := percentDecode (pathText (parsePath s))

example : (requestPath "/a/b/%2E./c%2fd e\t?q ".toList) = "/a/c/d e".toList := by decide

/-! ## Decoding -/

/-- A character that is pending may still become one character. -/
def owed (pending : Option Pending) : ℕ := if pending.isSome then 1 else 0

theorem decodeLead_length (b : ℕ) :
    (decodeLead b).1.length + owed (decodeLead b).2 = 1 := by
  unfold decodeLead
  by_cases hascii : b < 0x80
  · rw [if_pos hascii]
    rfl
  · rw [if_neg hascii]
    cases Pending.ofLead b <;> rfl

/-- A byte makes at most one character more. -/
theorem decodeByte_length (pending : Option Pending) (b : ℕ) :
    (decodeByte pending b).1.length + owed (decodeByte pending b).2 ≤ owed pending + 1 := by
  have hlead := decodeLead_length b
  unfold decodeByte
  cases pending with
  | none =>
    dsimp only
    omega
  | some p =>
    have howed : owed (some p) = 1 := rfl
    dsimp only
    split_ifs
    · simp [owed]
    · simp [owed]
    · simp only [List.length_cons]
      omega

theorem decodeFrom_length (pending : Option Pending) (bytes : List ℕ) :
    (decodeFrom pending bytes).length ≤ bytes.length + owed pending := by
  induction bytes generalizing pending with
  | nil =>
    unfold decodeFrom owed
    split_ifs <;> simp
  | cons b bytes ih =>
    have hbyte := decodeByte_length pending b
    have hrest := ih (decodeByte pending b).2
    simp only [decodeFrom, List.length_append, List.length_cons]
    omega

theorem decodeUtf8_length (bytes : List ℕ) : (decodeUtf8 bytes).length ≤ bytes.length :=
  decodeFrom_length none bytes

/-- A percent sign that is no escape. -/
theorem hasEscape_of_not {a b : Char} (s : List Char)
    (h : ∀ hi lo, unhex a = some hi → unhex b = some lo → False) :
    hasEscape ('%' :: a :: b :: s) = hasEscape (a :: b :: s) := by
  rw [hasEscape.eq_1]
  cases ha : unhex a with
  | none => simp
  | some hi =>
    cases hb : unhex b with
    | none => simp
    | some lo => exact (h hi lo ha hb).elim

/-- Decoding makes no text longer, and a text with an escape shorter. -/
theorem percentDecodeFrom_length (run : List ℕ) (s : List Char) :
    (percentDecodeFrom run s).length + (if hasEscape s then 1 else 0) ≤ run.length + s.length := by
  fun_induction percentDecodeFrom run s with
  | case1 run a b s hi lo hhi hlo ih =>
    have hle : (if hasEscape ('%' :: a :: b :: s) then 1 else 0) ≤ 1 := by split_ifs <;> omega
    simp only [List.length_append, List.length_cons, List.length_nil] at ih ⊢
    omega
  | case2 run a b s hnot ih =>
    have hrun := decodeUtf8_length run
    rw [hasEscape_of_not s hnot]
    simp only [List.length_append, List.length_cons, List.length_nil] at ih ⊢
    omega
  | case3 run c s hnot ih =>
    have hrun := decodeUtf8_length run
    rw [hasEscape.eq_2 c s hnot]
    simp only [List.length_append, List.length_cons, List.length_nil] at ih ⊢
    omega
  | case4 run =>
    have hrun := decodeUtf8_length run
    simpa [hasEscape] using hrun

/-- A text without an escape is decoded as it is. -/
theorem percentDecodeFrom_of_not_hasEscape {run : List ℕ} {s : List Char}
    (h : hasEscape s = false) : percentDecodeFrom run s = decodeUtf8 run ++ s := by
  fun_induction percentDecodeFrom run s with
  | case1 run a b s hi lo hhi hlo ih =>
    rw [hasEscape.eq_1, hhi, hlo] at h
    cases h
  | case2 run a b s hnot ih =>
    rw [hasEscape_of_not s hnot] at h
    rw [ih h]
    rfl
  | case3 run c s hnot ih =>
    rw [hasEscape.eq_2 c s hnot] at h
    rw [ih h]
    rfl
  | case4 run => rw [List.append_nil]

theorem percentDecode_length (s : List Char) : (percentDecode s).length ≤ s.length := by
  have h := percentDecodeFrom_length [] s
  rw [List.length_nil] at h
  unfold percentDecode
  omega

/-- Decoding changes a text if it has an escape. -/
theorem percentDecode_eq_self_iff {s : List Char} : percentDecode s = s ↔ hasEscape s = false := by
  constructor
  · intro h
    have hlength := percentDecodeFrom_length [] s
    rw [← percentDecode, h] at hlength
    cases hs : hasEscape s with
    | false => rfl
    | true =>
      rw [hs, if_pos rfl, List.length_nil] at hlength
      omega
  · intro h
    exact percentDecodeFrom_of_not_hasEscape h

/-! ## Dot segments -/

theorem pathText_append (xs ys : List (List Char)) :
    pathText (xs ++ ys) = pathText xs ++ pathText ys := List.flatMap_append

theorem pathText_cons (s : List Char) (rest : List (List Char)) :
    pathText (s :: rest) = '/' :: (s ++ pathText rest) := rfl

theorem pathText_cons_length (s : List Char) (rest : List (List Char)) :
    (pathText (s :: rest)).length = s.length + 1 + (pathText rest).length := by
  rw [pathText_cons, List.length_cons, List.length_append]
  omega

theorem pathText_concat_length (out : List (List Char)) (s : List Char) :
    (pathText (out ++ [s])).length = (pathText out).length + s.length + 1 := by
  rw [pathText_append, List.length_append]
  simp [pathText]
  omega

theorem pathText_dropLast_length (xs : List (List Char)) :
    (pathText xs.dropLast).length ≤ (pathText xs).length := by
  obtain ⟨t, ht⟩ := List.dropLast_prefix xs
  conv_rhs => rw [← ht, pathText_append, List.length_append]
  omega

theorem isSingleDot_length {s : List Char} (h : isSingleDot s = true) : 1 ≤ s.length := by
  have hall : ∀ t ∈ dots, 1 ≤ t.length := by decide
  exact hall s (of_decide_eq_true h)

theorem isDoubleDot_length {s : List Char} (h : isDoubleDot s = true) : 2 ≤ s.length := by
  have hall : ∀ t ∈ dots.flatMap fun first => dots.map fun second => first ++ second,
      2 ≤ t.length := by
    decide
  exact hall s (of_decide_eq_true h)

/-- A dot segment without an escape. -/
theorem dots_of_not_hasEscape {s : List Char} (h : isSingleDot s = true ∨ isDoubleDot s = true)
    (hs : hasEscape s = false) : s = ['.'] ∨ s = ['.', '.'] := by
  have hsingle : ∀ t ∈ dots, hasEscape t = false → t = ['.'] := by decide
  have hdouble : ∀ t ∈ dots.flatMap fun first => dots.map fun second => first ++ second,
      hasEscape t = false → t = ['.', '.'] := by
    decide
  rcases h with h | h
  · exact Or.inl (hsingle s (of_decide_eq_true h) hs)
  · exact Or.inr (hdouble s (of_decide_eq_true h) hs)

theorem resolveDots_of_no_dots (out : List (List Char)) {segments : List (List Char)}
    (h : ∀ s ∈ segments, isSingleDot s = false ∧ isDoubleDot s = false) :
    resolveDots out segments = out ++ segments := by
  induction segments generalizing out with
  | nil => simp [resolveDots]
  | cons s rest ih =>
    obtain ⟨hsingle, hdouble⟩ := h s List.mem_cons_self
    have hrest := ih (out ++ [s]) fun s' hs' => h s' (List.mem_cons_of_mem s hs')
    rw [resolveDots, hsingle, hdouble]
    simpa using hrest

/-- Resolving makes no path longer, and a path with a dot segment shorter. -/
theorem resolveDots_length (out segments : List (List Char)) :
    (pathText (resolveDots out segments)).length +
        (if segments.any fun s => isSingleDot s || isDoubleDot s then 1 else 0) ≤
      (pathText out).length + (pathText segments).length := by
  fun_induction resolveDots out segments with
  | case1 out => simp
  | case2 out s hdouble =>
    have hs := isDoubleDot_length hdouble
    have hdrop := pathText_dropLast_length out
    rw [if_pos (by simp [hdouble]), pathText_concat_length, pathText_cons_length, List.length_nil]
    omega
  | case3 out s rest hdouble hrest ih =>
    have hs := isDoubleDot_length hdouble
    have hdrop := pathText_dropLast_length out
    rw [if_pos (by simp [hdouble]), pathText_cons_length]
    omega
  | case4 out s hdouble hsingle =>
    have hs := isSingleDot_length hsingle
    rw [if_pos (by simp [hsingle]), pathText_concat_length, pathText_cons_length, List.length_nil]
    omega
  | case5 out s rest hdouble hsingle hrest ih =>
    have hs := isSingleDot_length hsingle
    rw [if_pos (by simp [hsingle]), pathText_cons_length]
    omega
  | case6 out s rest hdouble hsingle ih =>
    rw [Bool.not_eq_true] at hdouble hsingle
    rw [pathText_concat_length] at ih
    rw [List.any_cons, hdouble, hsingle, pathText_cons_length]
    simp only [Bool.false_or]
    omega

/-! ## Segments -/

/-- Splitting and joining turns every separator into a slash. -/
theorem pathText_splitOnP (s : List Char) :
    pathText (s.splitOnP isSeparator) = '/' :: s.map fun c => if isSeparator c then '/' else c := by
  induction s with
  | nil => rfl
  | cons c s ih =>
    rw [List.splitOnP_cons_eq_if_modifyHead, List.map_cons]
    cases hsplit : s.splitOnP isSeparator with
    | nil => exact absurd hsplit (List.splitOnP_ne_nil _ _)
    | cons t ts =>
      rw [hsplit] at ih
      by_cases hc : isSeparator c = true
      · rw [if_pos hc, if_pos hc, ← ih]
        rfl
      · rw [if_neg hc, if_neg hc]
        rw [pathText_cons, List.cons.injEq] at ih
        rw [List.modifyHead_cons, pathText_cons, List.cons_append, ih.2]

theorem pathText_tail_length (s : List Char) :
    (pathText (s.splitOnP isSeparator).tail).length ≤ s.length := by
  have hlength := congrArg List.length (pathText_splitOnP s)
  cases hsplit : s.splitOnP isSeparator with
  | nil => exact absurd hsplit (List.splitOnP_ne_nil _ _)
  | cons t ts =>
    rw [hsplit, pathText_cons_length, List.length_cons, List.length_map] at hlength
    rw [List.tail_cons]
    omega

/-! ## Texts that arrive as they are -/

/-- One segment of a path that neither the browser nor the server takes for anything else. -/
structure Plain (s : List Char) : Prop where
  /-- The text is not empty. -/
  nonempty : s ≠ []
  /-- It has no character the parser of URLs treats specially. -/
  chars : ∀ c ∈ s, c ∉ ['?', '#', '/', '\\', '\t', '\n', '\r']
  /-- It does not end with what is trimmed. -/
  last : ∀ c ∈ s.getLast?, ' ' < c
  /-- It has no escape. -/
  escapes : hasEscape s = false
  /-- It is no dot segment. -/
  dots : s ≠ ['.'] ∧ s ≠ ['.', '.']

instance : DecidablePred Plain := fun s =>
  decidable_of_iff (s ≠ [] ∧
      s.all (fun c => c ∉ ['?', '#', '/', '\\', '\t', '\n', '\r']) = true ∧
      s.getLast?.all (fun c => ' ' < c) = true ∧ hasEscape s = false ∧ s ≠ ['.'] ∧ s ≠ ['.', '.']) <| by
    constructor
    · rintro ⟨hne, hchars, hlast, hescapes, hdots⟩
      refine ⟨hne, fun c hc => ?_, fun c hc => ?_, hescapes, hdots⟩
      · exact of_decide_eq_true (List.all_eq_true.1 hchars c hc)
      · rw [Option.mem_def.1 hc] at hlast
        exact of_decide_eq_true hlast
    · rintro ⟨hne, hchars, hlast, hescapes, hdots⟩
      refine ⟨hne, List.all_eq_true.2 fun c hc => decide_eq_true (hchars c hc), ?_, hescapes, hdots⟩
      cases h : s.getLast? with
      | none => rfl
      | some c => exact decide_eq_true (hlast c h)

section Plain

variable {d s : List Char}

theorem trimEnd_eq_self_iff : trimEnd s = s ↔ ∀ c ∈ s.getLast?, ' ' < c := by
  unfold trimEnd
  rw [List.rdropWhile_eq_self_iff]
  constructor
  · intro h c hc
    obtain ⟨ys, rfl⟩ := List.getLast?_eq_some_iff.1 hc
    simpa using h (by simp)
  · intro h hne
    have hlast := h _ (List.getLast?_eq_some_getLast hne)
    simpa using hlast

theorem removeTabsAndNewlines_eq_self_iff :
    removeTabsAndNewlines s = s ↔ ∀ c ∈ s, c ∉ ['\t', '\n', '\r'] := by
  unfold removeTabsAndNewlines
  rw [List.filter_eq_self]
  simp

theorem cutPath_eq_self_iff : cutPath s = s ↔ ∀ c ∈ s, c ∉ ['?', '#'] := by
  unfold cutPath
  rw [List.takeWhile_eq_self_iff]
  simp

/-- No stage makes the path longer. -/
theorem stages_length (s : List Char) :
    (trimEnd s).length ≤ s.length ∧
      (removeTabsAndNewlines (trimEnd s)).length ≤ (trimEnd s).length ∧
      (cutPath (removeTabsAndNewlines (trimEnd s))).length ≤
        (removeTabsAndNewlines (trimEnd s)).length ∧
      (pathText (parsePath s)).length ≤ (cutPath (removeTabsAndNewlines (trimEnd s))).length ∧
      (requestPath s).length ≤ (pathText (parsePath s)).length := by
  refine ⟨(List.rdropWhile_prefix _ _).length_le, List.length_filter_le _ _,
    (List.takeWhile_prefix _).length_le, ?_, percentDecode_length _⟩
  have hresolve := resolveDots_length []
    ((cutPath (removeTabsAndNewlines (trimEnd s))).splitOnP isSeparator).tail
  have htail := pathText_tail_length (cutPath (removeTabsAndNewlines (trimEnd s)))
  have hnil : (pathText []).length = 0 := rfl
  unfold parsePath
  omega

/-- Before a text that arrives unchanged, every stage has left the path as it was. -/
theorem stages_eq (h : (requestPath s).length = s.length) :
    trimEnd s = s ∧ removeTabsAndNewlines s = s ∧ cutPath s = s ∧
      (pathText (parsePath s)).length = s.length ∧ hasEscape (pathText (parsePath s)) = false := by
  obtain ⟨htrim, htabs, hcut, hparse, hdecode⟩ := stages_length s
  have htrim' : trimEnd s = s := (List.rdropWhile_prefix _ _).eq_of_length (by
    show (trimEnd s).length = s.length
    omega)
  rw [htrim'] at htabs hcut hparse
  have htabs' : removeTabsAndNewlines s = s := List.filter_sublist.eq_of_length (by
    show (removeTabsAndNewlines s).length = s.length
    omega)
  rw [htabs'] at hcut hparse
  have hcut' : cutPath s = s := (List.takeWhile_prefix _).eq_of_length (by
    show (cutPath s).length = s.length
    omega)
  refine ⟨htrim', htabs', hcut', by rw [hcut'] at hparse; omega, ?_⟩
  have hlength := percentDecodeFrom_length [] (pathText (parsePath s))
  rw [← percentDecode, ← requestPath, List.length_nil] at hlength
  rw [hcut'] at hparse
  by_contra hescape
  rw [if_pos (by simpa using hescape)] at hlength
  omega

/-- A text without a percent sign in front adds no escape. -/
theorem hasEscape_append {x : List Char} (hx : '%' ∉ x) : hasEscape (x ++ s) = hasEscape s := by
  induction x with
  | nil => rfl
  | cons c x ih =>
    have hc : c ≠ '%' := fun h => hx (h ▸ List.mem_cons_self)
    rw [List.cons_append, hasEscape.eq_2]
    · exact ih fun h => hx (List.mem_cons_of_mem c h)
    · intro a b t h
      exact absurd h hc

theorem letters_disjoint {l : List Char} (hd : d.all Char.isAlpha = true)
    (hl : l.any Char.isAlpha = false) : ∀ c ∈ d, c ∉ l := by
  intro c hc hmem
  exact List.any_eq_false.1 hl c hmem (List.all_eq_true.1 hd c hc)

/-- A text below a directory. -/
def below (d s : List Char) : List Char := '/' :: (d ++ '/' :: s)

theorem mem_below {c : Char} : c ∈ below d s ↔ c = '/' ∨ c ∈ d ∨ c ∈ s := by
  simp only [below, List.mem_cons, List.mem_append]
  tauto

theorem forall_below_iff (hd : d.all Char.isAlpha = true) {l : List Char} (hslash : '/' ∉ l)
    (hl : l.any Char.isAlpha = false) : (∀ c ∈ below d s, c ∉ l) ↔ ∀ c ∈ s, c ∉ l := by
  constructor
  · intro h c hc
    exact h c (mem_below.2 (Or.inr (Or.inr hc)))
  · intro h c hc
    rcases mem_below.1 hc with rfl | hc | hc
    · exact hslash
    · exact letters_disjoint hd hl c hc
    · exact h c hc

theorem hasEscape_below (hd : d.all Char.isAlpha = true) : hasEscape (below d s) = hasEscape s := by
  have hdisjoint := letters_disjoint (l := ['%']) hd (by decide)
  have hprefix : '%' ∉ '/' :: (d ++ ['/']) := by
    intro hmem
    simp only [List.mem_cons, List.mem_append, List.not_mem_nil, or_false] at hmem
    rcases hmem with h | h | h
    · revert h
      decide
    · exact hdisjoint '%' h List.mem_cons_self
    · revert h
      decide
  have h := hasEscape_append (s := s) hprefix
  simpa [below] using h

/-- The segments below a directory whose name has only letters. -/
theorem splitOnP_below (hd : d.all Char.isAlpha = true) (s : List Char) :
    ((below d s).splitOnP isSeparator).tail = d :: s.splitOnP isSeparator := by
  have hsep : ∀ c ∈ d, isSeparator c = false := by
    intro c hc
    exact decide_eq_false (letters_disjoint hd (by decide) c hc)
  rw [below, List.splitOnP_cons_eq_if_modifyHead, if_pos (by decide), List.tail_cons,
    List.splitOnP_append_cons_of_forall_mem hsep '/' (by decide)]

theorem letters_no_dots (hd : d.all Char.isAlpha = true) :
    isSingleDot d = false ∧ isDoubleDot d = false := by
  have hsingle : ∀ t ∈ dots, t.all Char.isAlpha = false := by decide
  have hdouble : ∀ t ∈ dots.flatMap fun first => dots.map fun second => first ++ second,
      t.all Char.isAlpha = false := by
    decide
  constructor
  · refine decide_eq_false fun hmem => ?_
    have hfalse := hsingle d hmem
    rw [hd] at hfalse
    cases hfalse
  · refine decide_eq_false fun hmem => ?_
    have hfalse := hdouble d hmem
    rw [hd] at hfalse
    cases hfalse

/-- Below a directory a text arrives in one piece only if it has no separators, no escapes and is no
dot segment. -/
theorem segments_of_arrives (hd : d.all Char.isAlpha = true)
    (harrives : requestPath (below d s) = below d s) (hslash : '/' ∉ s) :
    (∀ c ∈ s, isSeparator c = false) ∧ hasEscape s = false ∧ s ≠ ['.'] ∧ s ≠ ['.', '.'] := by
  obtain ⟨htrim, htabs, hcut, hlength, hescape⟩ := stages_eq (congrArg List.length harrives)
  have hparse : parsePath (below d s) = resolveDots [] (d :: s.splitOnP isSeparator) := by
    rw [parsePath, htrim, htabs, hcut, splitOnP_below hd]
  have htext : pathText (d :: s.splitOnP isSeparator) =
      '/' :: (d ++ '/' :: s.map fun c => if isSeparator c then '/' else c) := by
    rw [pathText_cons, pathText_splitOnP]
  have hno : ∀ t ∈ d :: s.splitOnP isSeparator, isSingleDot t = false ∧ isDoubleDot t = false := by
    have hresolve := resolveDots_length [] (d :: s.splitOnP isSeparator)
    rw [← hparse, hlength, htext] at hresolve
    by_contra hdots
    rw [if_pos] at hresolve
    · simp [pathText, below] at hresolve
    · simpa [List.any_eq_true, imp_iff_not_or] using hdots
  rw [resolveDots_of_no_dots [] hno, List.nil_append] at hparse
  rw [hparse] at hescape
  have hsame : (s.map fun c => if isSeparator c then '/' else c) = s := by
    rw [requestPath, hparse, percentDecode_eq_self_iff.2 hescape, htext, below] at harrives
    simpa using harrives
  have hsep : ∀ c ∈ s, isSeparator c = false := by
    intro c hc
    by_contra htrue
    rw [Bool.not_eq_false] at htrue
    exact hslash (hsame ▸ List.mem_map.2 ⟨c, hc, if_pos htrue⟩)
  rw [htext, hsame, ← below, hasEscape_below hd] at hescape
  rw [List.splitOnP_eq_singleton hsep] at hno
  have hs := hno s (List.mem_cons_of_mem d List.mem_cons_self)
  refine ⟨hsep, hescape, ?_, ?_⟩
  · rintro rfl
    exact absurd hs.1 (by decide)
  · rintro rfl
    exact absurd hs.2 (by decide)

theorem getLast?_below (hne : s ≠ []) : (below d s).getLast? = s.getLast? := by
  have h : below d s = ('/' :: (d ++ ['/'])) ++ s := by simp [below]
  rw [h, List.getLast?_append_of_ne_nil _ hne]

theorem Plain.separators (h : Plain s) : ∀ c ∈ s, isSeparator c = false := by
  intro c hc
  have hchar := h.chars c hc
  simp only [List.mem_cons, List.not_mem_nil, or_false, not_or] at hchar
  simp [isSeparator, hchar]

/-- A plain text is a segment of its own. -/
theorem Plain.parsePath_below (h : Plain s) (hd : d.all Char.isAlpha = true) :
    parsePath (below d s) = [d, s] := by
  have hsub : ∀ l : List Char, l ⊆ ['?', '#', '/', '\\', '\t', '\n', '\r'] → ∀ c ∈ s, c ∉ l :=
    fun l hl c hc hmem => h.chars c hc (hl hmem)
  have htrim : trimEnd (below d s) = below d s := by
    rw [trimEnd_eq_self_iff, getLast?_below h.nonempty]
    exact h.last
  have htabs : removeTabsAndNewlines (below d s) = below d s := by
    rw [removeTabsAndNewlines_eq_self_iff, forall_below_iff hd (by decide) (by decide)]
    exact hsub _ (by simp)
  have hcut : cutPath (below d s) = below d s := by
    rw [cutPath_eq_self_iff, forall_below_iff hd (by decide) (by decide)]
    exact hsub _ (by simp)
  have hno : ∀ t ∈ [d, s], isSingleDot t = false ∧ isDoubleDot t = false := by
    intro t ht
    rcases List.mem_cons.1 ht with rfl | ht
    · exact letters_no_dots hd
    · rw [List.mem_singleton.1 ht]
      by_contra hdots
      rw [not_and_or, Bool.not_eq_false, Bool.not_eq_false] at hdots
      rcases dots_of_not_hasEscape hdots h.escapes with hs | hs
      · exact h.dots.1 hs
      · exact h.dots.2 hs
  rw [parsePath, htrim, htabs, hcut, splitOnP_below hd, List.splitOnP_eq_singleton h.separators,
    resolveDots_of_no_dots [] hno, List.nil_append]

/-- **What arrives as it is**: a text that is joined to a directory is the last segment of the path
that the server reads if and only if it is plain. -/
theorem requestPath_below_iff (hd : d.all Char.isAlpha = true) :
    requestPath (below d s) = below d s ∧ s ≠ [] ∧ '/' ∉ s ↔ Plain s := by
  constructor
  · rintro ⟨harrives, hne, hslash⟩
    obtain ⟨htrim, htabs, hcut, -, -⟩ := stages_eq (congrArg List.length harrives)
    obtain ⟨hsep, hescape, hdots⟩ := segments_of_arrives hd harrives hslash
    rw [trimEnd_eq_self_iff, getLast?_below hne] at htrim
    rw [removeTabsAndNewlines_eq_self_iff, forall_below_iff hd (by decide) (by decide)] at htabs
    rw [cutPath_eq_self_iff, forall_below_iff hd (by decide) (by decide)] at hcut
    refine ⟨hne, fun c hc => ?_, htrim, hescape, hdots⟩
    have hc1 := htabs c hc
    have hc2 := hcut c hc
    have hc3 := of_decide_eq_false (hsep c hc)
    simp only [List.mem_cons, List.not_mem_nil, or_false, not_or] at hc1 hc2 hc3 ⊢
    tauto
  · intro h
    refine ⟨?_, h.nonempty, fun hmem => h.chars '/' hmem (by decide)⟩
    have htext : pathText [d, s] = below d s := by simp [pathText, below]
    rw [requestPath, h.parsePath_below hd, htext, percentDecode_eq_self_iff, hasEscape_below hd]
    exact h.escapes

end Plain

end WebUrl
