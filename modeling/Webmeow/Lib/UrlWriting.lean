import Mathlib.Data.List.TakeWhile
import Webmeow.Lib.Url

/-!
# How `net/url` and `httputil` write a URL

A program may assign to the path of a URL and leave its raw path alone. What is written is the raw path
only where it still is an encoding of the path, so what a server decodes is always the path.
-/

namespace Url

/-- A URL that the program may have changed. -/
structure Location where
  /-- The path. -/
  path : List Char
  /-- The path as it was written. -/
  rawPath : List Char
  /-- The query as it was written. -/
  rawQuery : List Char

/-- The location of a URL. -/
def URL.location (u : URL) : Location := ⟨u.path, u.rawPath, u.rawQuery⟩

/-- `validEncoded` of a path. -/
def validEncoded (s : List Char) : Bool :=
  s.all fun c =>
    c ∈ ['!', '$', '&', '\x27', '(', ')', '*', '+', ',', ';', '=', ':', '@', '[', ']', '%'] ||
      !shouldEscape .path c

/-- `URL.EscapedPath`. -/
def Location.escapedPath (u : Location) : List Char :=
  if u.rawPath ≠ [] ∧ validEncoded u.rawPath = true ∧ unescape .path u.rawPath = some u.path then
    u.rawPath
  else if u.path = ['*'] then ['*']
  else escape .path u.path

/-- `URL.RequestURI`. -/
def Location.requestURI (u : Location) : List Char :=
  (if u.escapedPath = [] then ['/'] else u.escapedPath) ++
    if u.rawQuery = [] then [] else '?' :: u.rawQuery

/-! ## Joining a target and a request -/

/-- The text ends with a slash. -/
def hasSuffixSlash (s : List Char) : Bool := s.getLast? = some '/'

/-- The text starts with a slash. -/
def hasPrefixSlash (s : List Char) : Bool := s.head? = some '/'

/-- `singleJoiningSlash` -/
def singleJoiningSlash (a b : List Char) : List Char :=
  match hasSuffixSlash a, hasPrefixSlash b with
  | true, true => a ++ b.tail
  | false, false => a ++ '/' :: b
  | _, _ => a ++ b

/-- `joinURLPath`: the path and the raw path. -/
def joinURLPath (a b : Location) : List Char × List Char :=
  if a.rawPath = [] ∧ b.rawPath = [] then (singleJoiningSlash a.path b.path, [])
  else
    let apath := a.escapedPath
    let bpath := b.escapedPath
    match hasSuffixSlash apath, hasPrefixSlash bpath with
    | true, true => (a.path ++ b.path.tail, apath ++ bpath.tail)
    | false, false => (a.path ++ '/' :: b.path, apath ++ '/' :: bpath)
    | _, _ => (a.path ++ b.path, apath ++ bpath)

/-- The query behind the one of a target. -/
def joinQuery (targetQuery rawQuery : List Char) : List Char :=
  if targetQuery = [] ∨ rawQuery = [] then targetQuery ++ rawQuery
  else targetQuery ++ '&' :: rawQuery

/-- `rewriteRequestURL`: what `NewSingleHostReverseProxy` makes of the URL of a request. -/
def rewriteRequestURL (target u : Location) : Location where
  path := (joinURLPath target u).1
  rawPath := (joinURLPath target u).2
  rawQuery := joinQuery target.rawQuery u.rawQuery

/-! ## Strings of bytes -/

/-- Every character is one of a byte. -/
def Bytes (s : List Char) : Prop := ∀ c ∈ s, c.toNat < 256

instance (s : List Char) : Decidable (Bytes s) :=
  List.decidableBAll (fun c : Char => c.toNat < 256) s

theorem bytes_nil : Bytes [] := fun _ hc => absurd hc List.not_mem_nil

/-- A URL whose paths are strings of bytes. -/
structure ByteURL extends URL where
  /-- The path is of bytes. -/
  pathBytes : Bytes path
  /-- The path as it was written is of bytes. -/
  rawPathBytes : Bytes rawPath

theorem Bytes.append {s t : List Char} (hs : Bytes s) (ht : Bytes t) : Bytes (s ++ t) :=
  fun c hc => (List.mem_append.1 hc).elim (hs c) (ht c)

theorem Bytes.tail {s : List Char} (hs : Bytes s) : Bytes s.tail :=
  fun c hc => hs c (List.mem_of_mem_tail hc)

/-! ## Encoding and decoding -/

theorem unhex_upperhex {n : ℕ} (hn : n < 16) : unhex (upperhex.getD n '0') = some n := by
  have hall : ∀ m : Fin 16, unhex (upperhex.getD m.val '0') = some m.val := by decide
  exact hall ⟨n, hn⟩

/-- An escaped byte is read back. -/
theorem unescape_escapeByte {c : Char} (hc : c.toNat < 256) (s : List Char) :
    unescape .path (escapeByte .path c ++ s) = (unescape .path s).map (c :: ·) := by
  unfold escapeByte
  rw [if_neg (by simp)]
  split_ifs with hesc
  · have hhi := @unhex_upperhex (c.toNat / 16 % 16) (Nat.mod_lt _ (by decide))
    have hlo := @unhex_upperhex (c.toNat % 16) (Nat.mod_lt _ (by decide))
    have hsum : 16 * (c.toNat / 16 % 16) + c.toNat % 16 = c.toNat := by omega
    rw [List.cons_append, List.cons_append, List.cons_append, List.nil_append, unescape, hhi, hlo]
    cases unescape .path s with
    | none => rfl
    | some t => simp [hsum]
  · have hpercent : c ≠ '%' := fun h => hesc (h ▸ by decide)
    rw [List.singleton_append, unescape_cons hpercent, if_neg (by simp)]

/-- What is encoded is decoded again. -/
theorem unescape_escape {s : List Char} (hs : Bytes s) :
    unescape .path (escape .path s) = some s := by
  induction s with
  | nil => rfl
  | cons c s ih =>
    have hcons : escape .path (c :: s) = escapeByte .path c ++ escape .path s := List.flatMap_cons
    rw [hcons, unescape_escapeByte (hs c List.mem_cons_self),
      ih fun d hd => hs d (List.mem_cons_of_mem _ hd)]
    rfl

/-- A text that is as long as its decoding has no escape. -/
theorem no_escape_of_length {s t : List Char} (h : Decodes s t) (hlength : t.length = s.length) :
    '%' ∉ s := by
  induction h with
  | nil => exact List.not_mem_nil
  | escape a b c h ih =>
    have hle := h.length_le
    simp only [List.length_cons] at hlength
    omega
  | plain hc d h ih =>
    have hrest := ih (Nat.succ.inj hlength)
    exact fun hin => (List.mem_cons.1 hin).elim (fun he => hc he.symm) hrest

/-- Text that stands for itself has no escape. -/
theorem no_escape_of_unescape_self {s : List Char} (h : unescape .path s = some s) : '%' ∉ s :=
  no_escape_of_length (decodes h) rfl

theorem eq_nil_of_unescape_nil {s : List Char} (h : unescape .path s = some []) : s = [] := by
  cases decodes h with
  | nil => rfl

/-- No text is its own decoding behind one more character. -/
theorem unescape_ne_cons {c : Char} (hc : c ≠ '%') {d : List Char} :
    unescape .path (c :: d) ≠ some d := by
  induction d with
  | nil =>
    rw [unescape_cons hc]
    simp [unescape]
  | cons e d ih =>
    intro h
    rw [unescape_cons hc, Option.map_eq_some_iff] at h
    obtain ⟨rest, hrest, he⟩ := h
    rw [if_neg (by simp)] at he
    obtain ⟨rfl, rfl⟩ := List.cons.inj he
    exact ih hrest

/-! ## What is written -/

/-- An escaped path is read back. -/
theorem unescape_escapedPath {u : Location} (hu : Bytes u.path) :
    unescape .path u.escapedPath = some u.path := by
  unfold Location.escapedPath
  split_ifs with hraw hstar
  · exact hraw.2.2
  · rw [hstar]
    rfl
  · exact unescape_escape hu

theorem question_notMem_escapeByte (b : Char) : '?' ∉ escapeByte .path b := by
  intro hc
  unfold escapeByte at hc
  rw [if_neg (by simp)] at hc
  split_ifs at hc with hesc
  · have hhex : ∀ n, upperhex.getD n '0' ≠ '?' := fun n h => by
      have := @isQueryChar_upperhex n
      rw [h] at this
      exact absurd this (by decide)
    rcases List.mem_cons.1 hc with h | hc
    · exact absurd h (by decide)
    · rcases List.mem_cons.1 hc with h | hc
      · exact hhex _ h.symm
      · exact hhex _ (List.mem_singleton.1 hc).symm
  · exact hesc (List.mem_singleton.1 hc ▸ by decide)

/-- An escaped path has no question mark. -/
theorem question_notMem_escapedPath (u : Location) : '?' ∉ u.escapedPath := by
  unfold Location.escapedPath
  split_ifs with hraw hstar
  · intro hin
    have hvalid := List.all_eq_true.1 hraw.2.1 _ hin
    exact absurd hvalid (by decide)
  · decide
  · intro hin
    obtain ⟨b, -, hb⟩ := List.mem_flatMap.1 hin
    exact question_notMem_escapeByte b hb

theorem cut_append {sep : Char} {s : List Char} (hs : sep ∉ s) (t : List Char) :
    cut sep (s ++ sep :: t) = (s, t) := by
  have hall : ∀ c ∈ s, decide (c ≠ sep) = true := fun c hc => decide_eq_true fun h => hs (h ▸ hc)
  unfold cut
  rw [List.takeWhile_append_of_pos hall, List.dropWhile_append_of_pos hall]
  simp

/-- A text without a separator is not cut. -/
theorem cut_of_notMem {sep : Char} {s : List Char} (hs : sep ∉ s) : cut sep s = (s, []) := by
  have hall : ∀ c ∈ s, decide (c ≠ sep) = true := fun c hc => decide_eq_true fun h => hs (h ▸ hc)
  unfold cut
  rw [List.takeWhile_eq_self_iff.2 hall, List.dropWhile_eq_nil_iff.2 hall]
  rfl

/-- **What a server reads**: the path of the URL, whatever its raw path, and its query. -/
theorem requestURI_read {u : Location} (hu : Bytes u.path) (hne : u.path ≠ []) :
    unescape .path (cut '?' u.requestURI).1 = some u.path ∧
      (cut '?' u.requestURI).2 = u.rawQuery := by
  have hdecode := unescape_escapedPath hu
  have hwritten : u.escapedPath ≠ [] := by
    intro h
    rw [h] at hdecode
    exact hne (Option.some.inj hdecode).symm
  unfold Location.requestURI
  rw [if_neg hwritten]
  split_ifs with hq
  · rw [List.append_nil, cut_of_notMem (question_notMem_escapedPath u)]
    exact ⟨hdecode, hq.symm⟩
  · rw [cut_append (question_notMem_escapedPath u)]
    exact ⟨hdecode, rfl⟩

end Url
