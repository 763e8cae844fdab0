import Webmeow.Gateway.Proxy

/-!
# When equal cache keys mean equal requests to the backend

The parts of a key can be read back from it: neither the encoded query nor the scope contains a
question mark, and the encoded query contains no bar. So two keys are equal exactly when the decoded
paths, the sorted queries and the first values of the credentials are. The backend gets more than
that.
-/

namespace Gateway

open Url Separators

/-! ## The scope -/

theorem digitChar_inj {m n : ℕ} (hm : m < 16) (hn : n < 16) (h : m.digitChar = n.digitChar) :
    m = n := by
  have hall : ∀ m < 16, ∀ n < 16, Nat.digitChar m = Nat.digitChar n → m = n := by decide
  exact hall m hm n hn h

theorem isQueryChar_digitChar (n : ℕ) : isQueryChar n.digitChar = true := by
  simp [isQueryChar]

theorem byte_lt (b : UInt8) : b.toNat < 256 := b.toBitVec.isLt

/-- Bytes can be read back from their digits. -/
theorem encodeToString_injective {bs bs' : List UInt8}
    (h : encodeToString bs = encodeToString bs') : bs = bs' := by
  have hlist := String.ofList_injective h
  clear h
  induction bs generalizing bs' with
  | nil =>
    cases bs' with
    | nil => rfl
    | cons b' bs' => cases hlist
  | cons b bs ih =>
    cases bs' with
    | nil => cases hlist
    | cons b' bs' =>
      simp only [List.flatMap_cons, List.cons_append, List.nil_append, List.cons.injEq] at hlist
      obtain ⟨hhi, hlo, hrest⟩ := hlist
      have h1 := byte_lt b
      have h2 := byte_lt b'
      have hhi' := digitChar_inj (by omega) (by omega) hhi
      have hlo' := digitChar_inj (by omega) (by omega) hlo
      have hb : b = b' := UInt8.toNat_inj.1 (by omega)
      rw [hb, ih hrest]

section Scope

variable {sum256 : String → List UInt8} {r r' : Request}

/-- The text a credential adds to the key. -/
theorem scopePart_eq_some {c : String × String} {part : String}
    (h : scopePart sum256 r c = some part) :
    part.toList = c.1.toList ++ '=' :: (encodeToString ((sum256 (r.header.get c.2)).take 8)).toList := by
  simp only [scopePart] at h
  split_ifs at h
  rw [← Option.some.inj h]
  simp

theorem isQueryChar_scopePart {c : String × String} (hc : c ∈ credentials) {part : String}
    (h : scopePart sum256 r c = some part) {x : Char} (hx : x ∈ part.toList) :
    isQueryChar x = true := by
  have hlabels : ∀ c ∈ credentials, c.1.toList.all isQueryChar = true := by decide
  rw [scopePart_eq_some h] at hx
  rcases List.mem_append.1 hx with hx | hx
  · exact List.all_eq_true.1 (hlabels c hc) x hx
  · rcases List.mem_cons.1 hx with rfl | hx
    · decide
    · rw [encodeToString, String.toList_ofList] at hx
      obtain ⟨b, -, hb⟩ := List.mem_flatMap.1 hx
      rcases List.mem_cons.1 hb with rfl | hb
      · exact isQueryChar_digitChar _
      · rw [List.mem_singleton.1 hb]
        exact isQueryChar_digitChar _

/-- The parts of the scope that start with the first letter of a label are those of the label. -/
theorem scope_filter {c : String × String} (hc : c ∈ credentials) :
    ((credentials.filterMap (scopePart sum256 r)).filter
      fun part => part.toList.head? = c.1.toList.head?) = (scopePart sum256 r c).toList := by
  have hlabel : ∀ c ∈ credentials, c.1.toList ≠ [] := by decide
  have hhead : ∀ c' ∈ credentials, ∀ part, scopePart sum256 r c' = some part →
      part.toList.head? = c'.1.toList.head? := by
    intro c' hc' part hpart
    rw [scopePart_eq_some hpart, List.head?_append_of_ne_nil _ (hlabel c' hc')]
  have honly : ∀ c ∈ credentials,
      credentials.filter (fun c' => c'.1.toList.head? = c.1.toList.head?) = [c] := by decide
  calc ((credentials.filterMap (scopePart sum256 r)).filter
        fun part => part.toList.head? = c.1.toList.head?)
      = (credentials.filter fun c' => c'.1.toList.head? = c.1.toList.head?).filterMap
          (scopePart sum256 r) := by
        rw [List.filter_filterMap, List.filterMap_filter]
        refine List.filterMap_congr fun c' hc' => ?_
        cases hpart : scopePart sum256 r c' with
        | none => simp
        | some part => simp [Option.filter, hhead c' hc' part hpart]
    _ = (scopePart sum256 r c).toList := by
        rw [honly c hc]
        cases hpart : scopePart sum256 r c with
        | none => simp [hpart]
        | some part => simp [hpart]

/-- Equal parts of the scope mean equal first values, for a hash without collisions on them. -/
theorem value_of_scopePart {c : String × String}
    (hsum : (sum256 (r.header.get c.2)).take 8 = (sum256 (r'.header.get c.2)).take 8 →
      r.header.get c.2 = r'.header.get c.2)
    (h : scopePart sum256 r c = scopePart sum256 r' c) : r.header.get c.2 = r'.header.get c.2 := by
  simp only [scopePart] at h
  by_cases hv : r.header.get c.2 = ""
  · by_cases hv' : r'.header.get c.2 = ""
    · rw [hv, hv']
    · simp [hv, hv'] at h
  · by_cases hv' : r'.header.get c.2 = ""
    · simp [hv, hv'] at h
    · rw [if_pos hv, if_pos hv'] at h
      have hlist := congrArg String.toList (Option.some.inj h)
      simp only [String.toList_append, List.append_assoc, List.append_cancel_left_eq] at hlist
      exact hsum (encodeToString_injective (String.toList_injective hlist))

/-- The end of a key: nothing, or the scope behind a bar. -/
def scopeSuffix (scope : List String) : List Char :=
  if 0 < scope.length then '|' :: ['|'].intercalate (scope.map String.toList) else []

/-- The parts of the key, in order. -/
theorem cacheKey_toList : (cacheKey sum256 r).toList =
    r.method.toList ++ ' ' :: (r.url.path ++ '?' :: (encode (parseQuery r.url.rawQuery) ++
      scopeSuffix (credentials.filterMap (scopePart sum256 r)))) := by
  simp only [cacheKey, scopeSuffix]
  split_ifs with h
  · simp
  · simp

theorem isQueryChar_scope {part : String} (hpart : part ∈ credentials.filterMap (scopePart sum256 r))
    {x : Char} (hx : x ∈ part.toList) : isQueryChar x = true := by
  obtain ⟨c, hc, hcp⟩ := List.mem_filterMap.1 hpart
  exact isQueryChar_scopePart hc hcp hx

/-- No question mark follows the query. -/
theorem question_notMem_suffix :
    '?' ∉ encode (parseQuery r.url.rawQuery) ++
      scopeSuffix (credentials.filterMap (scopePart sum256 r)) := by
  intro h
  rcases List.mem_append.1 h with h | h
  · exact absurd (isQueryChar_encode h) (by decide)
  · unfold scopeSuffix at h
    split_ifs at h
    · rcases List.mem_cons.1 h with h | h
      · cases h
      · rcases mem_intercalate h with h | ⟨l, hl, hx⟩
        · cases h
        · obtain ⟨part, hpart, rfl⟩ := List.mem_map.1 hl
          exact absurd (isQueryChar_scope hpart hx) (by decide)
    · cases h

/-- No bar is in an encoded query. -/
theorem bar_notMem_encode {values : List (List Char × List Char)} : '|' ∉ encode values := by
  intro h
  exact absurd (isQueryChar_encode h) (by decide)

theorem scopeSuffix_inj
    (h : scopeSuffix (credentials.filterMap (scopePart sum256 r)) =
      scopeSuffix (credentials.filterMap (scopePart sum256 r'))) :
    credentials.filterMap (scopePart sum256 r) = credentials.filterMap (scopePart sum256 r') := by
  have hbar : ∀ (r : Request), ∀ l ∈ (credentials.filterMap (scopePart sum256 r)).map String.toList,
      '|' ∉ l := by
    intro r l hl hx
    obtain ⟨part, hpart, rfl⟩ := List.mem_map.1 hl
    exact absurd (isQueryChar_scope hpart hx) (by decide)
  unfold scopeSuffix at h
  by_cases h1 : 0 < (credentials.filterMap (scopePart sum256 r)).length
  · by_cases h2 : 0 < (credentials.filterMap (scopePart sum256 r')).length
    · rw [if_pos h1, if_pos h2] at h
      have hsplit := congrArg (List.splitOn '|') (List.cons.inj h).2
      rw [List.splitOn_intercalate _ (hbar r) (by simpa [List.length_pos_iff] using h1),
        List.splitOn_intercalate _ (hbar r') (by simpa [List.length_pos_iff] using h2)] at hsplit
      exact List.map_injective_iff.2 (fun _ _ => String.toList_injective) hsplit
    · rw [if_pos h1, if_neg h2] at h
      cases h
  · by_cases h2 : 0 < (credentials.filterMap (scopePart sum256 r')).length
    · rw [if_neg h1, if_pos h2] at h
      cases h
    · rw [List.eq_nil_of_length_eq_zero (Nat.eq_zero_of_not_pos h1),
        List.eq_nil_of_length_eq_zero (Nat.eq_zero_of_not_pos h2)]

/-- An encoded query and a suffix are told apart at the first bar. -/
theorem encode_scopeSuffix_inj {q q' : List (List Char × List Char)} {scope scope' : List String}
    (h : encode q ++ scopeSuffix scope = encode q' ++ scopeSuffix scope') :
    encode q = encode q' ∧ scopeSuffix scope = scopeSuffix scope' := by
  have hcut : ∀ (q : List (List Char × List Char)) (scope : List String),
      (encode q ++ scopeSuffix scope).takeWhile (· ≠ '|') = encode q := by
    intro q scope
    rw [List.takeWhile_append_of_pos]
    · unfold scopeSuffix
      split_ifs <;> simp
    · intro c hc
      have hne : c ≠ '|' := fun hbar => bar_notMem_encode (hbar ▸ hc)
      simpa using hne
  have hq : encode q = encode q' := by rw [← hcut q scope, ← hcut q' scope', h]
  rw [hq] at h
  exact ⟨hq, List.append_cancel_left h⟩

end Scope

/-! ## What a key determines -/

/-- The two requests agree in everything that a key is made of. -/
def SameKeyParts (r r' : Request) : Prop :=
  r.method = r'.method ∧ r.url.path = r'.url.path ∧
    encode (parseQuery r.url.rawQuery) = encode (parseQuery r'.url.rawQuery) ∧
      ∀ c ∈ credentials, r.header.get c.2 = r'.header.get c.2

theorem space_notMem_method {method : String} (h : method = "GET" ∨ method = "HEAD") :
    ' ' ∉ method.toList := by
  rcases h with rfl | rfl
  · decide
  · decide

/-- Equal keys mean equal parts. -/
theorem cacheKey_eq_iff {sum256 : String → List UInt8} {r r' : Request}
    (hr : ' ' ∉ r.method.toList) (hr' : ' ' ∉ r'.method.toList)
    (hsum : ∀ c ∈ credentials,
      (sum256 (r.header.get c.2)).take 8 = (sum256 (r'.header.get c.2)).take 8 →
        r.header.get c.2 = r'.header.get c.2) :
    cacheKey sum256 r = cacheKey sum256 r' ↔ SameKeyParts r r' := by
  constructor
  · intro h
    have hlist := congrArg String.toList h
    rw [cacheKey_toList, cacheKey_toList] at hlist
    -- the method ends at the first space, the path at the last question mark
    obtain ⟨hmethod, hrest⟩ := append_sep_inj hr hr' hlist
    obtain ⟨hpath, htail⟩ := append_last_sep_inj question_notMem_suffix question_notMem_suffix hrest
    obtain ⟨hquery, hsuffix⟩ := encode_scopeSuffix_inj htail
    have hscope := scopeSuffix_inj hsuffix
    refine ⟨String.toList_injective hmethod, hpath, hquery, fun c hc =>
      value_of_scopePart (hsum c hc) ?_⟩
    have hparts : (scopePart sum256 r c).toList = (scopePart sum256 r' c).toList := by
      rw [← scope_filter hc, ← scope_filter hc, hscope]
    refine Option.ext fun part => ?_
    rw [← Option.mem_toList, ← Option.mem_toList, hparts]
  · rintro ⟨hmethod, hpath, hquery, hvalues⟩
    have hscope : credentials.filterMap (scopePart sum256 r) =
        credentials.filterMap (scopePart sum256 r') := by
      refine List.filterMap_congr fun c hc => ?_
      simp only [scopePart, hvalues c hc]
    simp only [cacheKey, hmethod, hpath, hquery, hscope]

/-! ## The forwarded path -/

/-- A path as the router sees it, and its decoded form. -/
def Decodes (x path : List Char) : Prop := x = path ∨ unescape .path x = some path

/-- The path the router matches is an escaping of the path. -/
theorem routePath_decodes (url : URL) : Decodes (routePath url) url.path := by
  unfold routePath
  split_ifs with h
  · exact Or.inr (url.encodes h)
  · exact Or.inl rfl

/-- Text without an escape stands for itself at the start of a path. -/
theorem Decodes.of_append {x y path : List Char} (hx : '%' ∉ x) (h : Decodes (x ++ y) path) :
    ∃ z, path = x ++ z ∧ Decodes y z := by
  rcases h with rfl | h
  · exact ⟨y, rfl, Or.inl rfl⟩
  · rw [unescape_append hx, Option.map_eq_some_iff] at h
    obtain ⟨z, hz, rfl⟩ := h
    exact ⟨z, rfl, Or.inr hz⟩

theorem Decodes.of_slash {y path : List Char} (h : Decodes ('/' :: y) path) :
    ∃ z, path = '/' :: z ∧ Decodes y z :=
  Decodes.of_append (x := ['/']) (by decide) h

theorem Decodes.nil {path : List Char} (h : Decodes [] path) : path = [] := by
  rcases h with rfl | h
  · rfl
  · exact (Option.some.inj h).symm

/-- A wildcard that got a slash in front and one that had it come from different paths. -/
theorem wildcard_slash_ne {a q : List Char} (ha : a.head? ≠ some '/') (h : Decodes a q)
    (h' : Decodes ('/' :: a) q) : False := by
  obtain ⟨b, rfl, hb⟩ := h'.of_slash
  rcases h with rfl | h
  · exact ha rfl
  · have hlen := (decodes h).length_le
    rcases hb with rfl | hb
    · simp only [List.length_cons] at hlen
      omega
    · rw [h] at hb
      have := congrArg List.length (Option.some.inj hb)
      simp only [List.length_cons] at this
      omega

/-- Wildcards of one decoded path are forwarded alike only if they are equal. -/
theorem wildcardPath_inj {p p' q : List Char} (hp : Decodes p q) (hp' : Decodes p' q)
    (h : wildcardPath p = wildcardPath p') : p = p' := by
  have hempty : ∀ {p p' : List Char}, Decodes p q → Decodes p' q → p = [] →
      wildcardPath p = wildcardPath p' → p' = [] := by
    rintro p p' hp hp' rfl h
    have hq := hp.nil
    subst hq
    by_contra hne
    unfold wildcardPath at h
    rw [if_pos rfl, if_neg hne] at h
    split_ifs at h with hslash
    · exact hne (List.cons.inj h).2.symm
    · rw [← h] at hp'
      obtain ⟨z, hz, -⟩ := hp'.of_slash
      cases hz
  by_cases hnil : p = []
  · rw [hnil, hempty hp hp' hnil h]
  · by_cases hnil' : p' = []
    · rw [hnil', hempty hp' hp hnil' h.symm]
    · unfold wildcardPath at h
      rw [if_neg hnil, if_neg hnil'] at h
      by_cases hs : p.head? ≠ some '/'
      · by_cases hs' : p'.head? ≠ some '/'
        · rw [if_pos hs, if_pos hs'] at h
          exact (List.cons.inj h).2
        · rw [if_pos hs, if_neg hs'] at h
          exact (wildcard_slash_ne hs hp (h ▸ hp')).elim
      · by_cases hs' : p'.head? ≠ some '/'
        · rw [if_neg hs, if_pos hs'] at h
          exact (wildcard_slash_ne hs' hp' (h ▸ hp)).elim
        · rw [if_neg hs, if_neg hs'] at h
          exact h

theorem pattern_no_escape (s : Service) : '%' ∉ s.pattern := by
  cases s <;> decide

/-- The route of a service matches its pattern, with a wildcard behind a slash or without one. -/
theorem urlParam_eq_some {s : Service} {path wildcard : List Char}
    (h : urlParam s path = some wildcard) :
    ∃ y, path = s.pattern ++ y ∧ (y = [] ∧ wildcard = [] ∨ y = '/' :: wildcard) := by
  unfold urlParam at h
  split_ifs at h with h1 h2
  · exact ⟨[], by simpa using h1, Or.inl ⟨rfl, (Option.some.inj h).symm⟩⟩
  · obtain ⟨t, rfl⟩ := List.isPrefixOf_iff_prefix.1 h2
    refine ⟨'/' :: t, by simp, Or.inr ?_⟩
    rw [← Option.some.inj h]
    simp [List.drop_append]

/-- Two URLs with one decoded path are forwarded to one path exactly if the router sees one path. -/
theorem forwarded_path_iff {s : Service} {url url' : URL} {p p' : List Char}
    (hpath : url.path = url'.path) (h : urlParam s (routePath url) = some p)
    (h' : urlParam s (routePath url') = some p') :
    wildcardPath p = wildcardPath p' ↔ routePath url = routePath url' := by
  constructor
  · intro hw
    obtain ⟨y, hy, hyp⟩ := urlParam_eq_some h
    obtain ⟨y', hy', hyp'⟩ := urlParam_eq_some h'
    have hd := routePath_decodes url
    have hd' := routePath_decodes url'
    rw [hy] at hd
    rw [hy'] at hd'
    obtain ⟨z, hz, hdz⟩ := hd.of_append (pattern_no_escape s)
    obtain ⟨z', hz', hdz'⟩ := hd'.of_append (pattern_no_escape s)
    have hzz : z = z' := List.append_cancel_left (hz.symm.trans (hpath.trans hz'))
    subst hzz
    rw [hy, hy']
    rcases hyp with ⟨rfl, rfl⟩ | rfl <;> rcases hyp' with ⟨rfl, rfl⟩ | rfl
    · rfl
    · obtain ⟨q, rfl, -⟩ := hdz'.of_slash
      cases hdz.nil
    · obtain ⟨q, rfl, -⟩ := hdz.of_slash
      cases hdz'.nil
    · obtain ⟨q, rfl, hq⟩ := hdz.of_slash
      obtain ⟨q', hqq, hq'⟩ := hdz'.of_slash
      obtain ⟨-, rfl⟩ := List.cons.inj hqq
      rw [wildcardPath_inj hq hq' hw]
  · intro he
    rw [he, h'] at h
    rw [Option.some.inj h]

/-! ## The forwarded credentials -/

/-- What is left of a header after `Del`. -/
theorem Header.values_del (h : Header) (name n : String) :
    (h.del name).values n =
      if n = String.ofList (canonicalMIMEHeaderKey name.toList) then [] else h.values n := by
  unfold Header.del Header.values
  by_cases hn : n = String.ofList (canonicalMIMEHeaderKey name.toList)
  · rw [hn]
    simp
  · simp [AList.lookup_erase_ne hn, hn]

theorem Header.values_foldl_del (names : List String) (h : Header) (n : String) :
    (names.foldl Header.del h).values n =
      if n ∈ names.map fun name => String.ofList (canonicalMIMEHeaderKey name.toList) then []
      else h.values n := by
  induction names generalizing h with
  | nil => simp
  | cons name names ih =>
    rw [List.foldl_cons, ih, Header.values_del]
    by_cases hn : n = String.ofList (canonicalMIMEHeaderKey name.toList)
    · simp [hn]
    · simp [hn]

/-- The values of a header field that is not named by `Connection`. -/
def endToEndValues (h : Header) (name : String) : List String :=
  if name ∈ (connectionOptions h).map fun o => String.ofList (canonicalMIMEHeaderKey o.toList) then []
  else h.values name

/-- The credentials that are passed on are the end-to-end ones. -/
theorem removeHopByHopHeaders_values (h : Header) {c : String × String} (hc : c ∈ credentials) :
    (removeHopByHopHeaders h).values c.2 = endToEndValues h c.2 := by
  have hhop : ∀ c ∈ credentials,
      c.2 ∉ hopHeaders.map fun name => String.ofList (canonicalMIMEHeaderKey name.toList) := by decide
  unfold removeHopByHopHeaders endToEndValues
  rw [Header.values_foldl_del, if_neg (hhop c hc), Header.values_foldl_del]

/-! ## The requests to the backend -/

/-- The requests to the backend agree in method, path, raw query and all values of the
credentials. -/
def SameForward (o o' : Outgoing) : Prop :=
  o.method = o'.method ∧ o.path = o'.path ∧ o.rawQuery = o'.rawQuery ∧
    ∀ c ∈ credentials, o.header.values c.2 = o'.header.values c.2

/-- The two requests agree in what a key leaves out: the path as it was written, where the router
looks at it, the query as it was written, and the further values of the credentials. -/
def SameUndecoded (r r' : Request) : Prop :=
  routePath r.url = routePath r'.url ∧ r.url.rawQuery = r'.url.rawQuery ∧
    ∀ c ∈ credentials, endToEndValues r.header c.2 = endToEndValues r'.header c.2

/-- **Cache keys and forwarded requests**: two GET or HEAD requests on the route of a service do not
share a key without being forwarded alike if and only if, agreeing in the parts of the key, they also
agree in the path and the query as they were written and in all values of the credentials. -/
theorem equal_keys_forward_alike_iff (sum256 : String → List UInt8) (s : Service) (r r' : Request)
    (hr : r.method = "GET" ∨ r.method = "HEAD") (hr' : r'.method = "GET" ∨ r'.method = "HEAD")
    (hsum : ∀ c ∈ credentials,
      (sum256 (r.header.get c.2)).take 8 = (sum256 (r'.header.get c.2)).take 8 →
        r.header.get c.2 = r'.header.get c.2)
    {o o' : Outgoing} (ho : proxyRoute s r = some o) (ho' : proxyRoute s r' = some o') :
    (cacheKey sum256 r = cacheKey sum256 r' → SameForward o o') ↔
      (SameKeyParts r r' → SameUndecoded r r') := by
  rw [cacheKey_eq_iff (space_notMem_method hr) (space_notMem_method hr') hsum]
  obtain ⟨p, hp, rfl⟩ := Option.map_eq_some_iff.1 ho
  obtain ⟨p', hp', rfl⟩ := Option.map_eq_some_iff.1 ho'
  refine imp_congr_right fun hparts => ?_
  obtain ⟨hmethod, hpath, -, -⟩ := hparts
  have hroute := forwarded_path_iff hpath hp hp'
  have hcredentials : (∀ c ∈ credentials, (removeHopByHopHeaders r.header).values c.2 =
      (removeHopByHopHeaders r'.header).values c.2) ↔
      ∀ c ∈ credentials, endToEndValues r.header c.2 = endToEndValues r'.header c.2 := by
    refine forall₂_congr fun c hc => ?_
    rw [removeHopByHopHeaders_values _ hc, removeHopByHopHeaders_values _ hc]
  constructor
  · rintro ⟨-, hw, hq, hv⟩
    exact ⟨hroute.1 hw, hq, hcredentials.1 hv⟩
  · rintro ⟨hw, hq, hv⟩
    exact ⟨hmethod, hroute.2 hw, hq, hcredentials.2 hv⟩

/-- A request of a guest whose first cookie is `theme=dark`. -/
def guestRequest (url : URL) (cookies : List String) : Request :=
  ⟨"GET", url, cookies.foldl (fun h c => h.add "Cookie" c) (Header.empty.add "Cookie" "theme=dark")⟩

/-- The SHA-256 digest of the one value that these requests have hashed. -/
def digest (value : String) : List UInt8 :=
  if value = "theme=dark" then
    [34, 7, 99, 36, 173, 60, 146, 211, 237, 245, 132, 40, 182, 165, 145, 119, 33, 108, 225,
    56, 79, 53, 47, 225, 105, 100, 59, 103, 220, 184, 67, 2]
  else []

/-- The URL of the free rooms. -/
def roomsUrl : URL := ⟨"/api/hotel/rooms|free".toList, [], [], fun h => absurd rfl h⟩

/-- The same path, written without the escape that is the default one. -/
def rawRoomsUrl : URL :=
  ⟨"/api/hotel/rooms|free".toList, "/api/hotel/rooms|free".toList, [], fun _ => rfl⟩

example : parseRequestURI "/api/hotel/rooms%7Cfree".toList = some roomsUrl ∧
    parseRequestURI "/api/hotel/rooms|free".toList = some rawRoomsUrl := ⟨rfl, rfl⟩

/-- Two spellings of a path that the router does not tell apart. -/
theorem escaped_bar_forwarded_alike :
    ∃ o o', proxyRoute .hotel (guestRequest roomsUrl ["session=alice"]) = some o ∧
      proxyRoute .hotel (guestRequest rawRoomsUrl ["session=alice"]) = some o' ∧ SameForward o o' := by
  refine ⟨_, _, rfl, rfl, ?_⟩
  have hkeys : cacheKey digest (guestRequest roomsUrl ["session=alice"]) =
      cacheKey digest (guestRequest rawRoomsUrl ["session=alice"]) := by decide +kernel
  exact (equal_keys_forward_alike_iff digest .hotel (guestRequest roomsUrl ["session=alice"])
    (guestRequest rawRoomsUrl ["session=alice"]) (Or.inl rfl) (Or.inl rfl) (fun _ _ _ => rfl) rfl
    rfl).2 (fun _ => ⟨by decide, rfl, fun _ _ => rfl⟩) hkeys

/-- Guests with one first cookie share a key, whatever their sessions are. -/
theorem second_cookie_not_in_key :
    ∃ o o', proxyRoute .hotel (guestRequest roomsUrl ["session=alice"]) = some o ∧
      proxyRoute .hotel (guestRequest roomsUrl ["session=bob"]) = some o' ∧
      cacheKey digest (guestRequest roomsUrl ["session=alice"]) =
        cacheKey digest (guestRequest roomsUrl ["session=bob"]) ∧
      o.header.values "Cookie" = ["theme=dark", "session=alice"] ∧
      o'.header.values "Cookie" = ["theme=dark", "session=bob"] ∧ ¬SameForward o o' := by
  refine ⟨_, _, rfl, rfl, by decide +kernel, by decide +kernel, by decide +kernel, ?_⟩
  rintro ⟨-, -, -, h⟩
  exact absurd (h ("cookie", "Cookie") (by decide)) (by decide +kernel)

/-! ## What a key tells apart -/

/-- The first value of a field; an empty one counts as absent. -/
def Header.credential (h : Header) (name : String) : Option String :=
  (h.values name).head?.filter fun v => decide (v ≠ "")

theorem credential_eq (h : Header) (name : String) :
    h.credential name = if h.get name = "" then none else some (h.get name) := by
  unfold Header.credential Header.get
  cases h.values name with
  | nil => rfl
  | cons v vs =>
    by_cases hv : v = ""
    · simp [hv]
    · simp [Option.filter, hv]

/-- **No confusion of delimiters**: requests with equal keys have the same method, decoded path,
encoded query and credentials, whatever their paths, queries and header values are. -/
theorem cacheKey_separates (sum256 : String → List UInt8) (r r' : Request)
    (hr : ' ' ∉ r.method.toList) (hr' : ' ' ∉ r'.method.toList)
    (hsum : ∀ c ∈ credentials,
      (sum256 (r.header.get c.2)).take 8 = (sum256 (r'.header.get c.2)).take 8 →
        r.header.get c.2 = r'.header.get c.2)
    (hkey : cacheKey sum256 r = cacheKey sum256 r') :
    r.method = r'.method ∧ r.url.path = r'.url.path ∧
      encode (parseQuery r.url.rawQuery) = encode (parseQuery r'.url.rawQuery) ∧
      r.header.credential "Authorization" = r'.header.credential "Authorization" ∧
      r.header.credential "Cookie" = r'.header.credential "Cookie" ∧
      r.header.credential "X-Internal-Key" = r'.header.credential "X-Internal-Key" := by
  obtain ⟨hmethod, hpath, hquery, hvalues⟩ := (cacheKey_eq_iff hr hr' hsum).1 hkey
  have hcredential : ∀ c ∈ credentials, r.header.credential c.2 = r'.header.credential c.2 := by
    intro c hc
    rw [credential_eq, credential_eq, hvalues c hc]
  exact ⟨hmethod, hpath, hquery, hcredential ("auth", "Authorization") (by decide),
    hcredential ("cookie", "Cookie") (by decide), hcredential ("key", "X-Internal-Key") (by decide)⟩

/-- Two guests with one first cookie. -/
theorem one_cookie_one_key :
    let r := guestRequest roomsUrl ["session=alice"]
    let r' := guestRequest rawRoomsUrl ["session=bob"]
    r.method = r'.method ∧ r.url.path = r'.url.path ∧
      encode (parseQuery r.url.rawQuery) = encode (parseQuery r'.url.rawQuery) ∧
      r.header.credential "Authorization" = r'.header.credential "Authorization" ∧
      r.header.credential "Cookie" = r'.header.credential "Cookie" ∧
      r.header.credential "X-Internal-Key" = r'.header.credential "X-Internal-Key" :=
  cacheKey_separates digest (guestRequest roomsUrl ["session=alice"])
    (guestRequest rawRoomsUrl ["session=bob"]) (by decide) (by decide) (by decide) (by decide +kernel)

/-- A field with an empty value has no part in the key, as if it were absent. -/
theorem empty_credential_shares_key :
    let r : Request := ⟨"GET", roomsUrl, Header.empty.add "Authorization" ""⟩
    let r' : Request := ⟨"GET", roomsUrl, Header.empty⟩
    ' ' ∉ r.method.toList ∧ ' ' ∉ r'.method.toList ∧
      (∀ c ∈ credentials,
        (digest (r.header.get c.2)).take 8 = (digest (r'.header.get c.2)).take 8 →
          r.header.get c.2 = r'.header.get c.2) ∧
      cacheKey digest r = cacheKey digest r' ∧
      (r.header.values "Authorization").head? = some "" ∧
      (r'.header.values "Authorization").head? = none := by
  refine ⟨by decide, by decide, ?_, by decide +kernel, by decide, by decide⟩
  decide

end Gateway
