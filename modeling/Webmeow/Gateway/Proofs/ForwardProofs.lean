import Webmeow.Gateway.Proofs.PoolProofs
import Webmeow.Gateway.Proofs.CacheKeyProofs

/-!
# The path that a backend receives

The routes write what the router matched into the decoded path. That is a part of the raw path when the
client did not use the default encoding, so the backend gets its escapes encoded once more.
-/

namespace Gateway

open Url

/-! ## Behind the path of a target -/

/-- A path behind the one of a target. -/
def joinTarget (target : URL) (path : List Char) : List Char :=
  target.path ++ if hasSuffixSlash target.location.escapedPath then path.tail else path

/-- A target without a path leaves the path as it is. -/
theorem joinTarget_bare {target : URL} (h : target.path = []) (path : List Char) :
    joinTarget target path = path := by
  have hbytes : Bytes target.location.path := by
    rw [URL.location, h]
    exact nofun
  have hdecode : unescape .path target.location.escapedPath = some target.path :=
    unescape_escapedPath hbytes
  rw [h] at hdecode
  unfold joinTarget
  rw [eq_nil_of_unescape_nil hdecode, h]
  rfl

theorem joinTarget_ne_nil {target : ByteURL} {path : List Char} (h : path ≠ []) :
    joinTarget target.toURL path ≠ [] := by
  by_cases hbare : target.path = []
  · rwa [joinTarget_bare hbare]
  · exact List.append_ne_nil_of_left_ne_nil hbare _

theorem joinTarget_bytes {target : ByteURL} {path : List Char} (h : Bytes path) :
    Bytes (joinTarget target.toURL path) := by
  unfold joinTarget
  split_ifs
  · exact target.pathBytes.append h.tail
  · exact target.pathBytes.append h

theorem joinTarget_inj {target : URL} {p q : List Char} (hp : p.head? = some '/')
    (hq : q.head? = some '/') (h : joinTarget target p = joinTarget target q) : p = q := by
  have hrest := List.append_cancel_left h
  split_ifs at hrest
  · rw [← List.cons_head?_tail hp, ← List.cons_head?_tail hq, hrest]
  · exact hrest

theorem upperhex_ne_slash (n : ℕ) : upperhex.getD n '0' ≠ '/' := by
  have hall : ∀ c ∈ '0' :: upperhex, c ≠ '/' := by simp [upperhex]
  refine hall _ ?_
  rw [List.getD_eq_getElem?_getD]
  cases h : upperhex[n]? with
  | none => exact List.mem_cons_self
  | some c => exact List.mem_cons_of_mem _ (List.mem_of_getElem? h)

/-- Encoding keeps slashes, and makes none. -/
theorem hasSuffixSlash_escape (s : List Char) :
    hasSuffixSlash (escape .path s) = hasSuffixSlash s := by
  induction s using List.reverseRecOn with
  | nil => rfl
  | append_singleton s c _ =>
    unfold hasSuffixSlash escape
    rw [List.flatMap_append, List.flatMap_singleton, List.getLast?_append, List.getLast?_concat]
    unfold escapeByte
    rw [if_neg (by simp)]
    split_ifs with hesc
    · have hslash : c ≠ '/' := fun h => absurd (h ▸ hesc) (by decide)
      have hhex := upperhex_ne_slash (c.toNat % 16)
      rw [List.getD_eq_getElem?_getD] at hhex
      rw [List.getLast?_cons_cons, List.getLast?_cons_cons, List.getLast?_singleton]
      simp [hslash, hhex]
    · rfl

/-- Escaping keeps the slash at the end. -/
theorem hasSuffixSlash_escapedPath {u : Location} (h : u.rawPath = []) :
    hasSuffixSlash u.escapedPath = hasSuffixSlash u.path := by
  unfold Location.escapedPath
  rw [if_neg fun hraw => hraw.1 h]
  split_ifs with hstar
  · rw [hstar]
  · exact hasSuffixSlash_escape u.path

/-- The path that the reverse proxy joins, for a request path that is written with a slash in front. -/
theorem joinURLPath_path {target : URL} {u : Location} (hpath : hasPrefixSlash u.path = true)
    (hwritten : hasPrefixSlash u.escapedPath = true) :
    (joinURLPath target.location u).1 = joinTarget target u.path := by
  unfold joinURLPath joinTarget
  split_ifs with hraw hslash hslash
  · rw [hasSuffixSlash_escapedPath hraw.1] at hslash
    have hslash' : hasSuffixSlash target.path = true := hslash
    simp only [singleJoiningSlash, URL.location, hslash', hpath]
  · rw [hasSuffixSlash_escapedPath hraw.1] at hslash
    have hslash' : hasSuffixSlash target.path = false := Bool.eq_false_iff.2 hslash
    simp only [singleJoiningSlash, URL.location, hslash', hpath]
  · simp only [hslash, hwritten]
    rfl
  · simp only [Bool.eq_false_iff.2 hslash, hwritten]
    rfl

/-! ## What the router matched -/

/-- The remainder starts with a slash. -/
theorem wildcardPath_head (wildcard : List Char) : (wildcardPath wildcard).head? = some '/' := by
  unfold wildcardPath
  split_ifs with hnil hslash
  · rfl
  · rfl
  · exact not_not.1 hslash

theorem wildcardPath_bytes {wildcard : List Char} (h : Bytes wildcard) :
    Bytes (wildcardPath wildcard) := by
  have hslash : ('/').toNat < 256 := by decide
  unfold wildcardPath
  split_ifs
  · exact fun c hc => List.mem_singleton.1 hc ▸ hslash
  · exact fun c hc => (List.mem_cons.1 hc).elim (fun he => he ▸ hslash) (h c)
  · exact h

/-- A raw path that the router matched begins with a slash. -/
theorem escapedPath_head {s : Service} {url : URL} {wildcard : List Char}
    (hw : urlParam s (routePath url) = some wildcard) :
    hasPrefixSlash (rewrittenURL url wildcard).escapedPath = true := by
  have hhead := wildcardPath_head wildcard
  unfold Location.escapedPath
  split_ifs with hraw hstar
  · have hroute : routePath url = url.rawPath := if_pos hraw.1
    obtain ⟨y, hy, -⟩ := urlParam_eq_some hw
    have hpattern : s.pattern.head? = some '/' := by cases s <;> rfl
    show hasPrefixSlash url.rawPath = true
    rw [← hroute, hy]
    unfold hasPrefixSlash
    rw [List.head?_append, hpattern]
    rfl
  · have hne : wildcardPath wildcard ≠ ['*'] := by
      intro h
      rw [h] at hhead
      cases hhead
    exact absurd hstar hne
  · show hasPrefixSlash (escape .path (wildcardPath wildcard)) = true
    obtain ⟨t, ht⟩ : ∃ t, wildcardPath wildcard = '/' :: t := by
      rw [← List.cons_head?_tail hhead]
      exact ⟨_, rfl⟩
    rw [ht]
    rfl

/-- The wildcard of a path of bytes is one of bytes. -/
theorem urlParam_bytes {s : Service} {url : ByteURL} {wildcard : List Char}
    (hw : urlParam s (routePath url.toURL) = some wildcard) : Bytes wildcard := by
  have hroute : Bytes (routePath url.toURL) := by
    unfold routePath
    split_ifs
    · exact url.rawPathBytes
    · exact url.pathBytes
  obtain ⟨y, hy, ⟨-, rfl⟩ | rfl⟩ := urlParam_eq_some hw
  · exact bytes_nil
  · intro c hc
    refine hroute c ?_
    rw [hy]
    exact List.mem_append_right _ (List.mem_cons_of_mem _ hc)

/-! ## What the backend reads -/

/-- A backend behind a target reads this path, decoded, and this query, and the path and the query of
the target before them. -/
def Reads (target : URL) (uri path rawQuery : List Char) : Prop :=
  unescape .path (cut '?' uri).1 = some (joinTarget target path) ∧
    (cut '?' uri).2 = joinQuery target.rawQuery rawQuery

/-- The backend reads the wildcard as it is in the path on which the router matched. -/
theorem forwardedURI_reads {s : Service} {target url : ByteURL} {wildcard : List Char}
    (hw : urlParam s (routePath url.toURL) = some wildcard) :
    Reads target.toURL (forwardedURI target.toURL url.toURL wildcard) (wildcardPath wildcard)
      url.rawQuery := by
  have hhead := wildcardPath_head wildcard
  have hbytes := wildcardPath_bytes (urlParam_bytes hw)
  have hpath : (rewriteRequestURL target.location (rewrittenURL url.toURL wildcard)).path =
      joinTarget target.toURL (wildcardPath wildcard) :=
    joinURLPath_path (decide_eq_true hhead) (escapedPath_head hw)
  have hne : wildcardPath wildcard ≠ [] := fun h => by
    rw [h] at hhead
    cases hhead
  have hjoined := @joinTarget_bytes target _ hbytes
  have hnonempty := @joinTarget_ne_nil target _ hne
  rw [← hpath] at hjoined hnonempty
  obtain ⟨hread, hquery⟩ := requestURI_read hjoined hnonempty
  rw [hpath] at hread
  exact ⟨hread, hquery⟩

/-! ## The remainder of the client's path -/

/-- The path as the client wrote it. -/
def writtenPath (url : URL) : List Char :=
  if url.rawPath ≠ [] then url.rawPath else escape .path url.path

/-- What is behind the pattern of the route, decoded; a slash if there is nothing. -/
def remainder (s : Service) (url : URL) : Option (List Char) :=
  (unescape .path ((writtenPath url).drop s.pattern.length)).map fun rest =>
    if rest = [] then ['/'] else rest

/-- The pattern of a route is its own escaping. -/
theorem escape_pattern (s : Service) : escape .path s.pattern = s.pattern := by
  cases s <;> decide

/-- What is behind the pattern as it was written, and its decoding: it is what the router saw behind the
pattern if that was the decoded path, and decodes to it otherwise. -/
theorem written_of_route {s : Service} {url : ByteURL} {y : List Char}
    (hy : routePath url.toURL = s.pattern ++ y) :
    ∃ written z, writtenPath url.toURL = s.pattern ++ written ∧ unescape .path written = some z ∧
      (url.rawPath = [] → z = y) ∧ (url.rawPath ≠ [] → unescape .path y = some z) := by
  by_cases hnil : url.rawPath = []
  · have hroute : routePath url.toURL = url.path := if_neg (not_not.2 hnil)
    have hpath : url.path = s.pattern ++ y := hroute.symm.trans hy
    have hybytes : Bytes y := fun c hc => url.pathBytes c (hpath ▸ List.mem_append_right _ hc)
    have hwrite : writtenPath url.toURL = escape .path url.path := if_neg (not_not.2 hnil)
    refine ⟨escape .path y, y, ?_, unescape_escape hybytes, fun _ => rfl, fun h => absurd hnil h⟩
    rw [hwrite, hpath, escape, List.flatMap_append]
    exact congrArg (· ++ _) (escape_pattern s)
  · have hroute : routePath url.toURL = url.rawPath := if_pos hnil
    have hpath : url.rawPath = s.pattern ++ y := hroute.symm.trans hy
    have hdecode := url.encodes hnil
    rw [hpath, unescape_append (pattern_no_escape s), Option.map_eq_some_iff] at hdecode
    obtain ⟨z, hz, -⟩ := hdecode
    have hwrite : writtenPath url.toURL = url.rawPath := if_pos hnil
    exact ⟨y, z, hwrite.trans hpath, hz, fun h => absurd h hnil, fun _ => hz⟩

/-- The remainder is the wildcard behind a slash, as it is if the router matched the decoded path, and
decoded if it matched the raw one. -/
theorem remainder_eq {s : Service} {url : ByteURL} {wildcard : List Char}
    (hw : urlParam s (routePath url.toURL) = some wildcard) :
    ∃ rest, remainder s url.toURL = some ('/' :: rest) ∧
      (url.rawPath = [] → rest = wildcard) ∧
      (url.rawPath ≠ [] → unescape .path wildcard = some rest) := by
  obtain ⟨y, hy, hyw⟩ := urlParam_eq_some hw
  obtain ⟨written, z, hwritten, hz, hplain, hraw⟩ := written_of_route hy
  have hremainder : remainder s url.toURL = some (if z = [] then ['/'] else z) := by
    unfold remainder
    rw [hwritten, List.drop_left, hz]
    rfl
  rw [hremainder]
  rcases hyw with ⟨rfl, rfl⟩ | rfl
  · have hznil : z = [] := by
      by_cases hnil : url.rawPath = []
      · exact hplain hnil
      · exact (Option.some.inj (hraw hnil)).symm
    exact ⟨[], by rw [if_pos hznil], fun _ => rfl, fun _ => rfl⟩
  · by_cases hnil : url.rawPath = []
    · rw [hplain hnil]
      exact ⟨wildcard, by rw [if_neg (List.cons_ne_nil _ _)], fun _ => rfl, fun h => absurd hnil h⟩
    · have hdecode := hraw hnil
      rw [unescape_cons (by decide), if_neg (by simp), Option.map_eq_some_iff] at hdecode
      obtain ⟨rest, hrest, rfl⟩ := hdecode
      exact ⟨rest, by rw [if_neg (List.cons_ne_nil _ _)], fun h => absurd h hnil, fun _ => hrest⟩

/-- No second slash comes after the pattern, and where the router matched the raw path there is no
escape after it. -/
def PlainWildcard (url : URL) (wildcard : List Char) : Prop :=
  wildcard.head? ≠ some '/' ∧ (url.rawPath = [] ∨ '%' ∉ wildcard)

/-- The remainder is the wildcard behind a slash, unless it has a slash already. -/
theorem wildcardPath_eq_iff (wildcard : List Char) :
    wildcardPath wildcard = '/' :: wildcard ↔ wildcard.head? ≠ some '/' := by
  unfold wildcardPath
  split_ifs with hnil hslash
  · rw [hnil]
    simp
  · simp [hslash]
  · refine ⟨fun h => ?_, fun h => absurd h hslash⟩
    have := congrArg List.length h
    simp at this

/-- The decoded wildcard is behind one slash exactly if it has neither a second one nor an escape. -/
theorem wildcardPath_eq_decoded_iff {wildcard rest : List Char}
    (h : unescape .path wildcard = some rest) :
    wildcardPath wildcard = '/' :: rest ↔ wildcard.head? ≠ some '/' ∧ '%' ∉ wildcard := by
  constructor
  · intro he
    by_cases hslash : wildcard.head? = some '/'
    · -- a wildcard with a slash of its own would be the decoding of itself behind one more slash
      have hself : wildcardPath wildcard = wildcard := by
        have hne : wildcard ≠ [] := fun hnil => by
          rw [hnil] at hslash
          cases hslash
        unfold wildcardPath
        rw [if_neg hne, if_neg (not_not.2 hslash)]
      rw [hself] at he
      rw [he] at h
      exact absurd h (unescape_ne_cons (by decide))
    · rw [(wildcardPath_eq_iff wildcard).2 hslash] at he
      rw [← (List.cons.inj he).2] at h
      exact ⟨hslash, no_escape_of_unescape_self h⟩
  · rintro ⟨hslash, hescape⟩
    have hself := unescape_append hescape []
    rw [List.append_nil, h] at hself
    rw [(wildcardPath_eq_iff wildcard).2 hslash, Option.some.inj hself]
    simp

/-- A backend behind a target reads the remainder of the client's path and the client's query. -/
def ReadsRemainder (s : Service) (target url : URL) (uri : List Char) : Prop :=
  ∃ path, remainder s url = some path ∧ Reads target uri path url.rawQuery

/-- The service reads the remainder if and only if the wildcard has no slash in front. -/
theorem forwardedURI_readsRemainder_iff {s : Service} {url : ByteURL} {wildcard : List Char}
    (hw : urlParam s (routePath url.toURL) = some wildcard) (target : ByteURL) :
    ReadsRemainder s target.toURL url.toURL (forwardedURI target.toURL url.toURL wildcard) ↔
      PlainWildcard url.toURL wildcard := by
  obtain ⟨rest, hremainder, hplain, hraw⟩ := remainder_eq hw
  obtain ⟨hpath, hquery⟩ := @forwardedURI_reads s target url wildcard hw
  have hreads : ReadsRemainder s target.toURL url.toURL
      (forwardedURI target.toURL url.toURL wildcard) ↔ wildcardPath wildcard = '/' :: rest := by
    constructor
    · rintro ⟨path, hp, hread, -⟩
      rw [hremainder, Option.some.injEq] at hp
      rw [hpath, ← hp, Option.some.injEq] at hread
      exact joinTarget_inj (wildcardPath_head wildcard) rfl hread
    · intro he
      rw [he] at hpath
      exact ⟨'/' :: rest, hremainder, hpath, hquery⟩
  rw [hreads]
  unfold PlainWildcard
  by_cases hnil : url.rawPath = []
  · rw [hplain hnil, wildcardPath_eq_iff]
    simp [hnil]
  · rw [wildcardPath_eq_decoded_iff (hraw hnil)]
    simp [hnil]

/-- **Forwarding**: for a request on the route of a service, the backend of `ProxyRoute`, and each one
of `PooledProxyRoute`, reads the remainder of the client's path and the raw query if and only if the
path has no second slash after the pattern, and is written in the default encoding or has no escape
after the pattern. -/
theorem forwards_remainder_iff (s : Service) (url : ByteURL) {wildcard : List Char}
    (hw : urlParam s (routePath url.toURL) = some wildcard) :
    (∀ target : ByteURL, ∃ uri, proxyURI target.toURL s url.toURL = some uri ∧
      (ReadsRemainder s target.toURL url.toURL uri ↔ PlainWildcard url.toURL wildcard)) ∧
    (∀ (pool : ProxyPool) (i : ℕ), pool.pick.2 = some i →
      ∃ target uri, pool.targets[i]? = some target ∧
        pool.pooledProxyURI s url.toURL = (pool.pick.1, some (i, uri)) ∧
        (ReadsRemainder s target.toURL url.toURL uri ↔ PlainWildcard url.toURL wildcard)) := by
  constructor
  · intro target
    exact ⟨_, by rw [proxyURI, hw, Option.map_some], forwardedURI_readsRemainder_iff hw target⟩
  · intro pool i hi
    have htarget := List.getElem?_eq_getElem (pick_lt hi)
    refine ⟨_, _, htarget, ?_, forwardedURI_readsRemainder_iff hw _⟩
    unfold ProxyPool.pooledProxyURI
    rw [hw]
    simp only [hi, Option.bind_some, htarget, Option.map_some]

instance (target : URL) (uri path rawQuery : List Char) : Decidable (Reads target uri path rawQuery) :=
  inferInstanceAs (Decidable (_ ∧ _))

/-- A room whose name has a space, in the default encoding. -/
def spacedUrl : ByteURL where
  path := "/api/hotel/rooms/sea view".toList
  rawPath := []
  rawQuery := "day=3".toList
  encodes h := absurd rfl h
  pathBytes := by decide
  rawPathBytes := bytes_nil

/-- A space in the path is forwarded. -/
theorem spacedUrl_forwarded :
    ReadsRemainder .hotel bareTarget.toURL spacedUrl.toURL "/rooms/sea%20view?day=3".toList := by
  obtain ⟨uri, huri, hreads⟩ := (forwards_remainder_iff .hotel spacedUrl
    (show urlParam .hotel (routePath spacedUrl.toURL) = some "rooms/sea view".toList by decide)).1
      bareTarget
  have hsent : proxyURI bareTarget.toURL .hotel spacedUrl.toURL =
      some "/rooms/sea%20view?day=3".toList := by decide
  rw [← Option.some.inj (huri.symm.trans hsent)]
  exact hreads.2 ⟨by decide, Or.inl rfl⟩

/-- A room whose name has a slash. -/
def slashUrl : URL where
  path := "/api/hotel/rooms/a/b".toList
  rawPath := "/api/hotel/rooms/a%2Fb".toList
  rawQuery := []
  encodes _ := rfl

/-- A second slash after the pattern. -/
def doubleUrl : URL := ⟨"/api/hotel//rooms".toList, [], [], fun h => absurd rfl h⟩

/-- An escape that is not the default encoding is encoded once more, and a second slash is lost. -/
theorem escaped_slash_encoded_twice :
    parseRequestURI "/api/hotel/rooms/a%2Fb".toList = some slashUrl ∧
      proxyURI bareTarget.toURL .hotel slashUrl = some "/rooms/a%252Fb".toList ∧
      ¬ReadsRemainder .hotel bareTarget.toURL slashUrl "/rooms/a%252Fb".toList ∧
      parseRequestURI "/api/hotel//rooms".toList = some doubleUrl ∧
      proxyURI bareTarget.toURL .hotel doubleUrl = some "/rooms".toList ∧
      ¬ReadsRemainder .hotel bareTarget.toURL doubleUrl "/rooms".toList := by
  refine ⟨rfl, by decide, ?_, rfl, by decide, ?_⟩
  · rintro ⟨path, hpath, hreads⟩
    have hrest : remainder .hotel slashUrl = some "/rooms/a/b".toList := by decide
    rw [← Option.some.inj (hrest.symm.trans hpath)] at hreads
    exact absurd hreads (by decide)
  · rintro ⟨path, hpath, hreads⟩
    have hrest : remainder .hotel doubleUrl = some "//rooms".toList := by decide
    rw [← Option.some.inj (hrest.symm.trans hpath)] at hreads
    exact absurd hreads (by decide)

end Gateway
