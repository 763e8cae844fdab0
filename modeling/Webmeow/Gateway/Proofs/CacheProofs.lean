import Webmeow.Gateway.Cache
import Webmeow.Lib.Recency
import Webmeow.Lib.Simulation
import Mathlib.Data.Int.Order.Basic

/-!
# The response cache is a recency list with expiry

The map and the list agree on the elements, so the list alone determines the contents of the cache.
Every call does to the contents what the recency list does, and the eviction loop turns at most once.
-/

namespace Gateway

open Recency Simulation

/-- The key an element holds. -/
def ResponseCache.keyOf (c : ResponseCache) (el : Element) : String := (c.value el).key

/-- The record as an item of the abstract cache. -/
def CacheRecord.item (r : CacheRecord) : Item String CacheEntry Int := ⟨r.key, r.entry, r.entry.expires⟩

/-- The contents of the cache, the most recently used record first. -/
def ResponseCache.contents (c : ResponseCache) : List (Item String CacheEntry Int) :=
  c.order.map fun el => (c.value el).item

/-- The map and the list hold the same elements, each under its own key. -/
structure Linked (c : ResponseCache) : Prop where
  /-- The map gives the element in the list that holds the key. -/
  lookup : ∀ k el, c.entries.lookup k = some el ↔ el ∈ c.order ∧ c.keyOf el = k
  /-- No element is in the list twice. -/
  nodup : c.order.Nodup
  /-- The elements in the list are allocated. -/
  allocated : ∀ el ∈ c.order, el < c.next

/-- The body of a response is stored. -/
def accepts (maxEntries maxBodyBytes : Int) (e : CacheEntry) : Bool :=
  decide (0 < maxEntries) && !decide (0 < maxBodyBytes ∧ maxBodyBytes < e.body.length)

/-- The operation of the recency list that a call stands for. -/
def Call.op (ttl maxEntries maxBodyBytes : Int) : Call → Op String CacheEntry Int
  | .get k now => .get k now
  | .set k e now =>
    if accepts maxEntries maxBodyBytes e then .put k { e with expires := now + ttl } (now + ttl)
    else .skip

/-- The specification: the recency list, one operation for each call. -/
def recencyStep (ttl maxEntries maxBodyBytes : Int) (l : List (Item String CacheEntry Int))
    (call : Call) : Option (List (Item String CacheEntry Int) × Option CacheEntry) :=
  some (Recency.step maxEntries.toNat l (call.op ttl maxEntries maxBodyBytes))

/-! ## Map and list -/

section Linked

variable {c : ResponseCache}

theorem Linked.keyOf_inj (h : Linked c) {a b : Element} (ha : a ∈ c.order) (hb : b ∈ c.order)
    (hk : c.keyOf a = c.keyOf b) : a = b := by
  have h1 : c.entries.lookup (c.keyOf b) = some a := (h.lookup _ _).2 ⟨ha, hk⟩
  have h2 : c.entries.lookup (c.keyOf b) = some b := (h.lookup _ _).2 ⟨hb, rfl⟩
  exact Option.some.inj (h1.symm.trans h2)

theorem Linked.keys_nodup (h : Linked c) : (c.order.map c.keyOf).Nodup :=
  h.nodup.map_on fun _ ha _ hb hk => h.keyOf_inj ha hb hk

theorem contents_keys : c.contents.map Item.key = c.order.map c.keyOf := by
  simp only [ResponseCache.contents, List.map_map]
  rfl

/-- The keys of the map are those in the list. -/
theorem Linked.mem_entries (h : Linked c) (k : String) :
    k ∈ c.entries ↔ ∃ el ∈ c.order, c.keyOf el = k := by
  rw [← AList.lookup_isSome, Option.isSome_iff_exists]
  exact exists_congr fun el => h.lookup k el

theorem Linked.keys_perm (h : Linked c) : c.entries.keys.Perm (c.order.map c.keyOf) := by
  rw [List.perm_ext_iff_of_nodup c.entries.keys_nodup h.keys_nodup]
  intro k
  rw [← AList.mem_keys, h.mem_entries, List.mem_map]

/-- The map and the list are of one size. -/
theorem Linked.size (h : Linked c) : c.entries.keys.length = c.order.length := by
  rw [h.keys_perm.length_eq, List.length_map]

/-- The map finds the item of a key in the contents. -/
theorem Linked.find_contents (h : Linked c) (k : String) :
    (c.contents.find? fun i => i.key = k) =
      (c.entries.lookup k).map fun el => (c.value el).item := by
  have hn : (c.contents.map Item.key).Nodup := by
    rw [contents_keys]
    exact h.keys_nodup
  cases hl : c.entries.lookup k with
  | none =>
    refine List.find?_eq_none.2 fun i hi => ?_
    obtain ⟨el, hel, rfl⟩ := List.mem_map.1 hi
    have hne : c.keyOf el ≠ k := by
      intro hk
      rw [(h.lookup k el).2 ⟨hel, hk⟩] at hl
      cases hl
    exact fun hd => hne (of_decide_eq_true hd)
  | some el =>
    obtain ⟨hel, hk⟩ := (h.lookup k el).1 hl
    exact (Keyed.find_iff hn).2 ⟨List.mem_map_of_mem hel, hk⟩

/-- Taking an element off the list takes its key out of the contents. -/
theorem Linked.without_contents (h : Linked c) {el : Element} (hel : el ∈ c.order) :
    without (c.keyOf el) c.contents = (c.order.erase el).map fun x => (c.value x).item := by
  rw [h.nodup.erase_eq_filter, without, ResponseCache.contents, List.filter_map]
  congr 1
  refine List.filter_congr fun x hx => ?_
  have hiff : c.keyOf x ≠ c.keyOf el ↔ x ≠ el :=
    not_congr ⟨fun hk => h.keyOf_inj hx hel hk, fun he => he ▸ rfl⟩
  show decide (c.keyOf x ≠ c.keyOf el) = (x != el)
  by_cases hxe : x = el
  · subst hxe
    simp
  · rw [decide_eq_true (hiff.2 hxe)]
    simp [hxe]

/-- Taking an item out of the contents that has no element changes nothing. -/
theorem Linked.without_absent (h : Linked c) {k : String} (hk : c.entries.lookup k = none) :
    without k c.contents = c.contents := by
  refine without_of_forall_ne fun i hi he => ?_
  obtain ⟨el, hel, rfl⟩ := List.mem_map.1 hi
  rw [(h.lookup k el).2 ⟨hel, he⟩] at hk
  cases hk

/-! ## The operations -/

/-- Removing an element keeps map and list together. -/
theorem Linked.removeElement (h : Linked c) {el : Element} (hel : el ∈ c.order) :
    Linked (c.removeElement (some el)) where
  lookup k x := by
    show (c.entries.erase (c.keyOf el)).lookup k = some x ↔ x ∈ c.order.erase el ∧ c.keyOf x = k
    rw [h.nodup.mem_erase_iff]
    by_cases hk : k = c.keyOf el
    · subst hk
      rw [AList.lookup_erase]
      constructor
      · intro hnone
        cases hnone
      · rintro ⟨⟨hne, hx⟩, hkx⟩
        exact absurd (h.keyOf_inj hx hel hkx) hne
    · rw [AList.lookup_erase_ne hk, h.lookup]
      constructor
      · rintro ⟨hx, hkx⟩
        refine ⟨⟨fun he => hk ?_, hx⟩, hkx⟩
        rw [← hkx, he]
      · rintro ⟨⟨-, hx⟩, hkx⟩
        exact ⟨hx, hkx⟩
  nodup := h.nodup.erase el
  allocated x hx := h.allocated x (List.mem_of_mem_erase hx)

/-- Removing an element removes its item. -/
theorem Linked.contents_removeElement (h : Linked c) {el : Element} (hel : el ∈ c.order) :
    (c.removeElement (some el)).contents = without (c.keyOf el) c.contents :=
  (h.without_contents hel).symm

/-- Reordering the list keeps it linked to the map. -/
theorem Linked.reorder (h : Linked c) {order : List Element} (hp : order.Perm c.order) :
    Linked { c with order := order } where
  lookup k x := by
    show c.entries.lookup k = some x ↔ x ∈ order ∧ c.keyOf x = k
    rw [hp.mem_iff]
    exact h.lookup k x
  nodup := hp.nodup_iff.2 h.nodup
  allocated x hx := h.allocated x (hp.mem_iff.1 hx)

theorem moveToFront_of_mem {order : List Element} {el : Element} (hel : el ∈ order) :
    moveToFront order el = el :: order.erase el := if_pos hel

theorem moveToFront_perm {order : List Element} {el : Element} (hel : el ∈ order) :
    (moveToFront order el).Perm order := by
  rw [moveToFront_of_mem hel]
  exact (List.perm_cons_erase hel).symm

theorem Linked.contents_moveToFront (h : Linked c) {el : Element} (hel : el ∈ c.order) :
    ({ c with order := moveToFront c.order el } : ResponseCache).contents =
      (c.value el).item :: without (c.keyOf el) c.contents := by
  rw [h.without_contents hel]
  simp only [ResponseCache.contents, moveToFront_of_mem hel, List.map_cons]

/-- A new value with the same key. -/
theorem Linked.setValue (h : Linked c) (el : Element) {r : CacheRecord} (hr : r.key = c.keyOf el) :
    Linked (c.setValue el r) := by
  have hkey : (c.setValue el r).keyOf = c.keyOf := by
    funext x
    by_cases hx : x = el
    · subst hx
      simpa [ResponseCache.keyOf, ResponseCache.setValue] using hr
    · simp [ResponseCache.keyOf, ResponseCache.setValue, hx]
  exact ⟨fun k x => by rw [hkey]; exact h.lookup k x, h.nodup, h.allocated⟩

theorem Linked.without_setValue (h : Linked c) {el : Element} (hel : el ∈ c.order) {r : CacheRecord}
    (hr : r.key = c.keyOf el) :
    without (c.keyOf el) (c.setValue el r).contents = without (c.keyOf el) c.contents := by
  have h' := h.setValue el hr
  have hkey : (c.setValue el r).keyOf el = c.keyOf el := by
    simpa [ResponseCache.keyOf, ResponseCache.setValue] using hr
  rw [← hkey, h'.without_contents hel, hkey, h.without_contents hel]
  refine List.map_congr_left fun x hx => ?_
  have hne : x ≠ el := (h.nodup.mem_erase_iff.1 hx).1
  simp [ResponseCache.setValue, hne]

/-- A new value in front of the others. -/
theorem Linked.contents_replace (h : Linked c) {el : Element} (hel : el ∈ c.order) {r : CacheRecord}
    (hr : r.key = c.keyOf el) :
    ({ c.setValue el r with order := moveToFront c.order el } : ResponseCache).contents =
      r.item :: without (c.keyOf el) c.contents := by
  have hval : (c.setValue el r).value el = r := by simp [ResponseCache.setValue]
  have hkey : (c.setValue el r).keyOf el = c.keyOf el := by rw [ResponseCache.keyOf, hval, hr]
  have hmove := @Linked.contents_moveToFront _ (h.setValue el hr) el hel
  rw [hval, hkey, h.without_setValue hel hr] at hmove
  exact hmove

theorem pushFront_value {r : CacheRecord} {x : Element} (hx : x < c.next) :
    (c.pushFront r).value x = c.value x := by
  have hne : x ≠ c.next := Nat.ne_of_lt hx
  simp [ResponseCache.pushFront, hne]

/-- A new element keeps map and list together. -/
theorem Linked.pushFront (h : Linked c) {r : CacheRecord} (hr : c.entries.lookup r.key = none) :
    Linked (c.pushFront r) where
  lookup k x := by
    show (c.entries.insert r.key c.next).lookup k = some x ↔
      x ∈ c.next :: c.order ∧ (c.pushFront r).keyOf x = k
    have hself : (c.pushFront r).keyOf c.next = r.key := by
      simp [ResponseCache.keyOf, ResponseCache.pushFront]
    have hother : ∀ y ∈ c.order, (c.pushFront r).keyOf y = c.keyOf y := by
      intro y hy
      rw [ResponseCache.keyOf, pushFront_value (h.allocated y hy)]
      rfl
    rw [List.mem_cons]
    by_cases hk : k = r.key
    · subst hk
      rw [AList.lookup_insert]
      constructor
      · intro he
        cases he
        exact ⟨Or.inl rfl, hself⟩
      · rintro ⟨rfl | hx, hkx⟩
        · rfl
        · rw [hother x hx] at hkx
          rw [(h.lookup _ x).2 ⟨hx, hkx⟩] at hr
          cases hr
    · rw [AList.lookup_insert_ne hk, h.lookup]
      constructor
      · rintro ⟨hx, hkx⟩
        exact ⟨Or.inr hx, by rw [hother x hx]; exact hkx⟩
      · rintro ⟨rfl | hx, hkx⟩
        · exact absurd (hself.symm.trans hkx).symm hk
        · exact ⟨hx, by rw [← hother x hx]; exact hkx⟩
  nodup := by
    refine List.nodup_cons.2 ⟨fun hmem => ?_, h.nodup⟩
    exact Nat.lt_irrefl c.next (h.allocated _ hmem)
  allocated x hx := by
    show x < c.next + 1
    rcases List.mem_cons.1 hx with rfl | hx
    · exact Nat.lt_succ_self _
    · exact Nat.lt_succ_of_lt (h.allocated x hx)

/-- A new element brings its item to the front. -/
theorem Linked.contents_pushFront (h : Linked c) (r : CacheRecord) :
    (c.pushFront r).contents = r.item :: c.contents := by
  have hold : ∀ x ∈ c.order, ((c.pushFront r).value x).item = (c.value x).item := by
    intro x hx
    rw [pushFront_value (h.allocated x hx)]
  have hself : (c.pushFront r).value c.next = r := by simp [ResponseCache.pushFront]
  show (c.next :: c.order).map (fun el => ((c.pushFront r).value el).item) = _
  rw [List.map_cons, List.map_congr_left hold, hself]
  rfl

/-- The back of the list is the last item of the contents. -/
theorem Linked.contents_remove_back (h : Linked c) {init : List Element} {el : Element}
    (ho : c.order = init ++ [el]) :
    (c.removeElement (some el)).contents = init.map fun x => (c.value x).item := by
  have hnot : el ∉ init := by
    have hn := h.nodup
    rw [ho] at hn
    intro hmem
    exact (List.nodup_append.1 hn).2.2 el hmem el (List.mem_singleton_self el) rfl
  show (c.order.erase el).map _ = _
  rw [ho, List.erase_append_right _ hnot, List.erase_cons_head, List.append_nil]
  rfl

/-- **The eviction loop** ends, and cuts the contents to the maximum. -/
theorem Linked.evict (h : Linked c) {max : ℕ} (hmax : c.maxEntries = max)
    (hlen : c.order.length ≤ max + 1) (fuel : ℕ) :
    ∃ c', c.evict (fuel + 2) = some c' ∧ Linked c' ∧ c'.contents = c.contents.take max ∧
      c'.ttl = c.ttl ∧ c'.maxEntries = c.maxEntries ∧ c'.maxBodyBytes = c.maxBodyBytes := by
  have hclen : c.contents.length = c.order.length := List.length_map _
  by_cases hfull : c.order.length = max + 1
  · obtain ⟨init, el, ho⟩ : ∃ init el, c.order = init ++ [el] := by
      rcases List.eq_nil_or_concat c.order with hnil | ⟨init, el, ho⟩
      · rw [hnil] at hfull
        cases hfull
      · exact ⟨init, el, by simpa using ho⟩
    have hel : el ∈ c.order := by simp [ho]
    have hlast : c.order.getLast? = some el := by simp [ho]
    have h' := h.removeElement hel
    have hlen' : (c.removeElement (some el)).order.length = max := by
      show (c.order.erase el).length = max
      rw [List.length_erase_of_mem hel]
      omega
    refine ⟨c.removeElement (some el), ?_, h', ?_, rfl, rfl, rfl⟩
    · have hover : c.maxEntries < c.entries.keys.length := by
        rw [hmax, h.size, hfull]
        push_cast
        omega
      have hfits : ¬ (c.removeElement (some el)).maxEntries <
          (c.removeElement (some el)).entries.keys.length := by
        rw [h'.size, hlen']
        show ¬ c.maxEntries < max
        omega
      rw [ResponseCache.evict, if_pos hover, hlast, ResponseCache.evict, if_neg hfits]
    · rw [h.contents_remove_back ho]
      have hinit : init.length = max := by
        have := congrArg List.length ho
        simp at this
        omega
      simp [ResponseCache.contents, ho, hinit]
  · refine ⟨c, ?_, h, ?_, rfl, rfl, rfl⟩
    · have hfits : ¬ c.maxEntries < c.entries.keys.length := by
        rw [hmax, h.size]
        omega
      rw [ResponseCache.evict, if_neg hfits]
    · rw [List.take_of_length_le (by omega)]

end Linked

/-! ## Simulation -/

variable {ttl maxEntries maxBodyBytes : Int}

/-- The cache stands for the recency list `l`. -/
structure Represents (ttl maxEntries maxBodyBytes : Int) (c : ResponseCache)
    (l : List (Item String CacheEntry Int)) : Prop where
  /-- The map and the list belong together. -/
  linked : Linked c
  /-- The list holds the items in order. -/
  contents : c.contents = l
  /-- There are not too many. -/
  length : l.length ≤ maxEntries.toNat
  /-- The lifetime is the configured one. -/
  ttl : c.ttl = ttl
  /-- The capacity is the configured one. -/
  maxEntries : c.maxEntries = maxEntries
  /-- The largest body is the configured one. -/
  maxBodyBytes : c.maxBodyBytes = maxBodyBytes

/-- The empty cache represents no item. -/
theorem newResponseCache_represents :
    Represents ttl maxEntries maxBodyBytes (newResponseCache ttl maxEntries maxBodyBytes) [] := by
  refine ⟨⟨fun k el => ?_, List.nodup_nil, nofun⟩, rfl, Nat.zero_le _, rfl, rfl, rfl⟩
  constructor
  · intro h
    cases h
  · rintro ⟨h, -⟩
    cases h

/-- `get` does what it does on the items. -/
theorem get_simulates {c : ResponseCache} (h : Linked c) (key : String) (now : Int) :
    Linked (c.get key now).1 ∧
      Recency.get c.contents key now = ((c.get key now).1.contents, (c.get key now).2) ∧
      (c.get key now).1.contents.length ≤ c.contents.length := by
  unfold ResponseCache.get Recency.get
  rw [h.find_contents key]
  cases hl : c.entries.lookup key with
  | none => exact ⟨h, rfl, Nat.le_refl _⟩
  | some el =>
    obtain ⟨hel, rfl⟩ := (h.lookup key el).1 hl
    simp only [Option.map_some]
    by_cases hexp : (c.value el).entry.expires < now
    · rw [if_pos hexp, if_pos (show (c.value el).item.expires < now from hexp)]
      have hcont := h.contents_removeElement hel
      refine ⟨h.removeElement hel, by rw [hcont], ?_⟩
      rw [hcont]
      exact (without_sublist _ _).length_le
    · rw [if_neg hexp, if_neg (show ¬ (c.value el).item.expires < now from hexp)]
      refine ⟨h.reorder (moveToFront_perm hel), by rw [h.contents_moveToFront hel]; rfl, ?_⟩
      have hlen := (moveToFront_perm hel).length_eq
      simp only [ResponseCache.contents, List.length_map, hlen, Nat.le_refl]

/-- `get` changes no setting. -/
theorem get_config (c : ResponseCache) (key : String) (now : Int) :
    (c.get key now).1.ttl = c.ttl ∧ (c.get key now).1.maxEntries = c.maxEntries ∧
      (c.get key now).1.maxBodyBytes = c.maxBodyBytes := by
  unfold ResponseCache.get
  split
  · exact ⟨rfl, rfl, rfl⟩
  · dsimp only
    split_ifs <;> exact ⟨rfl, rfl, rfl⟩

/-- A rejected entry changes nothing. -/
theorem set_rejected {c : ResponseCache} {e : CacheEntry} (key : String) (now : Int)
    (h : accepts c.maxEntries c.maxBodyBytes e = false) : c.set key e now = some c := by
  unfold ResponseCache.set
  by_cases hmax : c.maxEntries ≤ 0
  · rw [if_pos hmax]
  · by_cases hbody : 0 < c.maxBodyBytes ∧ c.maxBodyBytes < e.body.length
    · rw [if_neg hmax, if_pos hbody]
    · simp [accepts, not_le.1 hmax, hbody] at h

/-- An accepted entry comes to the front of the others, which are cut to the maximum. -/
theorem set_simulates {c : ResponseCache} {e : CacheEntry} (key : String) (now : Int) (h : Linked c)
    (hacc : accepts c.maxEntries c.maxBodyBytes e = true)
    (hlen : c.contents.length ≤ c.maxEntries.toNat) :
    ∃ c', c.set key e now = some c' ∧ Linked c' ∧
      c'.contents =
        put c.maxEntries.toNat c.contents key { e with expires := now + c.ttl } (now + c.ttl) ∧
      c'.ttl = c.ttl ∧ c'.maxEntries = c.maxEntries ∧ c'.maxBodyBytes = c.maxBodyBytes := by
  simp only [accepts, Bool.and_eq_true, decide_eq_true_eq, Bool.not_eq_true',
    decide_eq_false_iff_not] at hacc
  obtain ⟨hpos, hbody⟩ := hacc
  have hclen : c.contents.length = c.order.length := List.length_map _
  have hmax : c.maxEntries = (c.maxEntries.toNat : Int) := by omega
  unfold ResponseCache.set
  rw [if_neg (not_le.2 hpos), if_neg hbody]
  cases hl : c.entries.lookup key with
  | some el =>
    obtain ⟨hel, rfl⟩ := (h.lookup key el).1 hl
    have hr : (⟨c.keyOf el, { e with expires := now + c.ttl }⟩ : CacheRecord).key = c.keyOf el := rfl
    refine ⟨_, rfl, (h.setValue el hr).reorder (moveToFront_perm hel), ?_, rfl, rfl, rfl⟩
    -- one item moved within a list that fits is cut nowhere
    have hshort : (⟨c.keyOf el, { e with expires := now + c.ttl }, now + c.ttl⟩ ::
        without (c.keyOf el) c.contents : List (Item String CacheEntry Int)).length ≤
          c.maxEntries.toNat := by
      rw [h.without_contents hel, List.length_cons, List.length_map, List.length_erase_of_mem hel]
      have := List.length_pos_of_mem hel
      omega
    rw [put, List.take_of_length_le hshort]
    exact h.contents_replace hel hr
  | none =>
    have hpush := h.pushFront (r := ⟨key, { e with expires := now + c.ttl }⟩) hl
    have hpushlen : (c.pushFront ⟨key, { e with expires := now + c.ttl }⟩).order.length =
        c.order.length + 1 := rfl
    have hroom : (c.pushFront ⟨key, { e with expires := now + c.ttl }⟩).order.length ≤
        c.maxEntries.toNat + 1 := by omega
    obtain ⟨c', hc', hlinked, hcont, hcfg⟩ := hpush.evict hmax hroom c.order.length
    refine ⟨c', hc', hlinked, ?_, hcfg⟩
    rw [hcont, h.contents_pushFront, put, h.without_absent hl]
    rfl

/-- **One call**: the cache answers it, as the recency list does. -/
theorem step_simulates (c : ResponseCache) (l : List (Item String CacheEntry Int)) (call : Call)
    (h : Represents ttl maxEntries maxBodyBytes c l) :
    ∃ c' l' answer, c.step call = some (c', answer) ∧
      recencyStep ttl maxEntries maxBodyBytes l call = some (l', answer) ∧
      Represents ttl maxEntries maxBodyBytes c' l' := by
  obtain ⟨hlinked, rfl, hlen, rfl, rfl, rfl⟩ := h
  cases call with
  | get key now =>
    obtain ⟨h1, h2, h3⟩ := get_simulates hlinked key now
    obtain ⟨h4, h5, h6⟩ := get_config c key now
    exact ⟨_, _, _, rfl, congrArg some h2, h1, rfl, Nat.le_trans h3 hlen, h4, h5, h6⟩
  | set key e now =>
    by_cases hacc : accepts c.maxEntries c.maxBodyBytes e = true
    · obtain ⟨c', hc', h1, h2, h3, h4, h5⟩ :=
        set_simulates key now hlinked hacc hlen
      refine ⟨c', c'.contents, none, by simp [ResponseCache.step, hc'], ?_, h1, rfl, ?_, h3, h4, h5⟩
      · simp [recencyStep, Call.op, hacc, Recency.step, h2]
      · rw [h2]
        exact List.length_take_le _ _
    · have hrej : accepts c.maxEntries c.maxBodyBytes e = false := by simpa using hacc
      refine ⟨c, c.contents, none, by simp [ResponseCache.step, set_rejected key now hrej], ?_, hlinked, rfl,
        hlen, rfl, rfl, rfl⟩
      simp [recencyStep, Call.op, hrej, Recency.step]

/-! ## Histories -/

/-- The last accepted `set` of the key: it stored `e` at the time `s`. -/
def LastAccepted (maxEntries maxBodyBytes : Int) (calls : List Call) (k : String) (e : CacheEntry)
    (s : Int) : Prop :=
  ∃ before later, calls = before ++ .set k e s :: later ∧
    accepts maxEntries maxBodyBytes e = true ∧
    ∀ e' s', Call.set k e' s' ∈ later → accepts maxEntries maxBodyBytes e' = false

/-- The keys that the calls used, in order: those of hits and of accepted `set`s. -/
def usedKeys (ttl maxEntries maxBodyBytes : Int) (calls : List Call) : List (Option String) :=
  Recency.uses maxEntries.toNat (calls.map (Call.op ttl maxEntries maxBodyBytes))

/-- Only an accepted `set` puts an item. -/
theorem op_eq_put {call : Call} {k : String} {v : CacheEntry} {expires : Int}
    (h : call.op ttl maxEntries maxBodyBytes = .put k v expires) :
    ∃ e s, call = .set k e s ∧ accepts maxEntries maxBodyBytes e = true ∧
      v = { e with expires := s + ttl } ∧ expires = s + ttl := by
  cases call with
  | get k' now => cases h
  | set k' e s =>
    simp only [Call.op] at h
    split_ifs at h with hacc
    cases h
    exact ⟨e, s, rfl, hacc, rfl, rfl⟩

/-- The last item put is the last entry accepted. -/
theorem lastAccepted_of_lastPut {calls : List Call} {i : Item String CacheEntry Int}
    (h : LastPut (calls.map (Call.op ttl maxEntries maxBodyBytes)) i) :
    ∃ e s, LastAccepted maxEntries maxBodyBytes calls i.key e s ∧
      i.value = { e with expires := s + ttl } ∧ i.expires = s + ttl := by
  obtain ⟨before, later, hops, hlater⟩ := h
  obtain ⟨calls1, rest, rfl, -, hrest⟩ := List.map_eq_append_iff.1 hops
  obtain ⟨call, calls2, rfl, hcall, rfl⟩ := List.map_eq_cons_iff.1 hrest
  obtain ⟨e, s, rfl, hacc, hv, hexp⟩ := op_eq_put hcall
  refine ⟨e, s, ⟨calls1, calls2, rfl, hacc, fun e' s' hmem => ?_⟩, hv, hexp⟩
  by_contra hacc'
  have hput : (Call.set i.key e' s').op ttl maxEntries maxBodyBytes =
      .put i.key { e' with expires := s' + ttl } (s' + ttl) := by
    simp [Call.op, hacc']
  apply hlater { e' with expires := s' + ttl } (s' + ttl)
  rw [← hput]
  exact List.mem_map_of_mem hmem

/-- The specification reaches the list of the operations performed. -/
theorem trace_recencyStep {calls : List Call} (ops : List (Op String CacheEntry Int))
    {l : List (Item String CacheEntry Int)} {answers : List (Option CacheEntry)}
    (h : trace (recencyStep ttl maxEntries maxBodyBytes) (after maxEntries.toNat ops) calls =
      some (l, answers)) :
    l = after maxEntries.toNat (ops ++ calls.map (Call.op ttl maxEntries maxBodyBytes)) := by
  induction calls generalizing ops answers with
  | nil =>
    cases h
    rw [List.map_nil, List.append_nil]
  | cons call calls ih =>
    obtain ⟨l1, answer, answers', h1, h2, rfl⟩ := trace_cons_iff.1 h
    have hl1 : l1 = after maxEntries.toNat (ops ++ [call.op ttl maxEntries maxBodyBytes]) := by
      rw [after_concat]
      exact (congrArg Prod.fst (Option.some.inj h1)).symm
    rw [hl1] at h2
    rw [ih _ h2, List.map_cons, List.append_assoc, List.singleton_append]

/-- A hit returns the last accepted entry, which is not older than the time to live. -/
theorem hit_spec {c : ResponseCache} {calls : List Call}
    (h : Represents ttl maxEntries maxBodyBytes c
      (after maxEntries.toNat (calls.map (Call.op ttl maxEntries maxBodyBytes))))
    {k : String} {t : Int} {v : CacheEntry} (hit : (c.get k t).2 = some v) :
    ∃ e s, LastAccepted maxEntries maxBodyBytes calls k e s ∧
      v = { e with expires := s + ttl } ∧ t - ttl ≤ s := by
  have hget := (get_simulates h.linked k t).2.1
  rw [h.contents] at hget
  have hv : (Recency.get (after maxEntries.toNat (calls.map (Call.op ttl maxEntries maxBodyBytes)))
      k t).2 = some v := by rw [hget]; exact hit
  obtain ⟨i, hi, rfl, rfl, hexp⟩ := get_eq_some hv
  obtain ⟨e, s, hlast, hval, hes⟩ := lastAccepted_of_lastPut ((inv_after _ _).lastPut i hi)
  exact ⟨e, s, hlast, hval, by omega⟩

theorem Linked.mem_iff_contents {c : ResponseCache} (h : Linked c) (k : String) :
    k ∈ c.entries ↔ ∃ i ∈ c.contents, i.key = k := by
  rw [h.mem_entries]
  constructor
  · rintro ⟨el, hel, hk⟩
    exact ⟨_, List.mem_map_of_mem hel, hk⟩
  · rintro ⟨i, hi, hk⟩
    obtain ⟨el, hel, rfl⟩ := List.mem_map.1 hi
    exact ⟨el, hel, hk⟩

/-- A `set` that drops a key finds the cache full and without the new key, and drops only the key
that was used longest ago. -/
theorem eviction_spec {c c' : ResponseCache} {calls : List Call}
    (h : Represents ttl maxEntries maxBodyBytes c
      (after maxEntries.toNat (calls.map (Call.op ttl maxEntries maxBodyBytes))))
    {k k' : String} {e : CacheEntry} {t : Int} (hset : c.set k e t = some c') (hin : k' ∈ c.entries)
    (hout : k' ∉ c'.entries) :
    (c.entries.keys.length : Int) = maxEntries ∧ k ∉ c.entries ∧
      ∀ k'' ∈ c.entries, k'' ≠ k' → k'' ∈ c'.entries ∧
        MoreRecent (usedKeys ttl maxEntries maxBodyBytes calls) k'' k' := by
  have hinv := inv_after maxEntries.toNat (calls.map (Call.op ttl maxEntries maxBodyBytes))
  obtain ⟨hlinked, hcont, hlen, rfl, rfl, rfl⟩ := h
  by_cases hacc : accepts c.maxEntries c.maxBodyBytes e = true
  · rw [← hcont] at hlen hinv
    obtain ⟨c1, hc1, hlinked', hcont', -⟩ := set_simulates k t hlinked hacc hlen
    have he : c1 = c' := Option.some.inj (hc1.symm.trans hset)
    subst he
    have hpos : 0 < c.maxEntries := by
      simp only [accepts, Bool.and_eq_true, decide_eq_true_eq] at hacc
      exact hacc.1
    have hk : k ∈ c1.entries := by
      rw [hlinked'.mem_iff_contents, hcont', put]
      obtain ⟨m, hm⟩ : ∃ m, c.maxEntries.toNat = m + 1 := ⟨c.maxEntries.toNat - 1, by omega⟩
      rw [hm, List.take_succ_cons]
      exact ⟨_, List.mem_cons_self, rfl⟩
    obtain ⟨i, hi, rfl⟩ := (hlinked.mem_iff_contents k').1 hin
    have hne : i.key ≠ k := fun hik => hout (hik ▸ hk)
    have hgone : i ∉ c1.contents := fun hmem =>
      hout ((hlinked'.mem_iff_contents _).2 ⟨i, hmem, rfl⟩)
    rw [hcont'] at hgone
    obtain ⟨hfull, hnew, init, hinit, hput⟩ := put_evicts hinv.nodup hlen hi hne hgone
    refine ⟨?_, ?_, ?_⟩
    · have hsize : c.contents.length = c.order.length := List.length_map _
      rw [hlinked.size]
      omega
    · rw [hlinked.mem_iff_contents]
      rintro ⟨j, hj, hjk⟩
      exact hnew j hj hjk
    · intro k'' hk'' hne''
      obtain ⟨j, hj, rfl⟩ := (hlinked.mem_iff_contents k'').1 hk''
      have hjinit : j ∈ init := by
        rw [hinit] at hj
        rcases List.mem_append.1 hj with hj | hj
        · exact hj
        · rw [List.mem_singleton.1 hj] at hne''
          exact absurd rfl hne''
      refine ⟨(hlinked'.mem_iff_contents _).2 ⟨j, ?_, rfl⟩, ?_⟩
      · rw [hcont', hput]
        exact List.mem_cons_of_mem _ hjinit
      · have hrecent := hinv.recent
        rw [hinit] at hrecent
        exact (List.pairwise_append.1 hrecent).2.2 j hjinit i (List.mem_singleton_self i)
  · have hsame := @set_rejected c _ k t (by simpa using hacc)
    rw [hsame] at hset
    exact absurd (Option.some.inj hset ▸ hin) hout

/-- **The response cache is an LRU cache with a time to live**: for every configuration with room for
an entry and every sequence of calls, at any times, the cache gets through the sequence; its map and
its list hold the same keys, each once and at most `maxEntries`; its answers and contents are those
of the recency list; a hit returns the last accepted entry of its key, stored within the time to
live; and a `set` that drops a key drops exactly the least recently used one. -/
theorem responseCache_refines_recency (ttl maxEntries maxBodyBytes : Int) (hmax : 0 < maxEntries)
    (calls : List Call) :
    ∃ c answers,
      trace ResponseCache.step (newResponseCache ttl maxEntries maxBodyBytes) calls =
        some (c, answers) ∧
      (c.order.map c.keyOf).Nodup ∧ c.entries.keys.Perm (c.order.map c.keyOf) ∧
      (∀ el ∈ c.order, c.entries.lookup (c.keyOf el) = some el) ∧
      (c.entries.keys.length : Int) ≤ maxEntries ∧
      trace (recencyStep ttl maxEntries maxBodyBytes) [] calls = some (c.contents, answers) ∧
      (∀ k t v, (c.get k t).2 = some v →
        ∃ e s, LastAccepted maxEntries maxBodyBytes calls k e s ∧
          v = { e with expires := s + ttl } ∧ t - ttl ≤ s) ∧
      ∀ k e t c', c.set k e t = some c' → ∀ k' ∈ c.entries, k' ∉ c'.entries →
        (c.entries.keys.length : Int) = maxEntries ∧ k ∉ c.entries ∧
          ∀ k'' ∈ c.entries, k'' ≠ k' → k'' ∈ c'.entries ∧
            MoreRecent (usedKeys ttl maxEntries maxBodyBytes calls) k'' k' := by
  obtain ⟨c, l, answers, hc, hl, hrep⟩ := trace_of_simulation
    (R := Represents ttl maxEntries maxBodyBytes) step_simulates calls
    (newResponseCache ttl maxEntries maxBodyBytes) [] newResponseCache_represents
  have hafter : l = after maxEntries.toNat (calls.map (Call.op ttl maxEntries maxBodyBytes)) :=
    trace_recencyStep [] hl
  have hsize : (c.entries.keys.length : Int) ≤ maxEntries := by
    have h1 := hrep.length
    have h2 : c.contents.length = c.order.length := List.length_map _
    rw [hrep.linked.size]
    rw [← hrep.contents] at h1
    omega
  refine ⟨c, answers, hc, hrep.linked.keys_nodup, hrep.linked.keys_perm,
    fun el hel => (hrep.linked.lookup _ _).2 ⟨hel, rfl⟩, hsize, ?_, ?_, ?_⟩
  · rw [hrep.contents]
    exact hl
  · intro k t v hit
    exact hit_spec (hafter ▸ hrep) hit
  · intro k e t c' hset k' hin hout
    exact eviction_spec (hafter ▸ hrep) hset hin hout

/-- A cache with one place: the second key evicts the first one, and expires in its turn. -/
theorem one_place_answers :
    (0 : Int) < 1 ∧
      ∃ c, trace ResponseCache.step (newResponseCache 10 1 0)
          [.set "a" ⟨200, [], [1], 0⟩ 0, .get "a" 5, .set "b" ⟨200, [], [2], 0⟩ 6, .get "a" 7,
            .get "b" 16, .get "b" 17] =
        some (c, [none, some ⟨200, [], [1], 10⟩, none, none, some ⟨200, [], [2], 16⟩, none]) ∧
        (c.entries.keys.length : Int) ≤ 1 := by
  refine ⟨by decide, ?_⟩
  obtain ⟨c, answers, hc, -, -, -, hsize, -⟩ := responseCache_refines_recency 10 1 0 (by decide)
    [.set "a" ⟨200, [], [1], 0⟩ 0, .get "a" 5, .set "b" ⟨200, [], [2], 0⟩ 6, .get "a" 7,
      .get "b" 16, .get "b" 17]
  have hans : some answers =
      some [none, some ⟨200, [], [1], 10⟩, none, none, some ⟨200, [], [2], 16⟩, none] := by
    rw [show some answers = (some (c, answers)).map Prod.snd from rfl, ← hc]
    decide
  cases hans
  exact ⟨c, hc, hsize⟩

end Gateway
