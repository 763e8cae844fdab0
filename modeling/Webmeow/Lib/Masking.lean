import Webmeow.Lib.Spelling

/-!
# Masking several words

Words are masked one after the other, each in the text that the ones before have left. A mask is a
separator and no boundary, so it can join the letters of another word.
-/

namespace Spelling

variable {α : Type*} {A : Alphabet α} {mask : α}

/-- The text after all words have been masked. -/
def Alphabet.maskAll (A : Alphabet α) (mask : α) (ws : List (Word α)) (s : List α) : List α :=
  ws.foldl (fun s w => A.sub w mask 0 none s) s

/-- The characters that were masked for one of the words. -/
def Alphabet.replaced (A : Alphabet α) (mask : α) : List (Word α) → List α → List Bool
  | [], s => s.map fun _ => false
  | w :: ws, s =>
    List.zipWith (· || ·) (A.hits w 0 none s) (A.replaced mask ws (A.sub w mask 0 none s))

@[simp]
theorem length_sub (w : Word α) (s : List α) : (A.sub w mask 0 none s).length = s.length := by
  rw [sub_eq_paint, length_paint (length_hits w 0 none s)]

@[simp]
theorem length_replaced (ws : List (Word α)) (s : List α) :
    (A.replaced mask ws s).length = s.length := by
  induction ws generalizing s with
  | nil => simp [Alphabet.replaced]
  | cons w ws ih => simp [Alphabet.replaced, ih, length_hits]

theorem paint_none (s : List α) : paint mask (s.map fun _ => false) s = s := by
  induction s with
  | nil => rfl
  | cons x s ih => rw [List.map_cons, paint_cons, ih]; rfl

/-- All passes paint what they replace. -/
theorem maskAll_eq_paint (ws : List (Word α)) (s : List α) :
    A.maskAll mask ws s = paint mask (A.replaced mask ws s) s := by
  induction ws generalizing s with
  | nil => exact (paint_none s).symm
  | cons w ws ih =>
    have hstep : A.maskAll mask (w :: ws) s = A.maskAll mask ws (A.sub w mask 0 none s) := rfl
    rw [hstep, ih, Alphabet.replaced,
      ← paint_paint (length_hits w 0 none s) (by simp), ← sub_eq_paint]

theorem getElem?_or {f g : List Bool} (h : f.length = g.length) {k : ℕ}
    (hk : (List.zipWith (· || ·) f g)[k]? ≠ some true) :
    f[k]? ≠ some true ∧ g[k]? ≠ some true := by
  rw [List.getElem?_zipWith] at hk
  by_cases hlt : k < f.length
  · rw [List.getElem?_eq_getElem hlt, List.getElem?_eq_getElem (h ▸ hlt)] at hk ⊢
    simpa using hk
  · rw [List.getElem?_eq_none (by omega), List.getElem?_eq_none (by omega)]
    simp

theorem Untouched.of_or {m f g : List Bool} (h : f.length = g.length)
    (hm : Untouched m (List.zipWith (· || ·) f g)) : Untouched m f ∧ Untouched m g := by
  induction m generalizing f g with
  | nil => exact ⟨nofun, nofun⟩
  | cons b m ih =>
    cases f with
    | nil =>
      rw [List.length_nil] at h
      rw [List.eq_nil_of_length_eq_zero h.symm]
      exact ⟨by simp [Untouched], by simp [Untouched]⟩
    | cons c f =>
      cases g with
      | nil => cases h
      | cons d g =>
        obtain ⟨hf, hg⟩ := ih (by simpa using h) hm.tail
        have hhead : b = true → (c || d) = false := hm (b, c || d) (by simp)
        constructor
        · intro p hp hb
          rcases List.mem_cons.1 hp with rfl | hp
          · exact (Bool.or_eq_false_iff.1 (hhead hb)).1
          · exact hf p hp hb
        · intro p hp hb
          rcases List.mem_cons.1 hp with rfl | hp
          · exact (Bool.or_eq_false_iff.1 (hhead hb)).2
          · exact hg p hp hb

theorem lt_of_spelled {w : Word α} {prev : Option α} {s : List α} {a : ℕ} {m : List Bool}
    (h : m ∈ A.spellingsAt w prev s a) (hm : m ≠ []) : a < s.length := by
  by_contra hge
  obtain ⟨-, -, hspells⟩ := mem_spellings_iff.1 h
  rw [List.drop_eq_nil_of_le (by omega)] at hspells
  cases m with
  | nil => exact hm rfl
  | cons b m => cases w <;> simp [Alphabet.Spells] at hspells

/-- **No word of the text survives**: every spelling in the text loses a letter to a mask. -/
theorem spelling_loses_letter (hsep : A.sep mask = true) (hbound : A.bound mask = false)
    {ws : List (Word α)} {w : Word α} (hw : w ∈ ws) {s : List α} {a : ℕ} {m : List Bool}
    (h : m ∈ A.spellingsAt w none s a) (hm : m ≠ []) :
    ¬Untouched m ((A.replaced mask ws s).drop a) := by
  induction ws generalizing s with
  | nil => cases hw
  | cons w' ws ih =>
    intro hun
    rw [Alphabet.replaced, List.drop_zipWith] at hun
    obtain ⟨hfirst, hlater⟩ := hun.of_or (by simp [length_hits])
    rcases List.mem_cons.1 hw with rfl | hw
    · have hhit := hits_of_spelled 0 (lt_of_spelled h hm) h hm
      obtain ⟨-, rfl⟩ | ⟨m', rfl⟩ := exists_of_mem_spellings h
      · exact hm rfl
      · have hhead : ((A.hits w 0 none s).drop a)[0]? = some true := by
          rw [List.getElem?_drop]
          exact hhit
        cases hdrop : (A.hits w 0 none s).drop a with
        | nil => rw [hdrop] at hhead; cases hhead
        | cons b f =>
          rw [hdrop] at hhead hfirst
          obtain rfl : b = true := by simpa using hhead
          exact absurd (hfirst (true, true) (by simp) rfl) (by simp)
    · refine ih hw (mem_spellingsAt_paint hsep hbound h (length_hits w' 0 none s) hfirst |>
        (sub_eq_paint w' 0 none s).symm.subst (motive := fun t => m ∈ A.spellingsAt w none t a)) hlater

/-- **What is left has a mask in it**: a spelling in the masked text contains a character that was
masked, or is next to one. -/
theorem spelling_touches_mask {ws : List (Word α)} {w : Word α} (hw : w ∈ ws) {s : List α} {a : ℕ}
    {m : List Bool} (h : m ∈ A.spellingsAt w none (A.maskAll mask ws s) a) (hm : m ≠ []) :
    ∃ k, a ≤ k + 1 ∧ k ≤ a + m.length ∧ (A.replaced mask ws s)[k]? = some true := by
  by_contra hno
  have hclear : ∀ k, a ≤ k + 1 → k ≤ a + m.length → (A.replaced mask ws s)[k]? ≠ some true :=
    fun k hak hka hk => hno ⟨k, hak, hka, hk⟩
  clear hno
  induction ws generalizing s with
  | nil => cases hw
  | cons w' ws ih =>
    have hlen : (A.hits w' 0 none s).length =
        (A.replaced mask ws (A.sub w' mask 0 none s)).length := by simp [length_hits]
    rcases List.mem_cons.1 hw with rfl | hw
    · -- the word was masked first, so it was already spelled here when it was masked
      rw [maskAll_eq_paint] at h
      have hs := mem_spellingsAt_of_paint h (by simp) hclear
      have hhit := hits_of_spelled 0 (lt_of_spelled hs hm) hs hm
      exact (getElem?_or hlen (hclear a (by omega) (by omega))).1 hhit
    · exact ih hw h fun k hak hka => (getElem?_or hlen (hclear k hak hka)).2

/-- Painting leaves a text as it is where nothing but masks is painted. -/
theorem paint_eq_self_iff {f : List Bool} {s : List α} (hlen : f.length = s.length) :
    paint mask f s = s ↔ ∀ (k : ℕ) (x : α), f[k]? = some true → s[k]? = some x → x = mask := by
  constructor
  · intro h k x hf hs
    have hk : (paint mask f s)[k]? = some mask := by
      rw [paint, List.getElem?_zipWith, hf, hs]
      rfl
    rw [h, hs] at hk
    exact Option.some.inj hk
  · intro h
    refine List.ext_getElem? fun k => ?_
    by_cases hf : f[k]? = some true
    · obtain ⟨hk, -⟩ := List.getElem?_eq_some_iff.1 hf
      have hs : s[k]? = some s[k] := List.getElem?_eq_getElem (hlen ▸ hk)
      rw [paint, List.getElem?_zipWith, hf, hs, ← h k s[k] hf hs]
      rfl
    · exact getElem?_paint hlen hf

theorem getElem?_or_left {f g : List Bool} (h : f.length = g.length) {k : ℕ}
    (hk : f[k]? = some true) : (List.zipWith (· || ·) f g)[k]? = some true := by
  by_contra hne
  exact (getElem?_or h hne).1 hk

/-- What one word masks is not undone by the others: the text stays as it is just when each word
leaves it so. -/
theorem maskAll_eq_self_iff {ws : List (Word α)} {s : List α} :
    A.maskAll mask ws s = s ↔ ∀ w ∈ ws, A.sub w mask 0 none s = s := by
  induction ws with
  | nil => exact ⟨fun _ w hw => absurd hw List.not_mem_nil, fun _ => rfl⟩
  | cons w ws ih =>
    have hstep : A.maskAll mask (w :: ws) s = A.maskAll mask ws (A.sub w mask 0 none s) := rfl
    rw [List.forall_mem_cons]
    constructor
    · intro h
      have hw : A.sub w mask 0 none s = s := by
        rw [maskAll_eq_paint, paint_eq_self_iff (by simp)] at h
        rw [sub_eq_paint, paint_eq_self_iff (length_hits w 0 none s)]
        refine fun k x hk hx => h k x ?_ hx
        exact getElem?_or_left (by simp [length_hits]) hk
      rw [hstep, hw] at h
      exact ⟨hw, ih.1 h⟩
    · rintro ⟨hw, hws⟩
      rw [hstep, hw]
      exact ih.2 hws

/-- Without a spelling there is nothing to mask. -/
theorem hits_of_none {w : Word α} {s : List α} {prev : Option α}
    (h : ∀ a, ∀ m ∈ A.spellingsAt w prev s a, m = []) :
    A.hits w 0 prev s = s.map fun _ => false := by
  induction s generalizing prev with
  | nil => rfl
  | cons x s ih =>
    have hrest := @ih (some x) fun a m hm => h (a + 1) m (by rwa [spellingsAt_cons_succ])
    rw [Alphabet.hits]
    split
    · rename_i b m hfirst
      exact absurd (h 0 (b :: m) (List.mem_of_head? hfirst)) (by simp)
    · rw [hrest, List.map_cons]

/-- A text in which no word can be spelled is left as it is. -/
theorem maskAll_of_none {ws : List (Word α)} {s : List α}
    (h : ∀ w ∈ ws, ∀ a, ∀ m ∈ A.spellingsAt w none s a, m = []) : A.maskAll mask ws s = s := by
  induction ws with
  | nil => rfl
  | cons w ws ih =>
    have hfirst : A.sub w mask 0 none s = s := by
      rw [sub_eq_paint, hits_of_none (h w List.mem_cons_self), paint_none]
    have hrest := ih fun w' hw' => h w' (List.mem_cons_of_mem _ hw')
    rw [Alphabet.maskAll, List.foldl_cons, hfirst]
    exact hrest

end Spelling
