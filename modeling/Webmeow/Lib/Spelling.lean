import Mathlib.Data.List.Nodup

/-!
# Words spelled with separators

A word is found in a text where its letters stand in order with only separators between them, and
where neither end touches a character that would make it part of a longer word. A backtracking
matcher takes as many separators as it can before each letter. What it finds is masked, one word
after the other.
-/

namespace Spelling

variable {α : Type*}

/-- What the characters of a text are to every word. -/
structure Alphabet (α : Type*) where
  /-- May stand between two letters. -/
  sep : α → Bool
  /-- Makes a word that it touches part of a longer one. -/
  bound : α → Bool

/-- A word, each letter given by the characters that stand for it. -/
abbrev Word (α : Type*) := List (α → Bool)

namespace Alphabet

variable (A : Alphabet α)

/-- A word may begin or end next to this. -/
def free (c : Option α) : Bool := !c.any A.bound

/-- The ways to spell a word at the start of a text, separators in front of its first letter
included, in the order in which they are tried. A spelling has `true` for each letter and `false`
for each separator. -/
def rest : Word α → List α → List (List Bool)
  | [], s => if A.free s.head? then [[]] else []
  | _ :: _, [] => []
  | c :: cs, x :: s =>
    (if A.sep x then (rest (c :: cs) s).map (List.cons false) else []) ++
      if c x then (rest cs s).map (List.cons true) else []

/-- The spellings that begin with a letter, behind the character `prev`. -/
def spellings (w : Word α) (prev : Option α) (s : List α) : List (List Bool) :=
  if A.free prev then
    match w, s with
    | [], s => A.rest [] s
    | _ :: _, [] => []
    | c :: cs, x :: s => if c x then (A.rest cs s).map (List.cons true) else []
  else []

/-- The characters that are masked where the first spelling is taken at each place, left to right
and without overlaps; `n` characters of the current one are left. -/
def hits (w : Word α) : ℕ → Option α → List α → List Bool
  | _, _, [] => []
  | n + 1, _, x :: s => true :: hits w n (some x) s
  | 0, prev, x :: s =>
    match (A.spellings w prev (x :: s)).head? with
    | some (_ :: m) => true :: hits w m.length (some x) s
    | _ => false :: hits w 0 (some x) s

/-- The text with `mask` in place of these characters. -/
def sub (w : Word α) (mask : α) : ℕ → Option α → List α → List α
  | _, _, [] => []
  | n + 1, _, x :: s => mask :: sub w mask n (some x) s
  | 0, prev, x :: s =>
    match (A.spellings w prev (x :: s)).head? with
    | some (_ :: m) => mask :: sub w mask m.length (some x) s
    | _ => x :: sub w mask 0 (some x) s

/-- `m` spells the word at the start of the text. -/
def Spells : Word α → List α → List Bool → Prop
  | [], s, [] => A.free s.head? = true
  | c :: cs, x :: s, true :: m => c x = true ∧ Spells cs s m
  | c :: cs, x :: s, false :: m => A.sep x = true ∧ Spells (c :: cs) s m
  | _, _, _ => False

end Alphabet

/-- The character in front of place `a`. -/
def before (prev : Option α) (s : List α) : ℕ → Option α
  | 0 => prev
  | a + 1 => s[a]?

/-- The spellings at place `a`. -/
def Alphabet.spellingsAt (A : Alphabet α) (w : Word α) (prev : Option α) (s : List α) (a : ℕ) :
    List (List Bool) :=
  A.spellings w (before prev s a) (s.drop a)

/-- The text with `mask` where a flag is set. -/
def paint (mask : α) (f : List Bool) (s : List α) : List α :=
  List.zipWith (fun b x => if b then mask else x) f s

/-- No letter of the spelling has its flag set. -/
def Untouched (m f : List Bool) : Prop := ∀ p ∈ m.zip f, p.1 = true → p.2 = false

variable {A : Alphabet α} {mask : α}

/-! ## Spellings -/

theorem mem_guarded {b : Bool} {m : List Bool} {l : List (List Bool)} {f : List Bool → List Bool} :
    (m ∈ if b then l.map f else []) ↔ b = true ∧ ∃ m' ∈ l, f m' = m := by
  cases b <;> simp

theorem rest_nil (s : List α) : A.rest [] s = if A.free s.head? then [[]] else [] := by
  cases s <;> rfl

theorem mem_rest_nil {s : List α} {m : List Bool} : m ∈ A.rest [] s ↔ A.Spells [] s m := by
  rw [rest_nil]
  by_cases hs : A.free s.head? = true
  · rw [if_pos hs]
    cases m with
    | nil => simp [Alphabet.Spells, hs]
    | cons b m => simp [Alphabet.Spells]
  · rw [if_neg hs]
    cases m with
    | nil => simp [Alphabet.Spells, hs]
    | cons b m => simp [Alphabet.Spells]

theorem mem_rest_iff {w : Word α} {s : List α} {m : List Bool} :
    m ∈ A.rest w s ↔ A.Spells w s m := by
  induction s generalizing w m with
  | nil =>
    cases w with
    | nil => exact mem_rest_nil
    | cons c cs => simp [Alphabet.rest, Alphabet.Spells]
  | cons x s ih =>
    cases w with
    | nil => exact mem_rest_nil
    | cons c cs =>
      rw [Alphabet.rest, List.mem_append, mem_guarded, mem_guarded]
      cases m with
      | nil => simp [Alphabet.Spells]
      | cons b m => cases b <;> simp [Alphabet.Spells, ih]

theorem mem_spellings_iff {w : Word α} {prev : Option α} {s : List α} {m : List Bool} :
    m ∈ A.spellings w prev s ↔
      A.free prev = true ∧ m.head? ≠ some false ∧ A.Spells w s m := by
  unfold Alphabet.spellings
  by_cases hp : A.free prev = true
  · rw [if_pos hp]
    cases w with
    | nil =>
      cases m with
      | nil => simp [mem_rest_iff, hp]
      | cons b m => simp [mem_rest_iff, Alphabet.Spells]
    | cons c cs =>
      cases s with
      | nil => simp [Alphabet.Spells]
      | cons x s =>
        simp only [mem_guarded, mem_rest_iff]
        cases m with
        | nil => simp [Alphabet.Spells]
        | cons b m => cases b <;> simp [Alphabet.Spells, hp]
  · rw [if_neg hp]
    simp [hp]

/-- A spelling of a word begins with a letter. -/
theorem exists_of_mem_spellings {w : Word α} {p : Option α} {s : List α} {m : List Bool}
    (h : m ∈ A.spellings w p s) : (w = [] ∧ m = []) ∨ ∃ m', m = true :: m' := by
  obtain ⟨-, hhead, hm⟩ := mem_spellings_iff.1 h
  cases m with
  | nil =>
    cases w with
    | nil => exact Or.inl ⟨rfl, rfl⟩
    | cons c cs => simp [Alphabet.Spells] at hm
  | cons b m =>
    cases b with
    | false => simp at hhead
    | true => exact Or.inr ⟨m, rfl⟩

/-! ## Texts that agree -/

/-- Whether a word is spelled depends only on the characters up to the one behind it. -/
theorem spells_take {w : Word α} {s : List α} {m : List Bool} :
    A.Spells w (s.take (m.length + 1)) m ↔ A.Spells w s m := by
  induction m generalizing w s with
  | nil => cases s <;> cases w <;> simp [Alphabet.Spells]
  | cons b m ih =>
    cases w with
    | nil => cases s <;> simp [Alphabet.Spells]
    | cons c cs =>
      cases s with
      | nil => simp [Alphabet.Spells]
      | cons x s =>
        rw [List.length_cons, List.take_succ_cons]
        cases b with
        | false => simp only [Alphabet.Spells, ih]
        | true => simp only [Alphabet.Spells, ih]

/-! ## Painted texts -/

@[simp]
theorem paint_cons (b : Bool) (f : List Bool) (x : α) (s : List α) :
    paint mask (b :: f) (x :: s) = (if b then mask else x) :: paint mask f s := rfl

theorem length_paint {f : List Bool} {s : List α} (h : f.length = s.length) :
    (paint mask f s).length = s.length := by
  simp [paint, h]

theorem drop_paint (f : List Bool) (s : List α) (a : ℕ) :
    (paint mask f s).drop a = paint mask (f.drop a) (s.drop a) := List.drop_zipWith

theorem getElem?_paint {f : List Bool} {s : List α} (h : f.length = s.length) {k : ℕ}
    (hk : f[k]? ≠ some true) : (paint mask f s)[k]? = s[k]? := by
  rw [paint, List.getElem?_zipWith]
  cases hf : f[k]? with
  | none =>
    have hs : s[k]? = none := by
      rw [List.getElem?_eq_none_iff] at hf ⊢
      omega
    simp [hs]
  | some b =>
    cases b with
    | true => exact absurd hf hk
    | false => cases s[k]? <;> simp

/-- Painting twice paints both. -/
theorem paint_paint {f g : List Bool} {s : List α} (hf : f.length = s.length)
    (hg : g.length = s.length) :
    paint mask g (paint mask f s) = paint mask (List.zipWith (· || ·) f g) s := by
  induction s generalizing f g with
  | nil => simp [paint]
  | cons x s ih =>
    cases f with
    | nil => cases hf
    | cons b f =>
      cases g with
      | nil => cases hg
      | cons c g =>
        have hrest := ih (f := f) (g := g) (by simpa using hf) (by simpa using hg)
        cases b <;> cases c <;> simp [hrest]

theorem Untouched.tail {b c : Bool} {m f : List Bool} (h : Untouched (b :: m) (c :: f)) :
    Untouched m f := fun p hp => h p (by simp [hp])

/-- Masking characters other than its letters leaves a spelling a spelling. -/
theorem Alphabet.Spells.paint (hsep : A.sep mask = true) (hbound : A.bound mask = false)
    {w : Word α} {s : List α} {f m : List Bool} (h : A.Spells w s m) (hlen : f.length = s.length)
    (hm : Untouched m f) : A.Spells w (paint mask f s) m := by
  induction s generalizing w f m with
  | nil =>
    rw [List.length_nil] at hlen
    rw [List.eq_nil_of_length_eq_zero hlen]
    exact h
  | cons x s ih =>
    cases f with
    | nil => cases hlen
    | cons b f =>
      have hlen' : f.length = s.length := by simpa using hlen
      rw [paint_cons]
      cases w with
      | nil =>
        cases m with
        | nil =>
          cases b with
          | false => exact h
          | true => simp [Alphabet.Spells, Alphabet.free, hbound]
        | cons c m => exact absurd h (by simp [Alphabet.Spells])
      | cons c cs =>
        cases m with
        | nil => exact absurd h (by simp [Alphabet.Spells])
        | cons d m =>
          cases d with
          | false =>
            refine ⟨?_, ih h.2 hlen' hm.tail⟩
            cases b with
            | false => exact h.1
            | true => exact hsep
          | true =>
            have hb : b = false := hm (true, b) (by simp) rfl
            rw [hb]
            exact ⟨h.1, ih h.2 hlen' hm.tail⟩

theorem free_before_paint (hbound : A.bound mask = false) {f : List Bool} {s : List α}
    (hlen : f.length = s.length) {a : ℕ} (h : A.free (before none s a) = true) :
    A.free (before none (paint mask f s) a) = true := by
  cases a with
  | zero => rfl
  | succ a =>
    by_cases hf : f[a]? = some true
    · obtain ⟨ha, -⟩ := List.getElem?_eq_some_iff.1 hf
      have hx : (paint mask f s)[a]? = some mask := by
        rw [paint, List.getElem?_zipWith, hf, List.getElem?_eq_getElem (hlen ▸ ha)]
        rfl
      rw [before, hx]
      simp [Alphabet.free, hbound]
    · rw [before, getElem?_paint hlen hf]
      exact h

theorem mem_spellingsAt_paint (hsep : A.sep mask = true) (hbound : A.bound mask = false)
    {w : Word α} {s : List α} {f m : List Bool} {a : ℕ} (h : m ∈ A.spellingsAt w none s a)
    (hlen : f.length = s.length) (hm : Untouched m (f.drop a)) :
    m ∈ A.spellingsAt w none (paint mask f s) a := by
  obtain ⟨hfree, hhead, hspells⟩ := mem_spellings_iff.1 h
  refine mem_spellings_iff.2 ⟨free_before_paint hbound hlen hfree, hhead, ?_⟩
  rw [drop_paint]
  exact hspells.paint hsep hbound (by simp [hlen]) hm

/-- A spelling in a painted text that no painted character is in or next to was there before. -/
theorem mem_spellingsAt_of_paint {w : Word α} {s : List α} {f m : List Bool} {a : ℕ}
    (h : m ∈ A.spellingsAt w none (paint mask f s) a) (hlen : f.length = s.length)
    (hm : ∀ k, a ≤ k + 1 → k ≤ a + m.length → f[k]? ≠ some true) :
    m ∈ A.spellingsAt w none s a := by
  obtain ⟨hfree, hhead, hspells⟩ := mem_spellings_iff.1 h
  refine mem_spellings_iff.2 ⟨?_, hhead, ?_⟩
  · cases a with
    | zero => rfl
    | succ a =>
      rwa [before, getElem?_paint hlen (hm a (by omega) (by omega))] at hfree
  · rw [← spells_take] at hspells ⊢
    have htake : ((paint mask f s).drop a).take (m.length + 1) =
        (s.drop a).take (m.length + 1) := by
      refine List.ext_getElem? fun k => ?_
      rw [List.getElem?_take, List.getElem?_take]
      split_ifs with hk
      · rw [List.getElem?_drop, List.getElem?_drop,
          getElem?_paint hlen (hm (a + k) (by omega) (by omega))]
      · rfl
    rwa [htake] at hspells

/-! ## What is masked -/

theorem length_hits (w : Word α) (n : ℕ) (prev : Option α) (s : List α) :
    (A.hits w n prev s).length = s.length := by
  induction s generalizing n prev with
  | nil => cases n <;> rfl
  | cons x s ih =>
    cases n with
    | zero =>
      rw [Alphabet.hits]
      split
      · simp [ih]
      · simp [ih]
    | succ n => simp [Alphabet.hits, ih]

/-- A pass paints its hits. -/
theorem sub_eq_paint (w : Word α) (n : ℕ) (prev : Option α) (s : List α) :
    A.sub w mask n prev s = paint mask (A.hits w n prev s) s := by
  induction s generalizing n prev with
  | nil => cases n <;> rfl
  | cons x s ih =>
    cases n with
    | zero =>
      rw [Alphabet.hits, Alphabet.sub]
      split
      · simp [ih]
      · simp [ih]
    | succ n => simp [Alphabet.hits, Alphabet.sub, ih]

theorem spellingsAt_cons_succ (w : Word α) (prev : Option α) (x : α) (s : List α) (a : ℕ) :
    A.spellingsAt w prev (x :: s) (a + 1) = A.spellingsAt w (some x) s a := by
  cases a <;> rfl

/-- Where a word can be spelled, the first character is masked. -/
theorem hits_of_spelled {w : Word α} {s : List α} (n : ℕ) {prev : Option α} {a : ℕ} {m : List Bool}
    (ha : a < s.length) (h : m ∈ A.spellingsAt w prev s a) (hm : m ≠ []) :
    (A.hits w n prev s)[a]? = some true := by
  induction s generalizing n prev a with
  | nil => cases ha
  | cons x s ih =>
    cases a with
    | zero =>
      cases n with
      | succ n => rfl
      | zero =>
        have hmem : m ∈ A.spellings w prev (x :: s) := h
        obtain ⟨first, hfirst⟩ : ∃ first, (A.spellings w prev (x :: s)).head? = some first := by
          cases hl : A.spellings w prev (x :: s) with
          | nil => rw [hl] at hmem; cases hmem
          | cons first l => exact ⟨first, rfl⟩
        have hw : w ≠ [] := by
          rintro rfl
          rcases exists_of_mem_spellings hmem with ⟨-, rfl⟩ | ⟨m', rfl⟩
          · exact hm rfl
          · obtain ⟨-, -, hs⟩ := mem_spellings_iff.1 hmem
            simp [Alphabet.Spells] at hs
        rcases exists_of_mem_spellings (List.mem_of_head? hfirst) with ⟨hnil, -⟩ | ⟨m', rfl⟩
        · exact absurd hnil hw
        · simp [Alphabet.hits, hfirst]
    | succ a =>
      rw [spellingsAt_cons_succ] at h
      have ha' : a < s.length := by simpa using ha
      cases n with
      | succ n => simpa [Alphabet.hits] using ih n ha' h
      | zero =>
        rw [Alphabet.hits]
        split
        · simpa using ih _ ha' h
        · simpa using ih _ ha' h

end Spelling
