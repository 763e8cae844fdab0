import Webmeow.Lib.Reordering
import Webmeow.Parrot.Profanity

/-!
# What masking does to a text

Every stop word of a text loses a letter. What can still be read as a stop word in the masked text
has a mask in it or next to it, since a mask is a separator and no letter. Words of one length are
masked in the order that a set of strings happens to have, which shows when they meet in a text.
-/

namespace Parrot

open Spelling Reordering

/-! ## The filter on lists of characters -/

theorem mask_sep (u : Unicode) : (patternAlphabet u).sep MASK_CHAR = true := by
  have halnum : u.isAlnum '*' = false := u.isAlnum_ascii '*' (by decide)
  simp [patternAlphabet, halnum, MASK_CHAR]

theorem mask_not_bound (u : Unicode) : (patternAlphabet u).bound MASK_CHAR = false := by
  have hall : boundaryChars.all fun b => decide (b.val < 128) &&
      decide (b.toLower ≠ MASK_CHAR.toLower) := by decide
  refine List.any_eq_false.2 fun b hb => ?_
  obtain ⟨hascii, hne⟩ := Bool.and_eq_true_iff.1 (List.all_eq_true.1 hall b hb)
  rw [u.ignoreCase_ascii b MASK_CHAR (of_decide_eq_true hascii) (by decide)]
  simpa using of_decide_eq_true hne

/-- The matches of a pattern that begin at place `a` of a text. A match has `true` for each
character that a letter class matches and `false` for each separator. -/
def StopList.matchesAt (f : StopList) (pattern : Word Char) (text : String) (a : ℕ) :
    List (List Bool) :=
  (patternAlphabet f.unicode).spellingsAt pattern none text.toList a

/-- The characters that a substitution replaced. -/
def StopList.replaced (f : StopList) (text : String) : List Bool :=
  (patternAlphabet f.unicode).replaced MASK_CHAR f.patterns text.toList

theorem maskProfanity_toList (f : StopList) (text : String) : (f.maskProfanity text).toList =
    (patternAlphabet f.unicode).maskAll MASK_CHAR f.patterns text.toList := by
  unfold StopList.maskProfanity
  split_ifs with h
  · subst h
    rw [maskAll_eq_paint]
    simp [paint]
  · exact String.toList_ofList

/-! ## Completeness -/

/-- A match contains a replaced character, or one of them is next to it. -/
def TouchesMask (replaced : List Bool) (a : ℕ) (m : List Bool) : Prop :=
  ∃ k, a ≤ k + 1 ∧ k ≤ a + m.length ∧ replaced[k]? = some true

theorem maskProfanity_of_none {f : StopList} {text : String}
    (h : ∀ pattern ∈ f.patterns, ∀ a, ∀ m ∈ f.matchesAt pattern text a, m = []) :
    f.maskProfanity text = text := by
  refine String.toList_injective ?_
  rw [maskProfanity_toList]
  exact maskAll_of_none h

theorem exists_letter_of_not_untouched {m f : List Bool} (h : ¬Untouched m f) :
    ∃ k : ℕ, m[k]? = some true ∧ f[k]? = some true := by
  simp only [Untouched, not_forall] at h
  obtain ⟨p, hp, hletter, hflag⟩ := h
  obtain ⟨k, hk⟩ := List.mem_iff_getElem?.1 hp
  rw [List.getElem?_zip_eq_some] at hk
  exact ⟨k, by rw [hk.1, hletter], by rw [hk.2]; simpa using hflag⟩

/-- **What masking achieves**: the masked text is the text with the replaced characters masked.
Every match of a pattern in the text has lost a letter. Every match of a pattern in the masked text
that is not empty contains or adjoins a replaced character; so masking again changes nothing if
there is no such match. -/
theorem masked_matches_touch_mask (f : StopList) (text : String) :
    (f.maskProfanity text).toList = paint MASK_CHAR (f.replaced text) text.toList ∧
    (∀ pattern ∈ f.patterns, ∀ a, ∀ m ∈ f.matchesAt pattern text a, m ≠ [] →
      ∃ k : ℕ, m[k]? = some true ∧ (f.replaced text)[a + k]? = some true) ∧
    (∀ pattern ∈ f.patterns, ∀ a, ∀ m ∈ f.matchesAt pattern (f.maskProfanity text) a, m ≠ [] →
      TouchesMask (f.replaced text) a m) ∧
    ((∀ pattern ∈ f.patterns, ∀ a, ∀ m ∈ f.matchesAt pattern (f.maskProfanity text) a, m ≠ [] →
      ¬TouchesMask (f.replaced text) a m) →
        f.maskProfanity (f.maskProfanity text) = f.maskProfanity text) := by
  have hleft : ∀ pattern ∈ f.patterns, ∀ a, ∀ m ∈ f.matchesAt pattern (f.maskProfanity text) a,
      m ≠ [] → TouchesMask (f.replaced text) a m := by
    intro pattern hpattern a m hm hne
    rw [StopList.matchesAt, maskProfanity_toList] at hm
    exact spelling_touches_mask hpattern hm hne
  refine ⟨?_, ?_, hleft, ?_⟩
  · rw [maskProfanity_toList, maskAll_eq_paint]
    rfl
  · intro pattern hpattern a m hm hne
    obtain ⟨k, hletter, hflag⟩ := exists_letter_of_not_untouched
      (spelling_loses_letter (mask_sep f.unicode) (mask_not_bound f.unicode) hpattern hm hne)
    rw [List.getElem?_drop] at hflag
    exact ⟨k, hletter, hflag⟩
  · intro hnone
    refine maskProfanity_of_none fun pattern hpattern a m hm => ?_
    by_contra hne
    exact hnone pattern hpattern a m hm hne (hleft pattern hpattern a m hm hne)

section DefaultWords

/-- Python on ASCII characters, and on others as far as they have no case and no decomposition. -/
def asciiUnicode : Unicode where
  isAlnum := Char.isAlphanum
  isSpace c := decide (c = ' ' ∨ 9 ≤ c.toNat ∧ c.toNat ≤ 13 ∨ 28 ≤ c.toNat ∧ c.toNat ≤ 31)
  ignoreCase c d := decide (c.toLower = d.toLower)
  nfkd := id
  lower := String.toLower
  isAlnum_ascii _ _ := rfl
  isSpace_ascii _ _ := rfl
  ignoreCase_ascii _ _ _ _ := rfl
  nfkd_ascii _ _ := rfl
  lower_ascii _ _ := rfl

/-- The words as they were inserted. -/
def insertionOrder : SetOrder := ⟨List.dedup, fun _ => List.Perm.refl _⟩

/-- Sets are iterated over backwards. -/
def reverseOrder : SetOrder := ⟨fun l => l.dedup.reverse, fun l => l.dedup.reverse_perm⟩

/-- The default stop list. -/
def defaultWords : List String := ["ass", "crap", "damn", "hell", "piss", "shit", "bastard"]

example : profanityWords asciiUnicode defaultProfanityWords = defaultWords := by decide +kernel

/-- The words of the default list. -/
def defaultStopList : StopList := ⟨asciiUnicode, insertionOrder, defaultWords⟩

/-- A mask joins the letters of a word that was looked for before, and it gives a word a beginning
that it did not have: the masked text still matches, and masking it again changes it. The pattern of
a word without ASCII letters matches everywhere. -/
theorem masks_join_letters :
    defaultStopList.maskProfanity "da ass mn" = "da *** mn" ∧
      "damn" ∈ defaultStopList.unique ∧
      [true, true, false, false, false, false, false, true, true] ∈
        defaultStopList.matchesAt (wordBoundaryPattern asciiUnicode "damn") "da *** mn" 0 ∧
      defaultStopList.maskProfanity "da *** mn" = "*********" ∧
      defaultStopList.maskProfanity (defaultStopList.maskProfanity "da ass mn") ≠
        defaultStopList.maskProfanity "da ass mn" ∧
      defaultStopList.maskProfanity "ass(rap" = "***(rap" ∧
      defaultStopList.maskProfanity "***(rap" = "*******" ∧
      [] ∈ (⟨asciiUnicode, insertionOrder, ["да"]⟩ : StopList).matchesAt
        (wordBoundaryPattern asciiUnicode "да") "!" 0 := by
  refine ⟨?_, ?_, ?_, ?_, ?_, ?_, ?_, ?_⟩
  all_goals decide +kernel

end DefaultWords

/-! ## The order of the stop list -/

theorem unique_sorted (f : StopList) :
    f.unique.Pairwise fun p q => q.length ≤ p.length := by
  have htrans : IsTrans String fun p q : String => q.length ≤ p.length :=
    ⟨fun _ _ _ h h' => h'.trans h⟩
  have htotal : Std.Total fun p q : String => q.length ≤ p.length :=
    ⟨fun p q => Nat.le_total q.length p.length⟩
  exact List.pairwise_insertionSort (fun p q : String => q.length ≤ p.length) _

theorem unique_perm_dedup (f : StopList) :
    f.unique.Perm ((f.words.filter (· ≠ "")).map f.unicode.lower).dedup :=
  (List.perm_insertionSort _ _).trans (f.order.perm _)

theorem unique_nodup (f : StopList) : f.unique.Nodup :=
  (unique_perm_dedup f).nodup_iff.2 (List.nodup_dedup _)

theorem mem_unique_iff {f : StopList} {word : String} :
    word ∈ f.unique ↔ ∃ w ∈ f.words, w ≠ "" ∧ f.unicode.lower w = word := by
  rw [(unique_perm_dedup f).mem_iff, List.mem_dedup, List.mem_map]
  simp [and_assoc]

/-- The text with one stop word masked. -/
def StopList.maskWord (f : StopList) (word : String) (text : List Char) : List Char :=
  f.substitute (wordBoundaryPattern f.unicode word) text

theorem maskProfanity_eq_run (f : StopList) (text : String) :
    (f.maskProfanity text).toList = run f.maskWord f.unique text.toList := by
  rw [maskProfanity_toList, StopList.patterns, Alphabet.maskAll, List.foldl_map]
  rfl

/-- Two words of one length can change places wherever one follows the other: in the text that is
left when all longer words and any others of their length have been masked, each as a whole, the two
mask alike in either order. -/
def StopList.TiesCommute (f : StopList) (text : String) : Prop :=
  KeysSwappable f.maskWord String.length f.unique text.toList

/-- Every stop list with the same words masks the text alike, in every process. -/
def StopList.OrderFree (f : StopList) (text : String) : Prop :=
  ∀ (words : List String) (order : SetOrder), words.Perm f.words →
    (StopList.mk f.unicode order words).maskProfanity text = f.maskProfanity text

/-- The stop list of the words longer than `n` and of those words of length `n` that are among
`ties`. -/
def StopList.stage (f : StopList) (n : ℕ) (ties : List String) : StopList :=
  { f with
    words := f.words.filter fun w =>
      n < (f.unicode.lower w).length ∨
        (f.unicode.lower w).length = n ∧ f.unicode.lower w ∈ ties }

theorem mem_stage_unique_iff {f : StopList} {n : ℕ} {ties : List String} {word : String} :
    word ∈ (f.stage n ties).unique ↔
      word ∈ f.unique ∧ (n < word.length ∨ word.length = n ∧ word ∈ ties) := by
  rw [mem_unique_iff, mem_unique_iff]
  constructor
  · rintro ⟨w, hw, hne, rfl⟩
    obtain ⟨hmem, hkept⟩ := List.mem_filter.1 hw
    exact ⟨⟨w, hmem, hne, rfl⟩, of_decide_eq_true hkept⟩
  · rintro ⟨⟨w, hmem, hne, rfl⟩, hkept⟩
    exact ⟨w, List.mem_filter.2 ⟨hmem, decide_eq_true hkept⟩, hne, rfl⟩

/-- Stop lists with the same words have them in orders that differ among words of one length. -/
theorem unique_perm_of_words {f g : StopList} (hu : g.unicode = f.unicode)
    (hwords : g.words.Perm f.words) : f.unique.Perm g.unique := by
  refine (List.perm_ext_iff_of_nodup (unique_nodup f) (unique_nodup g)).2 fun word => ?_
  rw [mem_unique_iff, mem_unique_iff, hu]
  exact exists_congr fun w => and_congr_left' hwords.symm.mem_iff

theorem orderFree_iff_run {f : StopList} {text : String} : f.OrderFree text ↔
    ∀ (words : List String) (order : SetOrder), words.Perm f.words →
      run f.maskWord (StopList.mk f.unicode order words).unique text.toList =
        run f.maskWord f.unique text.toList := by
  refine forall_congr' fun words => forall_congr' fun order => imp_congr_right fun _ => ?_
  rw [← String.toList_inj, maskProfanity_eq_run, maskProfanity_eq_run]
  rfl

theorem StopList.TiesCommute.orderFree {f : StopList} {text : String} (h : f.TiesCommute text) :
    f.OrderFree text := by
  refine orderFree_iff_run.2 fun words order hwords => ?_
  exact (KeysSwappable.run_perm h (unique_nodup f) (unique_sorted f) (unique_sorted _)
    (unique_perm_of_words (f := f) (g := ⟨f.unicode, order, words⟩) rfl hwords)).symm

/-- Neither does the order of a stage play a role. -/
theorem StopList.TiesCommute.stage_orderFree {f : StopList} {text : String} (h : f.TiesCommute text) (n : ℕ)
    (ties : List String) : (f.stage n ties).OrderFree text := by
  refine orderFree_iff_run.2 fun words order hwords => ?_
  have hperm := unique_perm_of_words (f := f.stage n ties) (g := ⟨f.unicode, order, words⟩) rfl
    hwords
  refine (KeysSwappable.run_stage h (unique_nodup f) (unique_sorted f) (unique_sorted _)
    (unique_sorted _) hperm (unique_nodup _) (n := n) ?_ ?_ ?_).symm
  · intro word hword
    rcases (mem_stage_unique_iff.1 hword).2 with hlt | ⟨heq, -⟩
    · exact Nat.le_of_lt hlt
    · exact Nat.le_of_eq heq.symm
  · exact fun word hword => (mem_stage_unique_iff.1 hword).1
  · exact fun word hword hlt => mem_stage_unique_iff.2 ⟨hword, Or.inl hlt⟩

/-- A process in which the set of these words is iterated in this order. -/
def SetOrder.taking (l : List String) : SetOrder where
  iterate s := if s.dedup.Perm l then l else s.dedup
  perm s := by
    split_ifs with h
    · exact h.symm
    · exact List.Perm.refl _

/-- Words that are sorted by length already stay in their order. -/
theorem unique_taking {f : StopList} {l : List String} (hl : l.Nodup)
    (hsorted : l.Pairwise fun p q => q.length ≤ p.length)
    (hmem : ∀ word, word ∈ l ↔ word ∈ f.unique) :
    (StopList.mk f.unicode (.taking l) f.words).unique = l := by
  have hperm : (((f.words.filter (· ≠ "")).map f.unicode.lower)).dedup.Perm l := by
    refine (List.perm_ext_iff_of_nodup (List.nodup_dedup _) hl).2 fun word => ?_
    rw [hmem, (unique_perm_dedup f).mem_iff]
  unfold StopList.unique
  simp only [SetOrder.taking, if_pos hperm]
  exact List.Pairwise.insertionSort_eq hsorted

theorem tiesCommute_of_stages {f : StopList} {text : String}
    (h : ∀ n ties, (f.stage n ties).OrderFree text) : f.TiesCommute text := by
  intro n
  rw [swappable_iff]
  intro m m' hperm hnodup hsub
  obtain ⟨longer, hlonger⟩ : ∃ longer, longer = f.unique.filter fun word => n < word.length :=
    ⟨_, rfl⟩
  rw [← hlonger]
  have htie : ∀ word ∈ m, word ∈ f.unique ∧ word.length = n := fun word hword => by
    simpa using List.mem_filter.1 (hsub hword)
  -- the stage of these words, in the two orders
  have htaken : ∀ u : List String, m.Perm u →
      (StopList.mk f.unicode (.taking (longer ++ u)) (f.stage n m).words).unique = longer ++ u := by
    intro u hu
    refine unique_taking (f := f.stage n m) ?_ ?_ ?_
    · refine List.nodup_append.2 ⟨hlonger ▸ (unique_nodup f).filter _, hu.nodup_iff.1 hnodup, ?_⟩
      rintro word hword other hother rfl
      have hlt := (List.mem_filter.1 (hlonger ▸ hword)).2
      have := (htie word (hu.mem_iff.2 hother)).2
      simp [this] at hlt
    · refine List.pairwise_append.2 ⟨hlonger ▸ (unique_sorted f).filter _, ?_, ?_⟩
      · refine List.pairwise_of_forall_mem_list fun p hp q hq => ?_
        rw [(htie p (hu.mem_iff.2 hp)).2, (htie q (hu.mem_iff.2 hq)).2]
      · intro p hp q hq
        have hlt := (List.mem_filter.1 (hlonger ▸ hp)).2
        rw [(htie q (hu.mem_iff.2 hq)).2]
        exact Nat.le_of_lt (of_decide_eq_true hlt)
    · intro word
      rw [mem_stage_unique_iff, List.mem_append, hlonger, List.mem_filter, ← hu.mem_iff,
        decide_eq_true_eq]
      constructor
      · rintro (⟨hmem, hlt⟩ | hword)
        · exact ⟨hmem, Or.inl hlt⟩
        · exact ⟨(htie word hword).1, Or.inr ⟨(htie word hword).2, hword⟩⟩
      · rintro ⟨hmem, hlt | ⟨-, hword⟩⟩
        · exact Or.inl ⟨hmem, hlt⟩
        · exact Or.inr hword
  have hfree := orderFree_iff_run.1 (h n m) (f.stage n m).words
  have hone := hfree (.taking (longer ++ m)) (List.Perm.refl _)
  have hother := hfree (.taking (longer ++ m')) (List.Perm.refl _)
  rw [← hother] at hone
  have hboth : run f.maskWord (longer ++ m) text.toList =
      run f.maskWord (longer ++ m') text.toList := by
    rw [← htaken m (List.Perm.refl m), ← htaken m' hperm]
    exact hone
  rwa [run_append, run_append] at hboth

/-- Every order of the words by length is the one of some process. -/
theorem orderFree_iff_orders {f : StopList} {text : String} : f.OrderFree text ↔
    ∀ l l' : List String, IsOrder String.length f.unique l → IsOrder String.length f.unique l' →
      run f.maskWord l text.toList = run f.maskWord l' text.toList := by
  rw [orderFree_iff_run]
  constructor
  · intro h l l' hl hl'
    have htaken : ∀ m, IsOrder String.length f.unique m →
        run f.maskWord m text.toList = run f.maskWord f.unique text.toList := by
      intro m hm
      have hunique : (StopList.mk f.unicode (.taking m) f.words).unique = m :=
        unique_taking (hm.1.nodup_iff.2 (unique_nodup f)) hm.2 fun _ => hm.1.mem_iff
      rw [← h f.words (.taking m) (List.Perm.refl _), hunique]
    rw [htaken l hl, htaken l' hl']
  · intro h words order hwords
    have hperm := unique_perm_of_words (f := f) (g := ⟨f.unicode, order, words⟩) rfl hwords
    exact h _ _ ⟨hperm.symm, unique_sorted _⟩ ⟨List.Perm.refl _, unique_sorted f⟩

/-- Wherever two words of one length follow each other in some order, the words behind them leave the
same text whichever of the two has been masked first. -/
def StopList.NeighboursAgree (f : StopList) (text : String) : Prop :=
  ∀ (done : List String) (p q : String) (rest : List String),
    IsOrder String.length f.unique (done ++ p :: q :: rest) → p.length = q.length →
      run f.maskWord (done ++ p :: q :: rest) text.toList =
        run f.maskWord (done ++ q :: p :: rest) text.toList

theorem tiesCommute_iff_sublists {f : StopList} {text : String} : f.TiesCommute text ↔
    ∀ n ∈ f.unique.map String.length, ∀ done ∈ (f.unique.filter fun w => w.length = n).sublists,
      ∀ p ∈ f.unique.filter fun w => w.length = n, ∀ q ∈ f.unique.filter fun w => w.length = n,
        p ∉ done → q ∉ done → p ≠ q →
          f.maskWord q (f.maskWord p (run f.maskWord done
            (run f.maskWord (f.unique.filter fun w => n < w.length) text.toList))) =
          f.maskWord p (f.maskWord q (run f.maskWord done
            (run f.maskWord (f.unique.filter fun w => n < w.length) text.toList))) := by
  constructor
  · exact fun h n _ => (swappable_iff_sublists ((unique_nodup f).filter _)).1 (h n)
  · intro h n
    rw [swappable_iff_sublists ((unique_nodup f).filter _)]
    intro done hdone p hp
    have hlen : p.length = n := by simpa using (List.mem_filter.1 hp).2
    exact h n (hlen ▸ List.mem_map_of_mem (List.mem_filter.1 hp).1) done hdone p hp

instance (f : StopList) (text : String) : Decidable (f.TiesCommute text) :=
  decidable_of_iff _ tiesCommute_iff_sublists.symm

section SpacedWords

end SpacedWords

end Parrot
