import Mathlib.Data.List.Basic
import Mathlib.Data.Option.Basic

/-!
# Lists with groups of answers

Some items of a list open a group and name the tags that have to be answered, some answer a tag and
the others are plain. In a grouped list the answers follow their opening item at once, one for each
tag and in order. `pending` reads such a list from left to right and keeps the tags that still have
to be answered, so a list can be cut anywhere and the two parts checked one after the other.
-/

namespace Groups

variable {α τ : Type*}

/-- The part an item plays. -/
inductive Kind (τ : Type*) where
  /-- The element stands alone. -/
  | plain
  /-- The element is answered by one element for each tag. -/
  | opens (tags : List τ)
  /-- The element answers a tag. -/
  | answers (tag : τ)
deriving DecidableEq

/-- Every opening item is followed by exactly one answer for each of its tags, in order, before any
other item, and nothing else is an answer. -/
inductive Grouped (kind : α → Kind τ) : List α → Prop where
  /-- The empty list is grouped. -/
  | nil : Grouped kind []
  /-- A plain element may come first. -/
  | plain {a : α} {as : List α} (h : kind a = .plain) (has : Grouped kind as) :
      Grouped kind (a :: as)
  /-- An element with its answers may come first. -/
  | group {a : α} {tags : List τ} {answers as : List α} (h : kind a = .opens tags)
      (hans : answers.map kind = tags.map .answers) (has : Grouped kind as) :
      Grouped kind (a :: (answers ++ as))

/-- The answers before one of them, and the tag that it answers. -/
theorem answers_split {kind : α → Kind τ} {tags : List τ} {pre rest : List α} {b : α} {t : τ}
    (h : (pre ++ b :: rest).map kind = tags.map .answers) (hb : kind b = .answers t) :
    (∀ r ∈ pre, ∃ u, kind r = .answers u) ∧ tags[pre.length]? = some t := by
  constructor
  · intro r hr
    have hmem : kind r ∈ tags.map Kind.answers := by
      rw [← h]
      exact List.mem_map_of_mem (List.mem_append_left _ hr)
    obtain ⟨u, -, hu⟩ := List.mem_map.1 hmem
    exact ⟨u, hu.symm⟩
  · have hat : (tags.map Kind.answers)[pre.length]? = some (.answers t) := by
      rw [← h, List.getElem?_map, List.getElem?_append_right (Nat.le_refl _), Nat.sub_self,
        List.getElem?_cons_zero, Option.map_some, hb]
    rw [List.getElem?_map, Option.map_eq_some_iff] at hat
    obtain ⟨u, hu, he⟩ := hat
    cases he
    exact hu

/-- Every answer stands behind the item that opened its group and earlier answers to it, and it
answers the next tag. -/
theorem Grouped.opening {kind : α → Kind τ} {l : List α} (h : Grouped kind l) {pre post : List α}
    {b : α} {t : τ} (hl : l = pre ++ b :: post) (hb : kind b = .answers t) :
    ∃ pre' a tags between, pre = pre' ++ a :: between ∧ kind a = .opens tags ∧
      (∀ r ∈ between, ∃ u, kind r = .answers u) ∧ tags[between.length]? = some t := by
  induction h generalizing pre with
  | nil => exact absurd hl (by simp)
  | @plain a as ha _ ih =>
    cases pre with
    | nil =>
      obtain ⟨rfl, -⟩ := List.cons.inj hl
      rw [ha] at hb
      cases hb
    | cons c pre =>
      rw [List.cons_append] at hl
      obtain ⟨rfl, hl'⟩ := List.cons.inj hl
      obtain ⟨pre', a', tags, between, rfl, hopens, hbetween, ht⟩ := ih hl'
      exact ⟨a :: pre', a', tags, between, rfl, hopens, hbetween, ht⟩
  | @group a tags answers as ha hans _ ih =>
    cases pre with
    | nil =>
      obtain ⟨rfl, -⟩ := List.cons.inj hl
      rw [ha] at hb
      cases hb
    | cons c pre =>
      rw [List.cons_append] at hl
      obtain ⟨rfl, hl'⟩ := List.cons.inj hl
      rcases List.append_eq_append_iff.1 hl' with ⟨rest, hpre, has⟩ | ⟨rest, hanswers, has⟩
      · -- the answer is behind this group
        obtain ⟨pre', a', tags', between, hrest, hopens, hbetween, ht⟩ := ih has
        refine ⟨a :: (answers ++ pre'), a', tags', between, ?_, hopens, hbetween, ht⟩
        rw [hpre, hrest, List.cons_append, List.append_assoc]
      · cases rest with
        | nil =>
          obtain ⟨pre', a', tags', between, hnil, -⟩ := @ih [] has.symm
          simp at hnil
        | cons b' rest =>
          obtain ⟨rfl, -⟩ := List.cons.inj has
          rw [hanswers] at hans
          obtain ⟨hbetween, ht⟩ := answers_split hans hb
          exact ⟨[], a, tags, pre, rfl, ha, hbetween, ht⟩

variable [DecidableEq τ]

/-- The tags to be answered after one more item; `none` if the item is not allowed here. -/
def next : List τ → Kind τ → Option (List τ)
  | [], .plain => some []
  | [], .opens tags => some tags
  | tag :: tags, .answers t => if t = tag then some tags else none
  | _, _ => none

variable (kind : α → Kind τ)

/-- The tags that are still to be answered. -/
def pending : List τ → List α → Option (List τ)
  | tags, [] => some tags
  | tags, a :: as => (next tags (kind a)).bind fun tags' => pending tags' as

variable {kind} {tags : List τ} {as bs : List α}

@[simp]
theorem pending_nil : pending kind tags [] = some tags := rfl

theorem pending_append :
    pending kind tags (as ++ bs) = (pending kind tags as).bind fun ts => pending kind ts bs := by
  induction as generalizing tags with
  | nil => rfl
  | cons a as ih =>
    simp only [List.cons_append, pending]
    cases next tags (kind a) with
    | none => rfl
    | some ts => exact ih

/-- The tags after one more item at the end. -/
theorem pending_concat {ts : List τ} (h : pending kind tags as = some ts) (a : α) :
    pending kind tags (as ++ [a]) = next ts (kind a) := by
  rw [pending_append, h]
  simp only [Option.bind_some, pending]
  exact Option.bind_fun_some _

/-- The answers to the first tags leave the others. -/
theorem pending_answers {answers : List α} {ts us : List τ}
    (h : answers.map kind = ts.map .answers) :
    pending kind (ts ++ us) answers = some us := by
  induction ts generalizing answers with
  | nil =>
    rw [List.map_nil, List.map_eq_nil_iff] at h
    rw [h, List.nil_append, pending_nil]
  | cons t ts ih =>
    obtain ⟨b, bs, rfl, hb, hbs⟩ := List.map_eq_cons_iff.1 h
    simp only [List.cons_append, pending, hb, next, if_true, Option.bind_some]
    exact ih hbs

/-- Tags that are used up in the end were answered first. -/
theorem answers_of_pending {ts : List τ} (h : pending kind ts as = some []) :
    ∃ answers bs, as = answers ++ bs ∧ answers.map kind = ts.map .answers ∧
      pending kind [] bs = some [] := by
  induction ts generalizing as with
  | nil => exact ⟨[], as, rfl, rfl, h⟩
  | cons t ts ih =>
    cases as with
    | nil => cases h
    | cons a as =>
      simp only [pending] at h
      cases hk : kind a with
      | plain => rw [hk] at h; cases h
      | opens _ => rw [hk] at h; cases h
      | answers u =>
        rw [hk] at h
        simp only [next] at h
        split_ifs at h with hu
        · obtain ⟨answers, bs, rfl, hans, hbs⟩ := ih h
          exact ⟨a :: answers, bs, rfl, by rw [List.map_cons, List.map_cons, hk, hu, hans], hbs⟩
        · cases h

/-- Nothing is left to be answered in a grouped list. -/
theorem Grouped.pending_eq (h : Grouped kind as) : pending kind [] as = some [] := by
  induction h with
  | nil => rfl
  | plain h _ ih =>
    simp only [pending, h, next, Option.bind_some]
    exact ih
  | @group a tags answers as h hans _ ih =>
    simp only [pending, h, next, Option.bind_some]
    rw [pending_append, ← List.append_nil tags, pending_answers hans]
    exact ih

/-- **Reading a grouped list** leaves nothing to be answered, and only a grouped list does. -/
theorem grouped_iff_pending : Grouped kind as ↔ pending kind [] as = some [] := by
  refine ⟨Grouped.pending_eq, fun h => ?_⟩
  -- a group takes several items at once, so the induction is on a bound of the length
  induction hn : as.length using Nat.strongRecOn generalizing as with
  | _ n ih =>
    cases as with
    | nil => exact .nil
    | cons a as =>
      simp only [pending] at h
      cases hk : kind a with
      | plain =>
        rw [hk] at h
        exact .plain hk (ih as.length (by rw [← hn]; simp) h rfl)
      | answers u => rw [hk] at h; cases h
      | opens ts =>
        rw [hk] at h
        obtain ⟨answers, bs, rfl, hans, hbs⟩ := answers_of_pending h
        have hlt : bs.length < n := by
          rw [← hn]
          simp only [List.length_cons, List.length_append]
          omega
        exact .group hk hans (ih bs.length hlt hbs rfl)

instance : Decidable (Grouped kind as) := decidable_of_iff _ grouped_iff_pending.symm

theorem Grouped.append (ha : Grouped kind as) (hb : Grouped kind bs) : Grouped kind (as ++ bs) := by
  rw [grouped_iff_pending, pending_append, ha.pending_eq]
  exact hb.pending_eq

theorem Grouped.concat {a : α} (ha : Grouped kind as) (h : kind a = .plain) :
    Grouped kind (as ++ [a]) :=
  ha.append (.plain h .nil)

/-- A grouped list may be cut before a plain item. -/
theorem Grouped.drop {a : α} (h : Grouped kind (as ++ a :: bs)) (ha : kind a = .plain) :
    Grouped kind (a :: bs) := by
  rw [grouped_iff_pending] at h ⊢
  rw [pending_append, Option.bind_eq_some_iff] at h
  obtain ⟨ts, -, hts⟩ := h
  -- a plain item is only allowed when nothing is pending
  cases ts with
  | nil => exact hts
  | cons t ts =>
    simp only [pending, ha] at hts
    cases hts

end Groups
