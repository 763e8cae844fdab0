import Webmeow.Parrot.Dialogue
import Webmeow.Lib.Assembly

/-!
# Tool calls put together from a stream

`chat_stream` collects the pieces of the tool calls by index. However a completion is split into
chunks, the calls it ends up with are those of the completion, in order.
-/

namespace Parrot

open Assembly

/-! ## Joining -/

theorem join_eq_append (parts : List String) (s : String) :
    parts.foldl (· ++ ·) s = s ++ join parts := by
  unfold join
  induction parts generalizing s with
  | nil => exact String.append_empty.symm
  | cons p parts ih => rw [List.foldl_cons, List.foldl_cons, ih, ih ("" ++ p), String.empty_append,
      String.append_assoc]

@[simp]
theorem join_nil : join [] = "" := rfl

@[simp]
theorem join_cons (p : String) (parts : List String) : join (p :: parts) = p ++ join parts := by
  rw [join, List.foldl_cons, join_eq_append, String.empty_append]

@[simp]
theorem join_append (parts parts' : List String) :
    join (parts ++ parts') = join parts ++ join parts' := by
  rw [join, List.foldl_append, join_eq_append]
  rfl

theorem truthy_some {s : String} (h : s ≠ "") : truthy (some s) = some s :=
  Option.filter_some_pos (decide_eq_true h)

theorem truthy_eq_some {s : Option String} {t : String} (h : truthy s = some t) :
    s = some t ∧ t ≠ "" := by
  obtain ⟨hs, ht⟩ := Option.filter_eq_some_iff.1 h
  exact ⟨hs, of_decide_eq_true ht⟩

theorem getD_of_truthy_none {s : Option String} (h : truthy s = none) : s.getD "" = "" := by
  cases s with
  | none => rfl
  | some t =>
    show t = ""
    by_contra ht
    rw [truthy_some ht] at h
    cases h

theorem truthy_getD (s : Option String) : truthy (some (s.getD "")) = truthy s := by
  cases s with
  | none => rfl
  | some t => rfl

/-! ## Fragments -/

theorem feedCalls_eq (ds : List CallDelta) :
    feedCalls [] ds =
      assemble CallDelta.index Fragment.index (fun i => ⟨i, none, none, ""⟩) Fragment.feed ds := rfl

theorem foldl_feed (ds : List CallDelta) (f : Fragment) :
    ds.foldl Fragment.feed f =
      ⟨f.index, (ds.map CallDelta.id).foldl (fun acc s => (truthy s).or acc) f.id,
        (ds.map CallDelta.name).foldl (fun acc s => (truthy s).or acc) f.name,
        f.args ++ join (ds.map fun d => d.arguments.getD "")⟩ := by
  induction ds generalizing f with
  | nil => simp
  | cons d ds ih =>
    rw [List.foldl_cons, ih]
    simp [Fragment.feed, String.append_assoc]

/-- What was sent whole is what the slot ends up with. -/
theorem foldl_sentWhole {value : String} (hne : value ≠ "") {sent : List (Option String)}
    (h : ∀ s ∈ sent, truthy s = none ∨ s = some value) {acc : Option String}
    (hacc : acc = none ∨ acc = some value) (hsent : some value ∈ sent ∨ acc = some value) :
    sent.foldl (fun acc s => (truthy s).or acc) acc = some value := by
  induction sent generalizing acc with
  | nil =>
    rcases hsent with hsent | hsent
    · cases hsent
    · exact hsent
  | cons s sent ih =>
    rw [List.foldl_cons]
    have hrest : ∀ s ∈ sent, truthy s = none ∨ s = some value :=
      fun s' hs' => h s' (List.mem_cons_of_mem s hs')
    by_cases hs : s = some value
    · rw [hs, truthy_some hne]
      exact ih hrest (Or.inr rfl) (Or.inr rfl)
    · have hnone : truthy s = none := (h s List.mem_cons_self).resolve_right hs
      rw [hnone, Option.none_or]
      refine ih hrest hacc ?_
      rcases hsent with hsent | hsent
      · exact Or.inl ((List.mem_cons.1 hsent).resolve_left fun he => hs he.symm)
      · exact Or.inr hsent

section Splits

variable {c : Completion} {chunks : List (Option Delta)}

/-- The slots are the indices of the calls. -/
theorem Splits.index_iff (h : Splits c chunks) (i : Int) :
    i ∈ (piecesOf chunks).map CallDelta.index ↔ ∃ k < c.calls.length, i = (k : ℕ) := by
  constructor
  · intro hi
    obtain ⟨d, hd, rfl⟩ := List.mem_map.1 hi
    exact h.index d hd
  · rintro ⟨k, hk, rfl⟩
    -- the piece that has the id
    obtain ⟨d, hd, -⟩ := List.mem_map.1 (h.id k c.calls[k] (List.getElem?_eq_getElem hk)).1
    obtain ⟨hmem, hidx⟩ := List.mem_filter.1 hd
    exact List.mem_map.2 ⟨d, hmem, of_decide_eq_true hidx⟩

/-- A slot holds the call of its index. -/
theorem Splits.slot_toCall (h : Splits c chunks) (hc : c.WellFormed) {k : ℕ} {call : ToolCall}
    (hk : c.calls[k]? = some call) :
    (slot CallDelta.index (fun i => ⟨i, none, none, ""⟩) Fragment.feed (piecesOf chunks)
      (k : ℕ)).toCall = call := by
  have hcall : call ∈ c.calls := List.mem_of_getElem? hk
  obtain ⟨name, hname, hne⟩ := hc.name call hcall
  have hid := h.id k call hk
  have hsent := h.name k call name hk hname
  unfold slot
  change ((piecesAt chunks k).foldl Fragment.feed _).toCall = call
  rw [foldl_feed, foldl_sentWhole (hc.id call hcall) hid.2 (Or.inl rfl) (Or.inl hid.1),
    foldl_sentWhole hne hsent.2 (Or.inl rfl) (Or.inl hsent.1), h.arguments k call hk]
  cases call
  subst hname
  simp [Fragment.toCall]

/-- **Reassembly**: the calls that the stream ends up with are those of the completion. -/
theorem Splits.callsOf_eq (h : Splits c chunks) (hc : c.WellFormed) :
    callsOf (feedCalls [] (piecesOf chunks)) = c.calls := by
  have hkey : ∀ i : Int, (Fragment.mk i none none "").index = i := fun _ => rfl
  have hfeed : ∀ (f : Fragment) (d : CallDelta), (f.feed d).index = f.index := fun _ _ => rfl
  unfold callsOf
  rw [feedCalls_eq, sort_assemble hkey hfeed h.index_iff, List.map_map]
  refine List.ext_getElem? fun k => ?_
  rw [List.getElem?_map]
  by_cases hk : k < c.calls.length
  · rw [List.getElem?_range hk, List.getElem?_eq_getElem hk]
    exact congrArg some (h.slot_toCall hc (List.getElem?_eq_getElem hk))
  · rw [List.getElem?_eq_none (by simpa using hk), List.getElem?_eq_none (by simpa using hk)]
    rfl

/-- There are fragments exactly if there are calls. -/
theorem Splits.isEmpty_eq (h : Splits c chunks) (hc : c.WellFormed) :
    (feedCalls [] (piecesOf chunks)).isEmpty = c.calls.isEmpty := by
  have hlen := congrArg List.length (h.callsOf_eq hc)
  rw [callsOf, List.length_map, List.length_insertionSort] at hlen
  rw [Bool.eq_iff_iff, List.isEmpty_iff_length_eq_zero, List.isEmpty_iff_length_eq_zero, hlen]

end Splits

end Parrot
