import Webmeow.Parrot.History
import Webmeow.Lib.Eviction

/-!
# What a clean-up keeps

`cleanup` drops the conversations that are too old, and of the others the oldest, as many as there are
too many.
-/

namespace Parrot

open Eviction

/-- The conversations that are not too old for the store. -/
def ConversationStore.fresh (store : ConversationStore) (now : ℚ) : List Conversation :=
  store.conversations.filter fun c => decide (now - c.lastAccessed ≤ store.ttl)

/-- How many of `count` conversations are too many. -/
def ConversationStore.excess (store : ConversationStore) (count : ℕ) : ℕ :=
  (count - store.maxConversations).toNat

theorem fresh_guestKey (store : ConversationStore) (now : ℚ) :
    ((store.fresh now).map Conversation.guestId).Nodup :=
  store.guestKey.sublist (List.filter_sublist.map _)

/-- The second pass of `cleanup` is an eviction: without an overflow it drops nothing. -/
theorem cleanup_conversations (store : ConversationStore) (now : ℚ) :
    (store.cleanup now).conversations =
      evict Conversation.guestId Conversation.lastAccessed (store.excess (store.fresh now).length)
        (store.fresh now) := by
  have hoverflow : (store.retain fun c => decide (now - c.lastAccessed ≤ store.ttl)).overflow =
      ((byRank Conversation.lastAccessed (store.fresh now)).take
        (store.excess (store.fresh now).length)).map Conversation.guestId := by
    unfold ConversationStore.overflow
    split_ifs with h
    · rfl
    · have hnone : store.excess (store.fresh now).length = 0 := by
        have hle : ((store.fresh now).length : ℤ) ≤ store.maxConversations := not_lt.1 h
        unfold ConversationStore.excess
        omega
      rw [hnone]
      rfl
  show (store.fresh now).filter _ = _
  rw [hoverflow]
  rfl

/-- **What a clean-up keeps**: the conversations that are left are some of those that are not too old,
each as it was; they are as many as there are of those, or as the store may hold if there are more; and
none that was dropped although it was not too old was accessed later than one that is left. A negative
capacity counts as none. -/
theorem cleanup_keeps_freshest (store : ConversationStore) (now : ℚ) :
    (store.cleanup now).conversations.Sublist (store.fresh now) ∧
      ((store.cleanup now).conversations.length : ℤ) =
        min (max 0 store.maxConversations) (store.fresh now).length ∧
      ∀ c ∈ store.fresh now, c ∉ (store.cleanup now).conversations →
        ∀ k ∈ (store.cleanup now).conversations, c.lastAccessed ≤ k.lastAccessed := by
  rw [cleanup_conversations]
  refine ⟨List.filter_sublist, ?_, fun c hc hout k hk => ?_⟩
  · rw [evict_length (fresh_guestKey store now)]
    unfold ConversationStore.excess
    omega
  · exact rank_le_of_evicted (fresh_guestKey store now) hc hout hk

/-- One conversation in a store whose capacity is negative. -/
def negativeStore : ConversationStore where
  maxMessages := 20
  ttl := 1800
  maxConversations := -1
  conversations := [⟨"kiki-smith", [], 0⟩]
  guestKey := List.nodup_singleton _

/-- With a negative capacity everything is dropped, and a number of conversations is never negative. -/
theorem negative_capacity_drops_all :
    (negativeStore.cleanup 1).conversations = [] ∧ (negativeStore.fresh 1).length = 1 ∧
      ((negativeStore.cleanup 1).conversations.length : ℤ) ≠
        min negativeStore.maxConversations (negativeStore.fresh 1).length := by
  decide +kernel

end Parrot
