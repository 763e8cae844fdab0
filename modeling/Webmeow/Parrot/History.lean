import Mathlib.Data.Rat.Defs
import Mathlib.Algebra.Order.Ring.Unbundled.Rat
import Mathlib.Data.List.Sort
import Webmeow.Lib.Keyed

/-!
# The chat history of the parrot

The messages of the chat API and `ConversationStore` of `history.py`. A store is a `dict` from guest
ids to conversations, here the list of its entries in insertion order. Clock values are rationals.
-/

namespace Parrot

/-- A call of a tool. The name is `None` when a stream never sent it. -/
structure ToolCall where
  /-- `id` -/
  id : String
  /-- `function.name` -/
  name : Option String
  /-- `function.arguments` -/
  argumentsStr : String
deriving DecidableEq, Repr

/-- A message of the chat API. The `tool_calls` of an assistant message are `none` when the key is
absent, which is not the same as an empty list. -/
inductive Message where
  /-- The system prompt. -/
  | system (content : String)
  /-- A message of the guest. -/
  | user (content : String) (censored : Bool)
  /-- A message of the model. -/
  | assistant (content : Option String) (toolCalls : Option (List ToolCall))
  /-- The result of a tool call. -/
  | tool (toolCallId : String) (content : String)
deriving DecidableEq, Repr

/-- The message is one of the guest. -/
def Message.isUser : Message → Bool
  | .user _ _ => true
  | _ => false

/-- `role == "assistant" and "tool_calls" not in m` -/
def Message.isReply : Message → Bool
  | .assistant _ none => true
  | _ => false

/-- `role in ("user", "assistant") and "tool_calls" not in m` -/
def Message.isVisible : Message → Bool
  | .user _ _ => true
  | .assistant _ none => true
  | _ => false

/-- The conversation of a guest. -/
structure Conversation where
  /-- The guest. -/
  guestId : String
  /-- The messages. -/
  messages : List Message
  /-- When it was last used. -/
  lastAccessed : ℚ
deriving DecidableEq, Repr

/-- The store of the conversations. -/
structure ConversationStore where
  /-- How many visible messages are kept. -/
  maxMessages : Int
  /-- How long a conversation that is not used is kept. -/
  ttl : Int
  /-- How many conversations are kept. -/
  maxConversations : Int
  /-- The conversations. -/
  conversations : List Conversation
  /-- A guest has one conversation. -/
  guestKey : (conversations.map Conversation.guestId).Nodup

/-- `ConversationStore.__init__` -/
def ConversationStore.init (maxMessages ttlSeconds maxConversations : Int) :
    ConversationStore where
  maxMessages := maxMessages
  ttl := ttlSeconds
  maxConversations := maxConversations
  conversations := []
  guestKey := List.nodup_nil

/-- The conversation of a guest, if there is one. -/
def ConversationStore.get (store : ConversationStore) (guestId : String) : Option Conversation :=
  store.conversations.find? fun c => c.guestId = guestId

/-- Change the entry of `guestId`, if there is one; `f` keeps the key. -/
def ConversationStore.modify (store : ConversationStore) (guestId : String)
    (f : Conversation → Conversation) (hf : ∀ c, (f c).guestId = c.guestId) :
    ConversationStore where
  maxMessages := store.maxMessages
  ttl := store.ttl
  maxConversations := store.maxConversations
  conversations := store.conversations.map fun c => if c.guestId = guestId then f c else c
  guestKey := by
    have h : (Conversation.guestId ∘ fun c => if c.guestId = guestId then f c else c) =
        Conversation.guestId := by
      funext c
      simp only [Function.comp_apply]
      split_ifs
      · exact hf c
      · rfl
    rw [List.map_map, h]
    exact store.guestKey

/-- Keep the entries that satisfy `p`. -/
def ConversationStore.retain (store : ConversationStore) (p : Conversation → Bool) :
    ConversationStore where
  maxMessages := store.maxMessages
  ttl := store.ttl
  maxConversations := store.maxConversations
  conversations := store.conversations.filter p
  guestKey := store.guestKey.sublist (List.filter_sublist.map _)

/-- Refresh the time of the last access. -/
def Conversation.touch (now : ℚ) (c : Conversation) : Conversation :=
  { c with lastAccessed := now }

/-- The messages of a guest, whose conversation is used. -/
def ConversationStore.getMessages (store : ConversationStore) (guestId : String) (now : ℚ) :
    ConversationStore × List Message :=
  match store.get guestId with
  | none => (store, [])
  | some entry =>
    (store.modify guestId (Conversation.touch now) fun _ => rfl, entry.messages)

/-- The visible messages of a guest. -/
def ConversationStore.getVisible (store : ConversationStore) (guestId : String) : List Message :=
  match store.get guestId with
  | none => []
  | some entry => entry.messages.filter Message.isVisible

/-- The inner loop of `_trim`: drop messages up to the next user message and count the replies
among them down. -/
def dropToUser : List Message → Int → List Message × Int
  | [], count => ([], count)
  | m :: ms, count =>
    if m.isUser then (m :: ms, count)
    else dropToUser ms (if m.isReply then count - 1 else count)

/-- The body of the outer loop of `_trim` on a non-empty list. -/
def dropTurn (m : Message) (ms : List Message) (count : Int) : List Message × Int :=
  if m.isUser then dropToUser ms (count - 1) else dropToUser (m :: ms) count

/-- The outer loop of `_trim`. -/
def trimLoop (maxMessages : Int) : ℕ → List Message → Int → List Message
  | 0, msgs, _ => msgs
  | _ + 1, [], _ => []
  | fuel + 1, m :: ms, count =>
    if maxMessages < count then
      trimLoop maxMessages fuel (dropTurn m ms count).1 (dropTurn m ms count).2
    else m :: ms

/-- `_trim`; an iteration drops at least one message, so the length is enough fuel. -/
def trim (maxMessages : Int) (msgs : List Message) : List Message :=
  trimLoop maxMessages msgs.length msgs (msgs.countP Message.isVisible)

/-- The entry of `guestId`, created empty if it is missing. -/
def ConversationStore.setDefault (store : ConversationStore) (guestId : String) (now : ℚ) :
    ConversationStore :=
  if h : guestId ∈ store.conversations.map Conversation.guestId then store
  else
    { maxMessages := store.maxMessages
      ttl := store.ttl
      maxConversations := store.maxConversations
      conversations := store.conversations ++ [⟨guestId, [], now⟩]
      guestKey := Keyed.nodup_concat store.guestKey h }

/-- What `append` does to the entry. -/
def Conversation.extend (maxMessages : Int) (messages : List Message) (now : ℚ)
    (c : Conversation) : Conversation where
  guestId := c.guestId
  messages := trim maxMessages (c.messages ++ messages)
  lastAccessed := now

/-- The conversation with new messages, without the oldest turns. -/
def ConversationStore.append (store : ConversationStore) (guestId : String)
    (messages : List Message) (now : ℚ) : ConversationStore :=
  (store.setDefault guestId now).modify guestId
    (Conversation.extend store.maxMessages messages now) fun _ => rfl

/-- The guests whose conversations `cleanup` evicts beyond the expired ones: the least recently
accessed, as many as there are too many. -/
def ConversationStore.overflow (store : ConversationStore) : List String :=
  if store.maxConversations < store.conversations.length then
    ((store.conversations.insertionSort fun a b => a.lastAccessed ≤ b.lastAccessed).take
      (store.conversations.length - store.maxConversations).toNat).map Conversation.guestId
  else []

/-- The store without what has expired or is too much. -/
def ConversationStore.cleanup (store : ConversationStore) (now : ℚ) : ConversationStore :=
  let fresh := store.retain fun c => decide (now - c.lastAccessed ≤ store.ttl)
  fresh.retain fun c => decide (c.guestId ∉ fresh.overflow)

end Parrot
