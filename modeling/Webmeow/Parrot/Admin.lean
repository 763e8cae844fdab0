import Webmeow.Lib.Counts
import Webmeow.Parrot.Chat
import Webmeow.Parrot.Tools

/-!
# The admin reads of the parrot

`admin.py` over a snapshot of the store: the summary of a conversation, the metrics of all of them,
the list of rows and the transcript of one. A `dict` of counts is the list of its items in insertion
order.
-/

namespace Parrot

/-- What the reads use of other modules: `contains_mask`, and `json.loads`, which is `none` when it
raises a `ValueError`. -/
structure AdminEnv where
  /-- `profanity.contains_mask` -/
  containsMask : String → Bool
  /-- `json.loads`, `none` if it raises an exception. -/
  loads : String → Option Json

/-! ## Errors in tool results -/

mutual

/-- `_has_error_marker` -/
def hasErrorMarker : Json → Bool
  | .obj fields => fields.any (fun p => p.1 = "error") || anyFieldHasError fields
  | .arr items => anyItemHasError items
  | _ => false

/-- Some item has an error marker. -/
def anyItemHasError : List Json → Bool
  | [] => false
  | v :: vs => hasErrorMarker v || anyItemHasError vs

/-- Some value has an error marker. -/
def anyFieldHasError : List (String × Json) → Bool
  | [] => false
  | (_, v) :: ps => hasErrorMarker v || anyFieldHasError ps

end

/-- The content of a tool message has an error marker. -/
def AdminEnv.toolResultIsError (env : AdminEnv) (content : String) : Bool :=
  match env.loads content with
  | none => false
  | some parsed => hasErrorMarker parsed

/-! ## `summarize_conversation` -/

/-- `counts[name] = counts.get(name, 0) + n` -/
def addCount (counts : List (String × ℕ)) (name : String) (n : ℕ) : List (String × ℕ) :=
  Counts.add counts name n

/-- `(tc.get("function") or {}).get("name") or "unknown"` -/
def ToolCall.label (call : ToolCall) : String := (truthy call.name).getD "unknown"

/-- The counters while the messages are read. -/
structure Tally where
  /-- `turns` -/
  turns : ℕ
  /-- `censored_count` -/
  censoredCount : ℕ
  /-- `assistant_turns` -/
  assistantTurns : ℕ
  /-- `tool_calls_by_name` -/
  toolCallsByName : List (String × ℕ)
  /-- `tool_calls_total` -/
  toolCallsTotal : ℕ
  /-- `tool_errors` -/
  toolErrors : ℕ
  /-- `fallback_count` -/
  fallbackCount : ℕ
deriving DecidableEq

/-- One more tool call. -/
def Tally.call (t : Tally) (call : ToolCall) : Tally :=
  { t with
    toolCallsByName := addCount t.toolCallsByName call.label 1
    toolCallsTotal := t.toolCallsTotal + 1 }

/-- One round of the loop. -/
def Tally.read (env : AdminEnv) (t : Tally) : Message → Tally
  | .system _ => t
  | .user content censored =>
    { t with
      turns := t.turns + 1
      censoredCount := t.censoredCount + if censored || env.containsMask content then 1 else 0 }
  | .assistant _ (some (call :: calls)) => (call :: calls).foldl Tally.call t
  -- an empty list of calls is false
  | .assistant content _ =>
    { t with
      assistantTurns := t.assistantTurns + 1
      fallbackCount := t.fallbackCount + if content = some FALLBACK then 1 else 0 }
  | .tool _ content =>
    { t with toolErrors := t.toolErrors + if env.toolResultIsError content then 1 else 0 }

/-- The summary of a conversation. -/
structure Summary where
  /-- `turns` -/
  turns : ℕ
  /-- `censored_count` -/
  censoredCount : ℕ
  /-- `total_messages` -/
  totalMessages : ℕ
  /-- `assistant_turns` -/
  assistantTurns : ℕ
  /-- `tool_calls_by_name` -/
  toolCallsByName : List (String × ℕ)
  /-- `tool_calls_total` -/
  toolCallsTotal : ℕ
  /-- `tool_errors` -/
  toolErrors : ℕ
  /-- `fallback_count` -/
  fallbackCount : ℕ
  /-- `has_censored` -/
  hasCensored : Bool
  /-- `has_fallback` -/
  hasFallback : Bool
  /-- `has_tool_error` -/
  hasToolError : Bool
deriving DecidableEq

/-- The counts of one pass over the messages. -/
def summarizeConversation (env : AdminEnv) (messages : List Message) : Summary :=
  let t := messages.foldl (Tally.read env) ⟨0, 0, 0, [], 0, 0, 0⟩
  { turns := t.turns
    censoredCount := t.censoredCount
    totalMessages := messages.length
    assistantTurns := t.assistantTurns
    toolCallsByName := t.toolCallsByName
    toolCallsTotal := t.toolCallsTotal
    toolErrors := t.toolErrors
    fallbackCount := t.fallbackCount
    hasCensored := decide (0 < t.censoredCount)
    hasFallback := decide (0 < t.fallbackCount)
    hasToolError := decide (0 < t.toolErrors) }

/-! ## `build_metrics` and `list_conversations` -/

/-- `snapshot`: copies of all entries; no access time is refreshed. -/
def ConversationStore.snapshot (store : ConversationStore) : ConversationStore × List Conversation :=
  (store, store.conversations)

/-- `peek`: a copy of one entry; its access time is not refreshed. -/
def ConversationStore.peek (store : ConversationStore) (guestId : String) :
    ConversationStore × Option Conversation :=
  (store, store.get guestId)

/-- The metrics of all conversations. -/
structure Metrics where
  /-- `total_conversations` -/
  totalConversations : ℕ
  /-- `max_conversations` -/
  maxConversations : Int
  /-- `total_messages` -/
  totalMessages : ℕ
  /-- `total_user_turns` -/
  totalUserTurns : ℕ
  /-- `total_assistant_turns` -/
  totalAssistantTurns : ℕ
  /-- `tool_calls_total` -/
  toolCallsTotal : ℕ
  /-- `tool_calls_by_name` -/
  toolCallsByName : List (String × ℕ)
  /-- `tool_errors_total` -/
  toolErrorsTotal : ℕ
  /-- `fallback_total` -/
  fallbackTotal : ℕ
  /-- `censored_messages_total` -/
  censoredMessagesTotal : ℕ
  /-- `conversations_with_fallback` -/
  conversationsWithFallback : ℕ
  /-- `conversations_with_tool_error` -/
  conversationsWithToolError : ℕ
  /-- `conversations_with_censored` -/
  conversationsWithCensored : ℕ

/-- One round of the loop over the snapshot. -/
def Metrics.add (t : Metrics) (s : Summary) : Metrics :=
  { t with
    totalMessages := t.totalMessages + s.totalMessages
    totalUserTurns := t.totalUserTurns + s.turns
    totalAssistantTurns := t.totalAssistantTurns + s.assistantTurns
    toolCallsByName :=
      s.toolCallsByName.foldl (fun counts p => addCount counts p.1 p.2) t.toolCallsByName
    toolCallsTotal := t.toolCallsTotal + s.toolCallsTotal
    toolErrorsTotal := t.toolErrorsTotal + s.toolErrors
    fallbackTotal := t.fallbackTotal + s.fallbackCount
    censoredMessagesTotal := t.censoredMessagesTotal + s.censoredCount
    conversationsWithFallback := t.conversationsWithFallback + if s.hasFallback then 1 else 0
    conversationsWithToolError := t.conversationsWithToolError + if s.hasToolError then 1 else 0
    conversationsWithCensored := t.conversationsWithCensored + if s.hasCensored then 1 else 0 }

/-- The summaries of a snapshot, added up. -/
def buildMetrics (env : AdminEnv) (store : ConversationStore) : ConversationStore × Metrics :=
  let (store', snap) := store.snapshot
  (store', (snap.map fun entry => summarizeConversation env entry.messages).foldl Metrics.add
    ⟨snap.length, store.maxConversations, 0, 0, 0, 0, [], 0, 0, 0, 0, 0, 0⟩)

/-- A conversation as it is listed. -/
structure ConversationRow where
  /-- `guest_id` -/
  guestId : String
  /-- `last_accessed` -/
  lastAccessed : ℚ
  /-- The summary. -/
  summary : Summary

/-- The row of a conversation. -/
def rowOf (env : AdminEnv) (entry : Conversation) : ConversationRow :=
  ⟨entry.guestId, entry.lastAccessed, summarizeConversation env entry.messages⟩

/-- The rows of a snapshot, last accessed first. -/
def listConversations (env : AdminEnv) (store : ConversationStore) :
    ConversationStore × List ConversationRow :=
  let (store', snap) := store.snapshot
  (store', (snap.map (rowOf env)).insertionSort fun a b => b.lastAccessed ≤ a.lastAccessed)

/-! ## `normalize_transcript` -/

/-- A tool call as it is shown. -/
structure TranscriptCall where
  /-- `id` -/
  id : String
  /-- `name` -/
  name : Option String
  /-- `arguments` -/
  arguments : String
deriving DecidableEq

/-- An entry; `none` stands for a key that is absent, and for a `name` that is null. -/
structure TranscriptEntry where
  /-- `role` -/
  role : String
  /-- `content` -/
  content : Option String
  /-- `tool_calls` -/
  toolCalls : Option (List TranscriptCall)
  /-- `tool_call_id` -/
  toolCallId : Option String
  /-- `name` -/
  name : Option String
deriving DecidableEq

/-- The role of a message. -/
def Message.role : Message → String
  | .system _ => "system"
  | .user _ _ => "user"
  | .assistant _ _ => "assistant"
  | .tool _ _ => "tool"

/-- `m.get("content")` -/
def Message.content : Message → Option String
  | .system content => some content
  | .user content _ => some content
  | .assistant content _ => content
  | .tool _ content => some content

/-- The calls of a message for which `if calls:` holds; an absent list and an empty one are the
same. -/
def Message.calls : Message → List ToolCall
  | .assistant _ (some calls) => calls
  | _ => []

/-- One call of a group; a later call with the same id replaces the name, one without a name does
not. -/
def enterCall (group : String → Option String) (call : ToolCall) : String → Option String :=
  match call.name with
  | none => group
  | some name => fun id => if id = call.id then some name else group id

/-- `current_group` after a message. -/
def groupAfter (group : String → Option String) (m : Message) : String → Option String :=
  if m.calls = [] then group else m.calls.foldl enterCall fun _ => none

/-- The entry of a message, with the name its tool call id is mapped to. -/
def normalizeMessage (m : Message) (idToName : String → Option String) : TranscriptEntry where
  role := m.role
  content := m.content
  toolCalls :=
    if m.calls = [] then none
    else some (m.calls.map fun call => ⟨call.id, call.name, call.argumentsStr⟩)
  toolCallId :=
    match m with
    | .tool toolCallId _ => some toolCallId
    | _ => none
  name :=
    match m with
    | .tool toolCallId _ => idToName toolCallId
    | _ => none

/-- The loop of `normalize_transcript`. -/
def normalizeFrom (group : String → Option String) : List Message → List TranscriptEntry
  | [] => []
  | m :: ms => normalizeMessage m (groupAfter group m) :: normalizeFrom (groupAfter group m) ms

/-- The entries of the messages. -/
def normalizeTranscript (messages : List Message) : List TranscriptEntry :=
  normalizeFrom (fun _ => none) messages

/-- A conversation as it is shown. -/
structure ConversationDetail where
  /-- `guest_id` -/
  guestId : String
  /-- `last_accessed` -/
  lastAccessed : ℚ
  /-- The summary. -/
  summary : Summary
  /-- `transcript` -/
  transcript : List TranscriptEntry

/-- What is shown of a conversation. -/
def buildTranscript (env : AdminEnv) (guestId : String) (peeked : Conversation) :
    ConversationDetail :=
  ⟨guestId, peeked.lastAccessed, summarizeConversation env peeked.messages,
    normalizeTranscript peeked.messages⟩

/-! ## The routes -/

/-- The requests of the admin. -/
inductive AdminRequest where
  | metrics
  | conversations
  | conversationDetail (guestId : String)

/-- What they are answered with. -/
inductive AdminResponse where
  | metrics (m : Metrics)
  | conversations (count : ℕ) (rows : List ConversationRow)
  | conversationDetail (d : ConversationDetail)
  | notFound (detail : String)

/-- The routes of the admin. -/
def adminRoute (env : AdminEnv) (store : ConversationStore) :
    AdminRequest → ConversationStore × AdminResponse
  | .metrics =>
    let (store', m) := buildMetrics env store
    (store', .metrics m)
  | .conversations =>
    let (store', rows) := listConversations env store
    (store', .conversations rows.length rows)
  | .conversationDetail guestId =>
    let (store', peeked) := store.peek guestId
    match peeked with
    | none => (store', .notFound "Conversation not found")
    | some entry => (store', .conversationDetail (buildTranscript env guestId entry))

end Parrot
