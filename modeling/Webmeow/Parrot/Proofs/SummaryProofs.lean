import Webmeow.Parrot.Admin

/-!
# Summaries and metrics add up

Each counter of a summary counts the messages, or the calls, of one kind. So the summary of two
lists on end is the sum of theirs, and the metrics are the sum of the rows, in whatever order the
rows are listed.
-/

namespace Parrot

/-! ## What is counted -/

/-- A user message that was censored when it was stored, or that looks censored. -/
def AdminEnv.censors (env : AdminEnv) : Message → Bool
  | .user content censored => censored || env.containsMask content
  | _ => false

/-- An assistant message without calls, the key being absent or its list empty. -/
def Message.isFinal : Message → Bool
  | .assistant _ none => true
  | .assistant _ (some []) => true
  | _ => false

/-- The message is a fallback reply. -/
def Message.isFallback (m : Message) : Bool := m.isFinal && decide (m.content = some FALLBACK)

/-- The message is a tool result with an error marker. -/
def AdminEnv.failed (env : AdminEnv) : Message → Bool
  | .tool _ content => env.toolResultIsError content
  | _ => false

/-- The names under which the calls of a message are counted. -/
def Message.labels (m : Message) : List String := m.calls.map ToolCall.label

/-- The labels of the tool calls. -/
def labels (messages : List Message) : List String := messages.flatMap Message.labels

/-- The counters, the messages of `ms` having been read on top of `t`. -/
def Tally.plus (env : AdminEnv) (t : Tally) (ms : List Message) : Tally where
  turns := t.turns + ms.countP Message.isUser
  censoredCount := t.censoredCount + ms.countP env.censors
  assistantTurns := t.assistantTurns + ms.countP Message.isFinal
  toolCallsByName := Counts.tally t.toolCallsByName (labels ms)
  toolCallsTotal := t.toolCallsTotal + (labels ms).length
  toolErrors := t.toolErrors + ms.countP env.failed
  fallbackCount := t.fallbackCount + ms.countP Message.isFallback

variable {env : AdminEnv}

theorem tally_append (counts : List (String × ℕ)) (a b : List String) :
    Counts.tally counts (a ++ b) = Counts.tally (Counts.tally counts a) b :=
  List.foldl_append

theorem Tally.plus_append (t : Tally) (a b : List Message) :
    t.plus env (a ++ b) = (t.plus env a).plus env b := by
  simp only [Tally.plus, labels, List.countP_append, List.flatMap_append, List.length_append,
    tally_append, Nat.add_assoc]

theorem foldl_call (t : Tally) (calls : List ToolCall) : calls.foldl Tally.call t =
    { t with
      toolCallsByName := Counts.tally t.toolCallsByName (calls.map ToolCall.label)
      toolCallsTotal := t.toolCallsTotal + (calls.map ToolCall.label).length } := by
  induction calls generalizing t with
  | nil => rfl
  | cons call calls ih =>
    rw [List.foldl_cons, ih, List.map_cons, List.length_cons]
    simp only [Tally.call, addCount, Nat.add_assoc, Nat.add_comm 1]
    rfl

/-- One message more. -/
theorem Tally.plus_singleton (t : Tally) (m : Message) : t.plus env [m] =
    { turns := t.turns + if m.isUser then 1 else 0
      censoredCount := t.censoredCount + if env.censors m then 1 else 0
      assistantTurns := t.assistantTurns + if m.isFinal then 1 else 0
      toolCallsByName := Counts.tally t.toolCallsByName m.labels
      toolCallsTotal := t.toolCallsTotal + m.labels.length
      toolErrors := t.toolErrors + if env.failed m then 1 else 0
      fallbackCount := t.fallbackCount + if m.isFallback then 1 else 0 } := by
  simp only [Tally.plus, labels, List.countP_singleton, List.flatMap_singleton]

/-- What a round does with an assistant message that is counted as a turn. -/
theorem Tally.read_final (t : Tally) {content : Option String} {toolCalls : Option (List ToolCall)}
    (h : (Message.assistant content toolCalls).isFinal = true) :
    t.read env (.assistant content toolCalls) =
      { t with
        assistantTurns := t.assistantTurns + 1
        fallbackCount := t.fallbackCount +
          if (Message.assistant content toolCalls).isFallback then 1 else 0 } := by
  have hread : t.read env (.assistant content toolCalls) =
      { t with
        assistantTurns := t.assistantTurns + 1
        fallbackCount := t.fallbackCount + if content = some FALLBACK then 1 else 0 } := by
    rcases toolCalls with _ | (_ | ⟨call, calls⟩)
    · rfl
    · rfl
    · cases h
  have hiff : (Message.assistant content toolCalls).isFallback = true ↔
      content = some FALLBACK := by
    rw [Message.isFallback, h, Bool.true_and, decide_eq_true_iff]
    rfl
  rw [hread]
  by_cases hc : content = some FALLBACK
  · rw [if_pos hc, if_pos (hiff.2 hc)]
  · rw [if_neg hc, if_neg fun hm => hc (hiff.1 hm)]

/-- One round of the loop. -/
theorem Tally.read_eq (t : Tally) (m : Message) : t.read env m = t.plus env [m] := by
  rw [Tally.plus_singleton]
  cases m with
  | system content => rfl
  | user content censored => rfl
  | tool toolCallId content => rfl
  | assistant content toolCalls =>
    rcases toolCalls with _ | (_ | ⟨call, calls⟩)
    · exact t.read_final rfl
    · exact t.read_final rfl
    · exact foldl_call t (call :: calls)

/-- The whole loop. -/
theorem foldl_read (t : Tally) (ms : List Message) :
    ms.foldl (Tally.read env) t = t.plus env ms := by
  induction ms generalizing t with
  | nil => rfl
  | cons m ms ih => rw [List.foldl_cons, ih, Tally.read_eq, ← Tally.plus_append, List.singleton_append]

/-- **What a summary counts.** -/
theorem summarizeConversation_eq (env : AdminEnv) (ms : List Message) :
    summarizeConversation env ms =
      { turns := ms.countP Message.isUser
        censoredCount := ms.countP env.censors
        totalMessages := ms.length
        assistantTurns := ms.countP Message.isFinal
        toolCallsByName := Counts.tally [] (labels ms)
        toolCallsTotal := (labels ms).length
        toolErrors := ms.countP env.failed
        fallbackCount := ms.countP Message.isFallback
        hasCensored := decide (0 < ms.countP env.censors)
        hasFallback := decide (0 < ms.countP Message.isFallback)
        hasToolError := decide (0 < ms.countP env.failed) } := by
  simp only [summarizeConversation, foldl_read, Tally.plus, Nat.zero_add]

/-! ## Two lists on end -/

/-- `s` is the sum of `a` and `b`. -/
structure Summary.IsSum (s a b : Summary) : Prop where
  /-- The turns add up. -/
  turns : s.turns = a.turns + b.turns
  /-- The censored messages add up. -/
  censoredCount : s.censoredCount = a.censoredCount + b.censoredCount
  /-- The messages add up. -/
  totalMessages : s.totalMessages = a.totalMessages + b.totalMessages
  /-- The turns of the assistant add up. -/
  assistantTurns : s.assistantTurns = a.assistantTurns + b.assistantTurns
  /-- The calls of each tool add up. -/
  toolCallsByName : ∀ name, Counts.get s.toolCallsByName name =
    Counts.get a.toolCallsByName name + Counts.get b.toolCallsByName name
  /-- The tools are those of both. -/
  toolNames : ∀ name, name ∈ s.toolCallsByName.map Prod.fst ↔
    name ∈ a.toolCallsByName.map Prod.fst ∨ name ∈ b.toolCallsByName.map Prod.fst
  /-- The tool calls add up. -/
  toolCallsTotal : s.toolCallsTotal = a.toolCallsTotal + b.toolCallsTotal
  /-- The tool errors add up. -/
  toolErrors : s.toolErrors = a.toolErrors + b.toolErrors
  /-- The fallbacks add up. -/
  fallbackCount : s.fallbackCount = a.fallbackCount + b.fallbackCount
  /-- One of both has a censored message. -/
  hasCensored : s.hasCensored = (a.hasCensored || b.hasCensored)
  /-- One of both has a fallback. -/
  hasFallback : s.hasFallback = (a.hasFallback || b.hasFallback)
  /-- One of both has a tool error. -/
  hasToolError : s.hasToolError = (a.hasToolError || b.hasToolError)

theorem decide_pos_countP_append (p : Message → Bool) (a b : List Message) :
    decide (0 < (a ++ b).countP p) = (decide (0 < a.countP p) || decide (0 < b.countP p)) := by
  rw [List.countP_append, ← Bool.decide_or, decide_eq_decide]
  omega

theorem summarize_append (env : AdminEnv) (a b : List Message) :
    (summarizeConversation env (a ++ b)).IsSum (summarizeConversation env a)
      (summarizeConversation env b) := by
  rw [summarizeConversation_eq, summarizeConversation_eq, summarizeConversation_eq]
  have hlabels : labels (a ++ b) = labels a ++ labels b := List.flatMap_append
  exact
    { turns := List.countP_append
      censoredCount := List.countP_append
      totalMessages := List.length_append
      assistantTurns := List.countP_append
      toolCallsByName := fun name => by
        simp only [Counts.get_tally, hlabels, List.count_append, Counts.get_nil, Nat.zero_add]
      toolNames := fun name => by
        simp only [Counts.mem_keys_tally, hlabels, List.mem_append, List.map_nil,
          List.not_mem_nil, false_or]
      toolCallsTotal := by
        rw [hlabels]
        exact List.length_append
      toolErrors := List.countP_append
      fallbackCount := List.countP_append
      hasCensored := decide_pos_countP_append _ a b
      hasFallback := decide_pos_countP_append _ a b
      hasToolError := decide_pos_countP_append _ a b }

/-- The counts by name have one entry for each name, and they add up to the total. -/
theorem summary_byName (env : AdminEnv) (ms : List Message) :
    ((summarizeConversation env ms).toolCallsByName.map Prod.fst).Nodup ∧
      Counts.total (summarizeConversation env ms).toolCallsByName =
        (summarizeConversation env ms).toolCallsTotal := by
  have hnil : (([] : List (String × ℕ)).map Prod.fst).Nodup := List.nodup_nil
  rw [summarizeConversation_eq]
  exact ⟨Counts.nodup_tally hnil _, (Counts.total_tally hnil _).trans (Nat.zero_add _)⟩

/-! ## The metrics of a store -/

/-- Each number of the metrics is the sum of a column of the rows, or the number of rows with a
flag. -/
structure Metrics.IsSum (m : Metrics) (rows : List ConversationRow) : Prop where
  /-- The conversations are counted. -/
  totalConversations : m.totalConversations = rows.length
  /-- The messages add up. -/
  totalMessages : m.totalMessages = (rows.map fun r => r.summary.totalMessages).sum
  /-- The turns add up. -/
  totalUserTurns : m.totalUserTurns = (rows.map fun r => r.summary.turns).sum
  /-- The turns of the assistant add up. -/
  totalAssistantTurns : m.totalAssistantTurns = (rows.map fun r => r.summary.assistantTurns).sum
  /-- The tool calls add up. -/
  toolCallsTotal : m.toolCallsTotal = (rows.map fun r => r.summary.toolCallsTotal).sum
  /-- The calls of each tool add up. -/
  toolCallsByName : ∀ name, Counts.get m.toolCallsByName name =
    (rows.map fun r => Counts.get r.summary.toolCallsByName name).sum
  /-- The tools are those of the rows. -/
  toolNames : ∀ name, name ∈ m.toolCallsByName.map Prod.fst ↔
    ∃ r ∈ rows, name ∈ r.summary.toolCallsByName.map Prod.fst
  /-- The tool errors add up. -/
  toolErrorsTotal : m.toolErrorsTotal = (rows.map fun r => r.summary.toolErrors).sum
  /-- The fallbacks add up. -/
  fallbackTotal : m.fallbackTotal = (rows.map fun r => r.summary.fallbackCount).sum
  /-- The censored messages add up. -/
  censoredMessagesTotal : m.censoredMessagesTotal =
    (rows.map fun r => r.summary.censoredCount).sum
  /-- The conversations with a fallback are counted. -/
  conversationsWithFallback : m.conversationsWithFallback =
    rows.countP fun r => r.summary.hasFallback
  /-- The conversations with a tool error are counted. -/
  conversationsWithToolError : m.conversationsWithToolError =
    rows.countP fun r => r.summary.hasToolError
  /-- The conversations with a censored message are counted. -/
  conversationsWithCensored : m.conversationsWithCensored =
    rows.countP fun r => r.summary.hasCensored

/-- The sums, the summaries `ss` having been read on top of `t`. -/
def Metrics.plus (t : Metrics) (ss : List Summary) : Metrics :=
  { t with
    totalMessages := t.totalMessages + (ss.map Summary.totalMessages).sum
    totalUserTurns := t.totalUserTurns + (ss.map Summary.turns).sum
    totalAssistantTurns := t.totalAssistantTurns + (ss.map Summary.assistantTurns).sum
    toolCallsByName := (ss.map Summary.toolCallsByName).foldl Counts.merge t.toolCallsByName
    toolCallsTotal := t.toolCallsTotal + (ss.map Summary.toolCallsTotal).sum
    toolErrorsTotal := t.toolErrorsTotal + (ss.map Summary.toolErrors).sum
    fallbackTotal := t.fallbackTotal + (ss.map Summary.fallbackCount).sum
    censoredMessagesTotal := t.censoredMessagesTotal + (ss.map Summary.censoredCount).sum
    conversationsWithFallback := t.conversationsWithFallback + ss.countP Summary.hasFallback
    conversationsWithToolError := t.conversationsWithToolError + ss.countP Summary.hasToolError
    conversationsWithCensored := t.conversationsWithCensored + ss.countP Summary.hasCensored }

/-- One round of the loop. -/
theorem Metrics.plus_cons (t : Metrics) (s : Summary) (ss : List Summary) :
    t.plus (s :: ss) = (t.add s).plus ss := by
  simp only [Metrics.plus, Metrics.add, List.map_cons, List.sum_cons, List.countP_cons,
    List.foldl_cons, Nat.add_assoc, Nat.add_comm (List.countP _ _)]
  rfl

/-- The whole loop. -/
theorem foldl_add (t : Metrics) (ss : List Summary) : ss.foldl Metrics.add t = t.plus ss := by
  induction ss generalizing t with
  | nil => rfl
  | cons s ss ih => rw [List.foldl_cons, ih, Metrics.plus_cons]

/-- The order of the rows plays no role. -/
theorem Metrics.IsSum.perm {m : Metrics} {rows rows' : List ConversationRow} (h : m.IsSum rows)
    (hp : rows.Perm rows') : m.IsSum rows' where
  totalConversations := h.totalConversations.trans hp.length_eq
  totalMessages := h.totalMessages.trans (hp.map _).sum_eq
  totalUserTurns := h.totalUserTurns.trans (hp.map _).sum_eq
  totalAssistantTurns := h.totalAssistantTurns.trans (hp.map _).sum_eq
  toolCallsTotal := h.toolCallsTotal.trans (hp.map _).sum_eq
  toolCallsByName name := (h.toolCallsByName name).trans (hp.map _).sum_eq
  toolNames name := (h.toolNames name).trans <| exists_congr fun _ =>
    and_congr_left fun _ => hp.mem_iff
  toolErrorsTotal := h.toolErrorsTotal.trans (hp.map _).sum_eq
  fallbackTotal := h.fallbackTotal.trans (hp.map _).sum_eq
  censoredMessagesTotal := h.censoredMessagesTotal.trans (hp.map _).sum_eq
  conversationsWithFallback := h.conversationsWithFallback.trans (hp.countP_eq _)
  conversationsWithToolError := h.conversationsWithToolError.trans (hp.countP_eq _)
  conversationsWithCensored := h.conversationsWithCensored.trans (hp.countP_eq _)

theorem buildMetrics_eq (env : AdminEnv) (store : ConversationStore) :
    (buildMetrics env store).2 =
      Metrics.plus ⟨store.conversations.length, store.maxConversations, 0, 0, 0, 0, [], 0, 0, 0,
        0, 0, 0⟩ ((store.conversations.map (rowOf env)).map ConversationRow.summary) := by
  rw [List.map_map]
  exact foldl_add _ _

/-- The metrics are the sum of the rows in the order of the store. -/
theorem buildMetrics_isSum (env : AdminEnv) (store : ConversationStore) :
    (buildMetrics env store).2.IsSum (store.conversations.map (rowOf env)) := by
  have hnodup : ∀ b ∈ ((store.conversations.map (rowOf env)).map ConversationRow.summary).map
      Summary.toolCallsByName, (b.map Prod.fst).Nodup := by
    simp only [List.mem_map]
    rintro b ⟨-, ⟨-, ⟨c, -, rfl⟩, rfl⟩, rfl⟩
    exact (summary_byName env c.messages).1
  rw [buildMetrics_eq]
  exact
    { totalConversations := by simp [Metrics.plus]
      totalMessages := by simp [Metrics.plus, Function.comp_def]
      totalUserTurns := by simp [Metrics.plus, Function.comp_def]
      totalAssistantTurns := by simp [Metrics.plus, Function.comp_def]
      toolCallsTotal := by simp [Metrics.plus, Function.comp_def]
      toolCallsByName := fun name => by
        rw [Metrics.plus, Counts.get_foldl_merge _ hnodup, Counts.get_nil, Nat.zero_add]
        simp only [List.map_map, Function.comp_def]
      toolNames := fun name => by
        rw [Metrics.plus, Counts.mem_keys_foldl_merge]
        simp
      toolErrorsTotal := by simp [Metrics.plus, Function.comp_def]
      fallbackTotal := by simp [Metrics.plus, Function.comp_def]
      censoredMessagesTotal := by simp [Metrics.plus, Function.comp_def]
      conversationsWithFallback := by simp [Metrics.plus, List.countP_map, Function.comp_def]
      conversationsWithToolError := by simp [Metrics.plus, List.countP_map, Function.comp_def]
      conversationsWithCensored := by simp [Metrics.plus, List.countP_map, Function.comp_def] }

theorem buildMetrics_byName (env : AdminEnv) (store : ConversationStore) :
    ((buildMetrics env store).2.toolCallsByName.map Prod.fst).Nodup ∧
      Counts.total (buildMetrics env store).2.toolCallsByName =
        (buildMetrics env store).2.toolCallsTotal := by
  have hnil : (([] : List (String × ℕ)).map Prod.fst).Nodup := List.nodup_nil
  rw [buildMetrics_eq]
  refine ⟨Counts.nodup_foldl_merge hnil _, (Counts.total_foldl_merge hnil _).trans ?_⟩
  refine congrArg (fun l : List ℕ => 0 + l.sum) ?_
  simp only [List.map_map]
  refine List.map_congr_left fun c _ => ?_
  exact (summary_byName env c.messages).2

/-! ## The rows -/

theorem listConversations_perm (env : AdminEnv) (store : ConversationStore) :
    (listConversations env store).2.Perm (store.conversations.map (rowOf env)) :=
  List.perm_insertionSort _ _

theorem listConversations_sorted (env : AdminEnv) (store : ConversationStore) :
    (listConversations env store).2.Pairwise fun a b => b.lastAccessed ≤ a.lastAccessed := by
  have htrans : IsTrans ConversationRow fun a b => b.lastAccessed ≤ a.lastAccessed :=
    ⟨fun _ _ _ h h' => h'.trans h⟩
  have htotal : Std.Total fun a b : ConversationRow => b.lastAccessed ≤ a.lastAccessed :=
    ⟨fun a b => le_total b.lastAccessed a.lastAccessed⟩
  exact List.pairwise_insertionSort
    (fun a b : ConversationRow => b.lastAccessed ≤ a.lastAccessed) _

theorem listConversations_nodup (env : AdminEnv) (store : ConversationStore) :
    ((listConversations env store).2.map ConversationRow.guestId).Nodup := by
  have hperm := (listConversations_perm env store).map ConversationRow.guestId
  rw [List.map_map] at hperm
  exact hperm.nodup_iff.2 store.guestKey

theorem adminRoute_store (env : AdminEnv) (store : ConversationStore) (request : AdminRequest) :
    (adminRoute env store request).1 = store := by
  cases request with
  | metrics => rfl
  | conversations => rfl
  | conversationDetail guestId =>
    cases h : store.get guestId with
    | none => simp only [adminRoute, ConversationStore.peek, h]
    | some entry => simp only [adminRoute, ConversationStore.peek, h]

/-- **Metrics are additive**: the metrics of a store are the sum of the rows of its list, and the
summary of two lists of messages on end is the sum of theirs. The counts by name add up to the
total. The list has one row for each conversation, the most recently accessed first, and no read
changes the store. -/
theorem metrics_additive (env : AdminEnv) :
    (∀ store : ConversationStore,
      (buildMetrics env store).2.IsSum (listConversations env store).2 ∧
      (buildMetrics env store).2.maxConversations = store.maxConversations ∧
      ((buildMetrics env store).2.toolCallsByName.map Prod.fst).Nodup ∧
      Counts.total (buildMetrics env store).2.toolCallsByName =
        (buildMetrics env store).2.toolCallsTotal ∧
      (listConversations env store).2.Pairwise (fun a b => b.lastAccessed ≤ a.lastAccessed) ∧
      (listConversations env store).2.Perm (store.conversations.map (rowOf env)) ∧
      ((listConversations env store).2.map ConversationRow.guestId).Nodup ∧
      ∀ request, (adminRoute env store request).1 = store) ∧
    (∀ a b : List Message, (summarizeConversation env (a ++ b)).IsSum
      (summarizeConversation env a) (summarizeConversation env b)) ∧
    ∀ messages : List Message,
      ((summarizeConversation env messages).toolCallsByName.map Prod.fst).Nodup ∧
      Counts.total (summarizeConversation env messages).toolCallsByName =
        (summarizeConversation env messages).toolCallsTotal := by
  refine ⟨fun store => ?_, summarize_append env, summary_byName env⟩
  obtain ⟨hnodup, htotal⟩ := buildMetrics_byName env store
  have hsum := (buildMetrics_isSum env store).perm (listConversations_perm env store).symm
  have hmax : (buildMetrics env store).2.maxConversations = store.maxConversations := by
    rw [buildMetrics_eq]
    rfl
  exact ⟨hsum, hmax, hnodup, htotal, listConversations_sorted env store,
    listConversations_perm env store, listConversations_nodup env store,
    adminRoute_store env store⟩

end Parrot
