import Webmeow.Parrot.History
import Webmeow.Lib.Groups

/-!
# Replayable histories

A history can be sent to the model again if its tool calls are grouped with their results. Trimming
only cuts before a user message, so it keeps a history replayable.
-/

namespace Parrot

open Groups

/-- A message with tool calls opens the group of their ids, a tool message answers one of them. -/
def Message.kind : Message → Kind String
  | .assistant _ (some calls) => .opens (calls.map ToolCall.id)
  | .tool toolCallId _ => .answers toolCallId
  | _ => .plain

/-- Every assistant message with `tool_calls` is followed at once by one tool message for each of
its call ids, in order, and there are no other tool messages. -/
def Replayable (msgs : List Message) : Prop := Grouped Message.kind msgs

instance (msgs : List Message) : Decidable (Replayable msgs) :=
  inferInstanceAs (Decidable (Grouped _ _))

theorem kind_of_isUser {m : Message} (h : m.isUser = true) : m.kind = .plain := by
  cases m with
  | user content censored => rfl
  | system content => cases h
  | assistant content toolCalls => cases h
  | tool toolCallId content => cases h

/-! ## Trimming -/

/-- The list is empty or starts with a user message. -/
def AtUser (msgs : List Message) : Prop := ∀ m ∈ msgs.head?, m.isUser = true

theorem dropToUser_cut (ms : List Message) (count : Int) :
    (∃ pre, ms = pre ++ (dropToUser ms count).1) ∧ AtUser (dropToUser ms count).1 := by
  induction ms generalizing count with
  | nil => exact ⟨⟨[], rfl⟩, fun m hm => by cases hm⟩
  | cons m ms ih =>
    simp only [dropToUser]
    split_ifs with hu hr
    · refine ⟨⟨[], rfl⟩, fun m' hm' => ?_⟩
      cases hm'
      exact hu
    · obtain ⟨⟨pre, hpre⟩, hat⟩ := ih (count - 1)
      exact ⟨⟨m :: pre, by rw [List.cons_append, ← hpre]⟩, hat⟩
    · obtain ⟨⟨pre, hpre⟩, hat⟩ := ih count
      exact ⟨⟨m :: pre, by rw [List.cons_append, ← hpre]⟩, hat⟩

theorem dropTurn_cut (m : Message) (ms : List Message) (count : Int) :
    (∃ pre, m :: ms = pre ++ (dropTurn m ms count).1) ∧ AtUser (dropTurn m ms count).1 := by
  unfold dropTurn
  split_ifs with hu
  · obtain ⟨⟨pre, hpre⟩, hat⟩ := dropToUser_cut ms (count - 1)
    exact ⟨⟨m :: pre, by rw [List.cons_append, ← hpre]⟩, hat⟩
  · exact dropToUser_cut (m :: ms) count

/-- The loop leaves the list alone or cuts it before a user message. -/
theorem trimLoop_cut (maxMessages : Int) (fuel : ℕ) (msgs : List Message) (count : Int) :
    trimLoop maxMessages fuel msgs count = msgs ∨
      (∃ pre, msgs = pre ++ trimLoop maxMessages fuel msgs count) ∧
        AtUser (trimLoop maxMessages fuel msgs count) := by
  induction fuel generalizing msgs count with
  | zero => exact Or.inl rfl
  | succ fuel ih =>
    cases msgs with
    | nil => exact Or.inl rfl
    | cons m ms =>
      simp only [trimLoop]
      split_ifs with hc
      · obtain ⟨⟨pre, hpre⟩, hat⟩ := dropTurn_cut m ms count
        rcases ih (dropTurn m ms count).1 (dropTurn m ms count).2 with he | ⟨⟨pre', hpre'⟩, hat'⟩
        · rw [he]
          exact Or.inr ⟨⟨pre, hpre⟩, hat⟩
        · refine Or.inr ⟨⟨pre ++ pre', ?_⟩, hat'⟩
          rw [List.append_assoc, ← hpre', ← hpre]
      · exact Or.inl rfl

/-- What is left of a history is its end. -/
theorem mem_of_mem_trim {maxMessages : Int} {msgs : List Message} {m : Message}
    (h : m ∈ trim maxMessages msgs) : m ∈ msgs := by
  rcases trimLoop_cut maxMessages msgs.length msgs (msgs.countP Message.isVisible) with
    he | ⟨⟨pre, hpre⟩, -⟩
  · unfold trim at h
    rwa [he] at h
  · rw [hpre]
    exact List.mem_append_right pre h

theorem trim_replayable {maxMessages : Int} {msgs : List Message} (h : Replayable msgs) :
    Replayable (trim maxMessages msgs) := by
  rcases trimLoop_cut maxMessages msgs.length msgs (msgs.countP Message.isVisible) with
    he | ⟨⟨pre, hpre⟩, hat⟩
  · unfold trim
    rw [he]
    exact h
  · change msgs = pre ++ trim maxMessages msgs at hpre
    change AtUser (trim maxMessages msgs) at hat
    cases ht : trim maxMessages msgs with
    | nil => exact .nil
    | cons m ms =>
      rw [ht] at hpre hat
      rw [hpre] at h
      exact h.drop (kind_of_isUser (hat m rfl))

theorem isVisible_eq {m : Message} (h : m.isUser = false) : m.isVisible = m.isReply := by
  cases m with
  | user content censored => cases h
  | system content => rfl
  | tool toolCallId content => rfl
  | assistant content toolCalls =>
    cases toolCalls with
    | none => rfl
    | some calls => rfl

theorem isVisible_of_isUser {m : Message} (h : m.isUser = true) : m.isVisible = true := by
  cases m with
  | user content censored => rfl
  | system content => cases h
  | assistant content toolCalls => cases h
  | tool toolCallId content => cases h

/-- The counter keeps its distance to the number of visible messages. -/
theorem dropToUser_count (ms : List Message) (count : Int) :
    (dropToUser ms count).2 - (dropToUser ms count).1.countP Message.isVisible =
      count - ms.countP Message.isVisible := by
  induction ms generalizing count with
  | nil => rfl
  | cons m ms ih =>
    simp only [dropToUser]
    split_ifs with hu hr
    · rfl
    · have hv : m.isVisible = true := by rw [isVisible_eq (by simpa using hu), hr]
      rw [ih, List.countP_cons, if_pos hv]
      push_cast
      omega
    · have hv : ¬ m.isVisible = true := by rwa [isVisible_eq (by simpa using hu)]
      rw [ih, List.countP_cons, if_neg hv]
      push_cast
      omega

theorem dropTurn_count (m : Message) (ms : List Message) (count : Int) :
    (dropTurn m ms count).2 - (dropTurn m ms count).1.countP Message.isVisible =
      count - (m :: ms).countP Message.isVisible := by
  unfold dropTurn
  split_ifs with hu
  · rw [dropToUser_count, List.countP_cons, if_pos (isVisible_of_isUser hu)]
    push_cast
    omega
  · exact dropToUser_count (m :: ms) count

theorem dropToUser_length (ms : List Message) (count : Int) :
    (dropToUser ms count).1.length ≤ ms.length := by
  obtain ⟨⟨pre, hpre⟩, -⟩ := dropToUser_cut ms count
  have h := congrArg List.length hpre
  rw [List.length_append] at h
  omega

theorem dropTurn_length (m : Message) (ms : List Message) (count : Int) :
    (dropTurn m ms count).1.length ≤ ms.length := by
  unfold dropTurn
  split_ifs with hu
  · exact dropToUser_length ms (count - 1)
  · rw [dropToUser, if_neg hu]
    exact dropToUser_length ms _

/-- With enough fuel the loop ends because its condition fails. -/
theorem trimLoop_within {maxMessages : Int} {fuel : ℕ} {msgs : List Message}
    (hfuel : msgs.length ≤ fuel) :
    trimLoop maxMessages fuel msgs (msgs.countP Message.isVisible) = [] ∨
      ((trimLoop maxMessages fuel msgs (msgs.countP Message.isVisible)).countP
        Message.isVisible : Int) ≤ maxMessages := by
  induction fuel generalizing msgs with
  | zero => exact Or.inl (List.length_eq_zero_iff.1 (Nat.le_zero.1 hfuel))
  | succ fuel ih =>
    cases msgs with
    | nil => exact Or.inl rfl
    | cons m ms =>
      rw [trimLoop]
      split_ifs with hc
      · have hlen := dropTurn_length m ms ((m :: ms).countP Message.isVisible)
        have hcount := dropTurn_count m ms ((m :: ms).countP Message.isVisible)
        rw [List.length_cons] at hfuel
        rw [sub_self, sub_eq_zero] at hcount
        rw [hcount]
        exact ih (by omega)
      · exact Or.inr (not_lt.1 hc)

/-- **The cap**: a trimmed history is empty or has at most `max_messages` visible messages. -/
theorem trim_within (maxMessages : Int) (msgs : List Message) :
    trim maxMessages msgs = [] ∨
      ((trim maxMessages msgs).countP Message.isVisible : Int) ≤ maxMessages :=
  trimLoop_within le_rfl

/-- Dropping stops at a user message. -/
theorem dropToUser_append (pre : List Message) {u : Message} (hu : u.isUser = true)
    (rest : List Message) (count : Int) :
    ∃ pre', (dropToUser (pre ++ u :: rest) count).1 = pre' ++ u :: rest := by
  induction pre generalizing count with
  | nil => exact ⟨[], by rw [List.nil_append, dropToUser, if_pos hu]⟩
  | cons m pre ih =>
    rw [List.cons_append, dropToUser]
    split_ifs with hm hr
    · exact ⟨m :: pre, rfl⟩
    · exact ih (count - 1)
    · exact ih count

theorem trimLoop_keeps {maxMessages : Int} (hmax : 1 ≤ maxMessages) {u : Message}
    (hu : u.isUser = true) {rest : List Message} (hrest : ∀ m ∈ rest, m.isVisible = false)
    (fuel : ℕ) (pre : List Message) :
    ∃ pre', trimLoop maxMessages fuel (pre ++ u :: rest)
      ((pre ++ u :: rest).countP Message.isVisible) = pre' ++ u :: rest := by
  induction fuel generalizing pre with
  | zero => exact ⟨pre, rfl⟩
  | succ fuel ih =>
    cases pre with
    | nil =>
      -- the last turn has one visible message, which is within every limit
      have hcount : (u :: rest).countP Message.isVisible = 1 := by
        rw [List.countP_cons, if_pos (isVisible_of_isUser hu)]
        rw [List.countP_eq_zero.2 fun m hm => by rw [hrest m hm]; exact Bool.false_ne_true]
      refine ⟨[], ?_⟩
      rw [List.nil_append, trimLoop, if_neg (by rw [hcount]; push_cast; omega)]
    | cons m pre =>
      rw [List.cons_append, trimLoop]
      split_ifs with hc
      · generalize hcount : ((List.countP Message.isVisible (m :: (pre ++ u :: rest)) : ℕ) : Int) =
          count
        have hdrop : ∃ pre', (dropTurn m (pre ++ u :: rest) count).1 = pre' ++ u :: rest := by
          unfold dropTurn
          split_ifs with hm
          · exact dropToUser_append pre hu rest (count - 1)
          · exact dropToUser_append (m :: pre) hu rest count
        obtain ⟨pre', hpre'⟩ := hdrop
        have hcount' : (dropTurn m (pre ++ u :: rest) count).2 =
            (pre' ++ u :: rest).countP Message.isVisible := by
          have h := dropTurn_count m (pre ++ u :: rest) count
          rw [hpre'] at h
          omega
        rw [hcount', hpre']
        exact ih pre'
      · exact ⟨m :: pre, rfl⟩

/-- **The last turn is kept**: trimming does not reach a turn whose only visible message is the
user's. -/
theorem trim_keeps {maxMessages : Int} (hmax : 1 ≤ maxMessages) {u : Message}
    (hu : u.isUser = true) {rest : List Message} (hrest : ∀ m ∈ rest, m.isVisible = false)
    (pre : List Message) :
    ∃ pre', trim maxMessages (pre ++ u :: rest) = pre' ++ u :: rest :=
  trimLoop_keeps hmax hu hrest _ pre

/-! ## The store -/

section Store

variable {store : ConversationStore} {P : List Message → Prop}

/-- Every conversation of the store satisfies `P`. -/
def ConversationStore.Each (store : ConversationStore) (P : List Message → Prop) : Prop :=
  ∀ c ∈ store.conversations, P c.messages

theorem ConversationStore.Each.modify (h : store.Each P) (guestId : String)
    (f : Conversation → Conversation) (hf : ∀ c, (f c).guestId = c.guestId)
    (hmsgs : ∀ c ∈ store.conversations, P (f c).messages) : (store.modify guestId f hf).Each P := by
  intro c hc
  obtain ⟨d, hd, rfl⟩ := List.mem_map.1 hc
  split_ifs
  · exact hmsgs d hd
  · exact h d hd

theorem ConversationStore.Each.retain (h : store.Each P) (p : Conversation → Bool) :
    (store.retain p).Each P := by
  intro c hc
  exact h c (List.mem_of_mem_filter hc)

theorem ConversationStore.Each.setDefault (h : store.Each P) (hnil : P []) (guestId : String)
    (now : ℚ) : (store.setDefault guestId now).Each P := by
  unfold ConversationStore.setDefault
  split_ifs with hk
  · exact h
  · intro c hc
    rcases List.mem_append.1 hc with hc | hc
    · exact h c hc
    · rw [List.mem_singleton.1 hc]
      exact hnil

theorem ConversationStore.Each.getMessages (h : store.Each P) (hnil : P []) (guestId : String)
    (now : ℚ) :
    (store.getMessages guestId now).1.Each P ∧ P (store.getMessages guestId now).2 := by
  unfold ConversationStore.getMessages
  cases hg : store.get guestId with
  | none => exact ⟨h, hnil⟩
  | some entry =>
    exact ⟨h.modify guestId (Conversation.touch now) (fun _ => rfl) h,
      h entry (List.mem_of_find?_eq_some hg)⟩

/-- Appending keeps what holds of a conversation if it holds of the trimmed list. -/
theorem ConversationStore.Each.append (h : store.Each P) (hnil : P []) (guestId : String) (now : ℚ)
    {messages : List Message}
    (hm : ∀ msgs, P msgs → P (trim store.maxMessages (msgs ++ messages))) :
    (store.append guestId messages now).Each P := by
  have hd := h.setDefault hnil guestId now
  exact hd.modify guestId _ _ fun c hc => hm c.messages (hd c hc)

theorem ConversationStore.Each.cleanup (h : store.Each P) (now : ℚ) :
    (store.cleanup now).Each P :=
  (h.retain _).retain _

end Store

/-- Every conversation of the store is replayable. -/
def ConversationStore.Replayable (store : ConversationStore) : Prop :=
  ∀ c ∈ store.conversations, Parrot.Replayable c.messages

instance (store : ConversationStore) : Decidable store.Replayable :=
  inferInstanceAs (Decidable (∀ c ∈ store.conversations, Parrot.Replayable c.messages))

variable {store : ConversationStore}

theorem ConversationStore.Replayable.each (h : store.Replayable) : store.Each Parrot.Replayable := h

theorem ConversationStore.Replayable.getMessages (h : store.Replayable) (guestId : String)
    (now : ℚ) : (store.getMessages guestId now).1.Replayable ∧
      Parrot.Replayable (store.getMessages guestId now).2 :=
  h.each.getMessages .nil guestId now

/-- **Appending a whole turn** keeps every conversation replayable, whatever is trimmed. -/
theorem ConversationStore.Replayable.append (h : store.Replayable) (guestId : String) (now : ℚ)
    {messages : List Message} (hm : Parrot.Replayable messages) :
    (store.append guestId messages now).Replayable :=
  h.each.append .nil guestId now fun _ hmsgs => trim_replayable (Grouped.append hmsgs hm)

/-- An appended turn is found in the store, whatever else the conversation keeps. -/
theorem append_mem (store : ConversationStore) (guestId : String) (messages : List Message)
    (now : ℚ) : ∃ c pre, c ∈ (store.append guestId messages now).conversations ∧
      c.messages = trim store.maxMessages (pre ++ messages) := by
  have hentry : ∃ c ∈ (store.setDefault guestId now).conversations, c.guestId = guestId := by
    unfold ConversationStore.setDefault
    split_ifs with hk
    · exact List.mem_map.1 hk
    · exact ⟨_, List.mem_append_right _ (List.mem_singleton_self _), rfl⟩
  obtain ⟨c, hc, hg⟩ := hentry
  refine ⟨_, c.messages, List.mem_map_of_mem hc, ?_⟩
  rw [if_pos hg]
  rfl

theorem ConversationStore.Replayable.cleanup (h : store.Replayable) (now : ℚ) :
    (store.cleanup now).Replayable :=
  h.each.cleanup now

end Parrot
