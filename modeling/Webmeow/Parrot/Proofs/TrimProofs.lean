import Webmeow.Parrot.Proofs.HistoryProofs
import Webmeow.Lib.LongestSuffix
import Mathlib.Data.List.Induction

/-!
# The store keeps the recent turns

A chat appends one turn at a time. `_trim` drops turns from the front, counting as it goes, so what a
guest's conversation holds are whole turns, the most recent ones that fit.
-/

namespace Parrot

open LongestSuffix

/-- A message that calls tools or answers such a call. -/
def Message.isToolStep : Message → Bool
  | .assistant _ (some _) => true
  | .tool _ _ => true
  | _ => false

/-- What one chat appends: the message of the user, the tool steps and, unless the chat failed, the
reply. -/
structure ChatTurn where
  /-- The message of the guest. -/
  user : Message
  /-- The tool calls and their results. -/
  steps : List Message
  /-- The reply, if there is one. -/
  reply : Option Message
  /-- The turn opens with the guest. -/
  isUser : user.isUser = true
  /-- The steps are tool steps. -/
  isToolStep : ∀ m ∈ steps, m.isToolStep = true
  /-- The reply is one. -/
  isReply : ∀ m ∈ reply, m.isReply = true

/-- The messages of the turn. -/
def ChatTurn.messages (t : ChatTurn) : List Message := t.user :: (t.steps ++ t.reply.toList)

/-- The messages of the turns, one after the other. -/
def concatTurns (turns : List ChatTurn) : List Message := turns.flatMap ChatTurn.messages

/-- How many messages are visible. -/
def visibleCount (msgs : List Message) : ℕ := msgs.countP Message.isVisible

/-- The messages of the last few of the turns: a suffix that starts at a turn boundary. -/
def AtTurn (turns : List ChatTurn) (msgs : List Message) : Prop :=
  ∃ recent, recent <:+ turns ∧ msgs = concatTurns recent

/-- `msgs` is the longest suffix of the turns' messages that starts at a turn boundary and has at most
`maxMessages` visible messages. -/
structure KeepsRecent (maxMessages : Int) (turns : List ChatTurn) (msgs : List Message) : Prop where
  /-- What is kept starts with a turn. -/
  atTurn : AtTurn turns msgs
  /-- It is within the limit. -/
  within : visibleCount msgs ≤ maxMessages
  /-- Nothing longer is. -/
  longest : ∀ msgs', AtTurn turns msgs' → visibleCount msgs' ≤ maxMessages → msgs' <:+ msgs

/-- The loop of `_trim` started with the given messages and counter ends with the list `out`. -/
inductive TrimEnds (maxMessages : Int) : List Message → Int → List Message → Prop
  /-- The loop stops. -/
  | stop {msgs : List Message} {count : Int} (h : ¬(maxMessages < count ∧ msgs ≠ [])) :
      TrimEnds maxMessages msgs count msgs
  /-- A turn is dropped. -/
  | turn {m : Message} {ms : List Message} {count : Int} {out : List Message}
      (h : maxMessages < count)
      (rest : TrimEnds maxMessages (dropTurn m ms count).1 (dropTurn m ms count).2 out) :
      TrimEnds maxMessages (m :: ms) count out

/-- An `append` of one turn, for some guest and at some time. -/
structure TurnAppend where
  /-- The guest. -/
  guestId : String
  /-- The turn. -/
  turn : ChatTurn
  /-- The time. -/
  now : ℚ

/-- The store after the append. -/
def ConversationStore.appendTurn (store : ConversationStore) (a : TurnAppend) : ConversationStore :=
  store.append a.guestId a.turn.messages a.now

/-- The turns that were appended for a guest. -/
def turnsOf (guestId : String) (appends : List TurnAppend) : List ChatTurn :=
  (appends.filter fun a => a.guestId = guestId).map TurnAppend.turn

/-! ## The loop ends -/

theorem trimLoop_ends (maxMessages : Int) {fuel : ℕ} {msgs : List Message}
    (hfuel : msgs.length ≤ fuel) (count : Int) :
    TrimEnds maxMessages msgs count (trimLoop maxMessages fuel msgs count) := by
  induction fuel generalizing msgs count with
  | zero =>
    have hnil : msgs = [] := List.length_eq_zero_iff.1 (Nat.le_zero.1 hfuel)
    rw [trimLoop]
    exact .stop fun h => h.2 hnil
  | succ fuel ih =>
    cases msgs with
    | nil => exact .stop fun h => h.2 rfl
    | cons m ms =>
      rw [trimLoop]
      split_ifs with hc
      · have hlen := dropTurn_length m ms count
        rw [List.length_cons] at hfuel
        exact .turn hc (ih (by omega) _)
      · exact .stop fun h => hc h.1

/-- **Trimming ends**: an iteration drops a message at least. -/
theorem trim_ends (maxMessages : Int) (msgs : List Message) :
    TrimEnds maxMessages msgs (visibleCount msgs) (trim maxMessages msgs) :=
  trimLoop_ends maxMessages le_rfl _

/-! ## Turns -/

@[simp]
theorem concatTurns_cons (t : ChatTurn) (ts : List ChatTurn) :
    concatTurns (t :: ts) = t.user :: (t.steps ++ t.reply.toList ++ concatTurns ts) := rfl

@[simp]
theorem concatTurns_append (ts ts' : List ChatTurn) :
    concatTurns (ts ++ ts') = concatTurns ts ++ concatTurns ts' := List.flatMap_append

theorem atUser_concatTurns (ts : List ChatTurn) : AtUser (concatTurns ts) := by
  intro m hm
  cases ts with
  | nil => cases hm
  | cons t ts =>
    cases hm
    exact t.isUser

theorem isUser_of_isToolStep {m : Message} (h : m.isToolStep = true) : m.isUser = false := by
  cases m with
  | user content censored => cases h
  | system content => cases h
  | tool toolCallId content => rfl
  | assistant content toolCalls => rfl

theorem isUser_of_isReply {m : Message} (h : m.isReply = true) : m.isUser = false := by
  cases m with
  | user content censored => cases h
  | system content => cases h
  | tool toolCallId content => cases h
  | assistant content toolCalls => rfl

theorem isVisible_of_isToolStep {m : Message} (h : m.isToolStep = true) : m.isVisible = false := by
  cases m with
  | user content censored => cases h
  | system content => cases h
  | tool toolCallId content => rfl
  | assistant content toolCalls =>
    cases toolCalls with
    | none => cases h
    | some calls => rfl

/-- Only the first message of a turn is a user message. -/
theorem ChatTurn.rest_not_user (t : ChatTurn) : ∀ m ∈ t.steps ++ t.reply.toList, m.isUser = false := by
  intro m hm
  rcases List.mem_append.1 hm with hm | hm
  · exact isUser_of_isToolStep (t.isToolStep m hm)
  · exact isUser_of_isReply (t.isReply m (Option.mem_toList.1 hm))

/-- A turn has at most two visible messages. -/
theorem ChatTurn.visibleCount_le (t : ChatTurn) : visibleCount t.messages ≤ 2 := by
  have hsteps : t.steps.countP Message.isVisible = 0 := by
    refine List.countP_eq_zero.2 fun m hm => ?_
    rw [isVisible_of_isToolStep (t.isToolStep m hm)]
    exact Bool.false_ne_true
  have hreply : t.reply.toList.countP Message.isVisible ≤ 1 := by
    refine List.countP_le_length.trans ?_
    cases t.reply with
    | none => exact Nat.zero_le 1
    | some m => exact le_rfl
  show (t.user :: (t.steps ++ t.reply.toList)).countP Message.isVisible ≤ 2
  rw [List.countP_cons, List.countP_append, if_pos (isVisible_of_isUser t.isUser)]
  omega

theorem visibleCount_concatTurns (ts : List ChatTurn) :
    visibleCount (concatTurns ts) = total (fun t => visibleCount t.messages) ts := by
  induction ts with
  | nil => rfl
  | cons t ts ih =>
    rw [total_cons, ← ih]
    exact List.countP_append

/-! ## Trimming drops turns -/

theorem dropToUser_turn {pre : List Message} (hpre : ∀ m ∈ pre, m.isUser = false)
    {rest : List Message} (hrest : AtUser rest) (count : Int) :
    (dropToUser (pre ++ rest) count).1 = rest := by
  induction pre generalizing count with
  | nil =>
    cases rest with
    | nil => rfl
    | cons m ms =>
      rw [List.nil_append, dropToUser, if_pos (hrest m rfl)]
  | cons m pre ih =>
    have hm : ¬m.isUser = true := by
      rw [hpre m List.mem_cons_self]
      exact Bool.false_ne_true
    rw [List.cons_append, dropToUser, if_neg hm]
    exact ih (fun m' hm' => hpre m' (List.mem_cons_of_mem m hm')) _

/-- An iteration drops exactly the first turn. -/
theorem dropTurn_turn (t : ChatTurn) (ts : List ChatTurn) (count : Int) :
    (dropTurn t.user (t.steps ++ t.reply.toList ++ concatTurns ts) count).1 = concatTurns ts := by
  rw [dropTurn, if_pos t.isUser]
  exact dropToUser_turn t.rest_not_user (atUser_concatTurns ts) _

/-- The loop keeps the counter at the number of visible messages, so it drops turns until the rest
is within the limit. -/
theorem trimLoop_concatTurns {maxMessages : Int} {fuel : ℕ} (ts : List ChatTurn)
    (hfuel : (concatTurns ts).length ≤ fuel) :
    trimLoop maxMessages fuel (concatTurns ts) (visibleCount (concatTurns ts)) =
      concatTurns (recent (fun t => visibleCount t.messages) maxMessages ts) := by
  induction ts generalizing fuel with
  | nil => cases fuel <;> rfl
  | cons t ts ih =>
    have hcount := visibleCount_concatTurns (t :: ts)
    rw [recent, ← hcount]
    cases fuel with
    | zero => cases hfuel
    | succ fuel =>
      rw [concatTurns_cons] at hfuel ⊢
      generalize hcur : (visibleCount (t.user :: (t.steps ++ t.reply.toList ++ concatTurns ts)) : Int)
        = count
      rw [trimLoop]
      split_ifs with hc
      · have hdrop := dropTurn_turn t ts count
        have hlen : (concatTurns ts).length ≤ fuel := by
          rw [List.length_cons, List.length_append] at hfuel
          omega
        have hcount' : (dropTurn t.user (t.steps ++ t.reply.toList ++ concatTurns ts) count).2 =
            visibleCount (concatTurns ts) := by
          have h := dropTurn_count t.user (t.steps ++ t.reply.toList ++ concatTurns ts) count
          rw [hdrop] at h
          simp only [visibleCount] at hcur ⊢
          omega
        rw [hdrop, hcount']
        exact ih hlen
      · rfl

/-- **Trimming turns** keeps the longest run of recent turns that is within the limit. -/
theorem trim_concatTurns (maxMessages : Int) (ts : List ChatTurn) :
    trim maxMessages (concatTurns ts) =
      concatTurns (recent (fun t => visibleCount t.messages) maxMessages ts) :=
  trimLoop_concatTurns ts le_rfl

/-- The longest run of turns within the limit has the longest run of messages. -/
theorem keepsRecent_of_isLongest {maxMessages : Int} {ts kept : List ChatTurn}
    (h : IsLongest (fun t => visibleCount t.messages) maxMessages ts kept) :
    KeepsRecent maxMessages ts (concatTurns kept) where
  atTurn := ⟨kept, h.suffix, rfl⟩
  within := by
    rw [visibleCount_concatTurns]
    exact h.within
  longest := by
    rintro msgs' ⟨ts', hts', rfl⟩ hw
    rw [visibleCount_concatTurns] at hw
    have hlen := h.longest ts' hts' hw
    obtain ⟨older, holder⟩ := List.suffix_of_suffix_length_le hts' h.suffix hlen
    rw [← holder, concatTurns_append]
    exact List.suffix_append _ _

/-- The latest turn is within every limit of at least two. -/
theorem latest_suffix {maxMessages : Int} (hmax : 2 ≤ maxMessages) {ts : List ChatTurn} {t : ChatTurn}
    (ht : t ∈ ts.getLast?) {msgs : List Message} (h : KeepsRecent maxMessages ts msgs) :
    t.messages <:+ msgs := by
  obtain ⟨older, rfl⟩ := List.getLast?_eq_some_iff.1 ht
  have hone : concatTurns [t] = t.messages := List.append_nil _
  have hle := t.visibleCount_le
  refine h.longest t.messages ⟨[t], List.suffix_append older [t], hone.symm⟩ ?_
  omega

/-! ## The store -/

/-- The messages that the store holds for a guest. -/
def ConversationStore.messagesOf (store : ConversationStore) (guestId : String) : List Message :=
  ((store.get guestId).map Conversation.messages).getD []

theorem getMessages_eq (store : ConversationStore) (guestId : String) (now : ℚ) :
    (store.getMessages guestId now).2 = store.messagesOf guestId := by
  unfold ConversationStore.getMessages ConversationStore.messagesOf
  cases store.get guestId with
  | none => rfl
  | some entry => rfl

theorem ConversationStore.get_guestId {store : ConversationStore} {guestId : String}
    {c : Conversation} (h : store.get guestId = some c) : c.guestId = guestId :=
  ((Keyed.find_iff store.guestKey).1 h).2

theorem ConversationStore.get_modify (store : ConversationStore) (guestId guestId' : String)
    (f : Conversation → Conversation) (hf : ∀ c, (f c).guestId = c.guestId) :
    (store.modify guestId f hf).get guestId' =
      (store.get guestId').map fun c => if c.guestId = guestId then f c else c := by
  refine Keyed.find_map (fun c => ?_) store.conversations guestId'
  split_ifs
  · exact hf c
  · rfl

theorem ConversationStore.get_setDefault (store : ConversationStore) (guestId guestId' : String)
    (now : ℚ) : (store.setDefault guestId now).get guestId' =
      (store.get guestId').or (if guestId = guestId' then some ⟨guestId, [], now⟩ else none) := by
  unfold ConversationStore.setDefault
  split_ifs with hk he he
  · obtain ⟨c, hc, hg⟩ := List.mem_map.1 hk
    have hget : store.get guestId' = some c := (Keyed.find_iff store.guestKey).2 ⟨hc, hg.trans he⟩
    rw [hget]
    rfl
  · rw [Option.or_none]
  · show List.find? _ (_ ++ [_]) = _
    rw [List.find?_append, List.find?_cons_of_pos (by simpa using he)]
    rfl
  · show List.find? _ (_ ++ [_]) = _
    rw [List.find?_append, List.find?_cons_of_neg (by simpa using he)]
    rfl

/-- An `append` extends and trims the messages of its guest and leaves the others alone. -/
theorem messagesOf_append (store : ConversationStore) (guestId guestId' : String)
    (messages : List Message) (now : ℚ) :
    (store.append guestId messages now).messagesOf guestId' =
      if guestId = guestId' then trim store.maxMessages (store.messagesOf guestId' ++ messages)
      else store.messagesOf guestId' := by
  have hkey : ∀ c, (Conversation.extend store.maxMessages messages now c).guestId = c.guestId :=
    fun _ => rfl
  have heq : store.append guestId messages now = (store.setDefault guestId now).modify guestId
      (Conversation.extend store.maxMessages messages now) hkey := rfl
  unfold ConversationStore.messagesOf
  rw [heq, ConversationStore.get_modify, ConversationStore.get_setDefault]
  cases hget : store.get guestId' with
  | none =>
    split_ifs with he
    · simp [Conversation.extend]
    · rfl
  | some c =>
    have hc := ConversationStore.get_guestId hget
    split_ifs with he
    · simp [Conversation.extend, hc, he]
    · simp [hc, Ne.symm he]

theorem maxMessages_append (store : ConversationStore) (guestId : String)
    (messages : List Message) (now : ℚ) :
    (store.append guestId messages now).maxMessages = store.maxMessages := by
  show (store.setDefault guestId now).maxMessages = store.maxMessages
  unfold ConversationStore.setDefault
  split_ifs with hk
  · rfl
  · rfl

/-! ## Runs of appends -/

theorem turnsOf_concat (guestId : String) (appends : List TurnAppend) (a : TurnAppend) :
    turnsOf guestId (appends ++ [a]) =
      turnsOf guestId appends ++ if a.guestId = guestId then [a.turn] else [] := by
  unfold turnsOf
  rw [List.filter_append, List.map_append]
  split_ifs with h
  · rw [List.filter_cons_of_pos (by simpa using h)]
    rfl
  · rw [List.filter_cons_of_neg (by simpa using h)]
    rfl

/-- After any appends, a guest's conversation holds the recent turns. -/
theorem appends_messagesOf (maxMessages ttl maxConversations : Int) (guestId : String)
    (appends : List TurnAppend) :
    let store := appends.foldl ConversationStore.appendTurn
      (ConversationStore.init maxMessages ttl maxConversations)
    store.maxMessages = maxMessages ∧ store.messagesOf guestId =
      concatTurns (recent (fun t => visibleCount t.messages) maxMessages
        (turnsOf guestId appends)) := by
  induction appends using List.reverseRecOn with
  | nil => exact ⟨rfl, rfl⟩
  | append_singleton appends a ih =>
    obtain ⟨hmax, hmsgs⟩ := ih
    rw [List.foldl_concat]
    refine ⟨(maxMessages_append _ _ _ _).trans hmax, ?_⟩
    rw [ConversationStore.appendTurn, messagesOf_append, hmax, hmsgs, turnsOf_concat]
    split_ifs with he
    · have hone : concatTurns [a.turn] = a.turn.messages := List.append_nil _
      rw [← hone, ← concatTurns_append, trim_concatTurns, recent_append]
    · rw [List.append_nil]

/-- **Whole recent turns**: for every limit of at least two and every sequence of appends of turns, what
the store holds for a guest is exactly the longest suffix of the guest's turns that starts at a turn
boundary and has at most that many visible messages. It is empty or starts with a user message, it
has the latest turn complete, and every trimming on the way ends. -/
theorem store_keeps_recent_turns (maxMessages ttl maxConversations : Int) (hmax : 2 ≤ maxMessages)
    (guestId : String) (appends : List TurnAppend) (now : ℚ) :
    let store := appends.foldl ConversationStore.appendTurn
      (ConversationStore.init maxMessages ttl maxConversations)
    let stored := (store.getMessages guestId now).2
    KeepsRecent maxMessages (turnsOf guestId appends) stored ∧
      AtUser stored ∧
      (∀ t ∈ (turnsOf guestId appends).getLast?, t.messages <:+ stored) ∧
      ∀ msgs, TrimEnds maxMessages msgs (visibleCount msgs) (trim maxMessages msgs) := by
  intro store stored
  have hstored : stored = concatTurns (recent (fun t => visibleCount t.messages) maxMessages
      (turnsOf guestId appends)) := by
    show (store.getMessages guestId now).2 = _
    rw [getMessages_eq]
    exact (appends_messagesOf maxMessages ttl maxConversations guestId appends).2
  have hkeeps : KeepsRecent maxMessages (turnsOf guestId appends) stored := by
    rw [hstored]
    exact keepsRecent_of_isLongest (recent_isLongest (by omega) _)
  refine ⟨hkeeps, ?_, fun t ht => latest_suffix hmax ht hkeeps, trim_ends maxMessages⟩
  rw [hstored]
  exact atUser_concatTurns _

/-- A turn with a reply. -/
def answeredTurn : ChatTurn where
  user := .user "hello" false
  steps := []
  reply := some (.assistant (some "squawk") none)
  isUser := rfl
  isToolStep := by decide
  isReply := by decide

/-- A turn whose chat failed before the reply. -/
def failedTurn : ChatTurn where
  user := .user "any news" false
  steps := []
  reply := none
  isUser := rfl
  isToolStep := by decide
  isReply := by decide

theorem answeredTurn_makes_room :
    let store := [⟨"ann", answeredTurn, 0⟩, ⟨"bob", answeredTurn, 1⟩, ⟨"ann", failedTurn, 2⟩].foldl
      ConversationStore.appendTurn (ConversationStore.init 2 1800 500)
    (2 : Int) ≤ 2 ∧ (store.getMessages "ann" 3).2 = [.user "any news" false] ∧
      KeepsRecent 2 [answeredTurn, failedTurn] (store.getMessages "ann" 3).2 :=
  ⟨by decide, by decide,
    (store_keeps_recent_turns 2 1800 500 (by decide) "ann"
      [⟨"ann", answeredTurn, 0⟩, ⟨"bob", answeredTurn, 1⟩, ⟨"ann", failedTurn, 2⟩] 3).1⟩

end Parrot
