import Webmeow.Parrot.Proofs.ReplayProofs
import Webmeow.Parrot.Proofs.SummaryProofs

/-!
# Turns of a summary and visible messages

A summary counts an assistant message as a turn unless it has calls, while the history hides every
assistant message that has the key `tool_calls`. They differ on a message whose list of calls is
empty. `chat_stream` never stores one, and `chat` stores one when a completion with the finish
reason `tool_calls` has an empty list.
-/

namespace Parrot

open Runs Interleaving

/-- An assistant message that has the key `tool_calls` and no calls. -/
def Message.isHollow : Message → Bool
  | .assistant _ (some []) => true
  | _ => false

/-- The messages are user messages and final turns, and the visible ones are those of them that are
not hollow. -/
theorem turns_eq (env : AdminEnv) (msgs : List Message) :
    (summarizeConversation env msgs).turns + (summarizeConversation env msgs).assistantTurns =
      msgs.countP Message.isVisible + msgs.countP Message.isHollow := by
  rw [summarizeConversation_eq]
  induction msgs with
  | nil => rfl
  | cons m msgs ih =>
    simp only [List.countP_cons] at ih ⊢
    have hm : (if m.isUser then 1 else 0) + (if m.isFinal then 1 else 0) =
        (if m.isVisible then 1 else 0) + if m.isHollow then 1 else 0 := by
      rcases m with content | ⟨content, censored⟩ | ⟨content, _ | (_ | ⟨call, calls⟩)⟩ |
        ⟨toolCallId, content⟩
      all_goals rfl
    omega

theorem getVisible_of_mem {store : ConversationStore} {c : Conversation}
    (hc : c ∈ store.conversations) :
    store.getVisible c.guestId = c.messages.filter Message.isVisible := by
  have hget : store.get c.guestId = some c := Keyed.find_of_mem store.guestKey hc
  rw [ConversationStore.getVisible, hget]

/-! ## Stored messages -/

/-- No hollow message is stored. -/
def ConversationStore.Solid (store : ConversationStore) : Prop :=
  store.Each fun msgs => ∀ m ∈ msgs, m.isHollow = false

/-- No more visible messages are stored of a conversation than the cap allows. -/
def ConversationStore.Capped (store : ConversationStore) : Prop :=
  store.Each fun msgs =>
    msgs = [] ∨ (msgs.countP Message.isVisible : Int) ≤ store.maxMessages

theorem loadHistory_solid {store : ConversationStore} (h : store.Solid) (req : ChatRequest)
    (now : ℚ) : (loadHistory store req now).1.Solid := by
  unfold loadHistory
  cases req.session with
  | none => exact h
  | some guestId =>
    exact (ConversationStore.Each.getMessages h (fun _ hm => absurd hm List.not_mem_nil) guestId
      now).1

theorem persist_solid {store : ConversationStore} (h : store.Solid) {req : ChatRequest}
    {turn : Turn} (now : ℚ)
    (ht : req.session.isSome = true → ∀ m ∈ turn.newMessages, m.isHollow = false) :
    (persist store req turn now).Solid := by
  unfold persist
  cases hs : req.session with
  | none => exact h
  | some guestId =>
    refine ConversationStore.Each.append h (fun _ hm => absurd hm List.not_mem_nil) guestId now
      fun msgs hmsgs m hm => ?_
    rcases List.mem_append.1 (mem_of_mem_trim hm) with hm | hm
    · exact hmsgs m hm
    · exact ht (by rw [hs]; rfl) m hm

/-- The cap is kept whatever a request stores. -/
theorem capped_invariant (req : ChatRequest) : StoreInvariant req ConversationStore.Capped where
  loads store now h := by
    unfold loadHistory
    cases req.session with
    | none => exact h
    | some guestId =>
      have hmax : (store.getMessages guestId now).1.maxMessages = store.maxMessages := by
        unfold ConversationStore.getMessages
        cases store.get guestId with
        | none => rfl
        | some entry => rfl
      have hget := (ConversationStore.Each.getMessages h (Or.inl rfl) guestId now).1
      rwa [← hmax] at hget
  persists store turn now h := by
    unfold persist
    cases req.session with
    | none => exact h
    | some guestId =>
      have hmax : (store.append guestId turn.newMessages now).maxMessages = store.maxMessages := by
        have hset : (store.setDefault guestId now).maxMessages = store.maxMessages := by
          unfold ConversationStore.setDefault
          split_ifs <;> rfl
        exact hset
      have happend := h.append (Or.inl rfl) guestId now fun msgs _ =>
        trim_within store.maxMessages (msgs ++ turn.newMessages)
      rwa [← hmax] at happend

/-! ## Turns under way -/

/-- What is to be persisted for the guest has no hollow message. -/
def Turn.Solid (req : ChatRequest) (turn : Turn) : Prop :=
  req.session.isSome = true → ∀ m ∈ turn.newMessages, m.isHollow = false

section Turns

variable {req : ChatRequest} {turn : Turn}

theorem Turn.Solid.push (h : turn.Solid req) {m : Message}
    (hm : req.session.isSome = true → m.isHollow = false) : (turn.push m).Solid req := by
  intro hs m' hm'
  rcases List.mem_append.1 hm' with hm' | hm'
  · exact h hs m' hm'
  · rw [List.mem_singleton.1 hm']
    exact hm hs

theorem Turn.Solid.reply (h : turn.Solid req) (reply : String) : (turn.reply reply).Solid req :=
  h.push (m := .assistant (some reply) none) fun _ => rfl

theorem assemble_solid (app : App) (req : ChatRequest) (history : List Message) :
    (app.assemble req history).Solid req := by
  intro _ m hm
  rw [List.mem_singleton.1 hm]
  rfl

end Turns

/-- The completion makes a `chat` of a guest push a message with no calls. -/
def Thread.emptyRound (t : Thread) (x : Stimulus) : Bool :=
  match t, x with
  | .chat req _, .completion c =>
    req.session.isSome && decide (c.finishReason = "tool_calls") && decide (c.toolCalls = some [])
  | _, _ => false

/-- What a suspended `chat` has built. -/
def ChatPc.Solid (req : ChatRequest) : ChatPc → Prop
  | .create turn _ => turn.Solid req
  | .runTool turn _ _ _ => turn.Solid req
  | _ => True

section Chat

variable {store : ConversationStore} {req : ChatRequest} {turn : Turn}

theorem chatReturn_solid (hs : store.Solid) (ht : turn.Solid req) (reply : String) (now : ℚ) :
    (chatReturn store req turn reply now).1.Solid ∧
      (chatReturn store req turn reply now).2.Solid req :=
  ⟨persist_solid hs now (ht.reply reply), trivial⟩

theorem chatRound_solid (hs : store.Solid) (ht : turn.Solid req) (now : ℚ) (left : ℕ) :
    (chatRound store req turn now left).1.Solid ∧ (chatRound store req turn now left).2.Solid req := by
  cases left with
  | zero => exact chatReturn_solid hs ht FALLBACK now
  | succ left => exact ⟨hs, ht⟩

theorem chatCalls_solid (hs : store.Solid) (ht : turn.Solid req) (calls : List ToolCall) (now : ℚ)
    (left : ℕ) : (chatCalls store req turn now left calls).1.Solid ∧
      (chatCalls store req turn now left calls).2.Solid req := by
  cases calls with
  | nil => exact chatRound_solid hs ht now left
  | cons call rest => exact ⟨hs, ht⟩

theorem chatCompletion_solid (hs : store.Solid) (ht : turn.Solid req) (now : ℚ) (left : ℕ)
    {c : Completion} (hc : req.session.isSome = true → c.finishReason = "tool_calls" →
      c.toolCalls ≠ some []) : (chatCompletion store req turn now left c).1.Solid ∧
      (chatCompletion store req turn now left c).2.Solid req := by
  unfold chatCompletion
  split_ifs with hw
  · split
    · exact ⟨hs, trivial⟩
    · rename_i calls hcalls
      refine chatCalls_solid hs (ht.push fun hreq => ?_) calls now left
      cases calls with
      | cons call calls => rfl
      | nil =>
        -- an empty list counts as a round of tools only by the finish reason
        have hreason : c.finishReason = "tool_calls" := by
          simpa [Completion.wantsTools, hcalls] using hw
        exact absurd hcalls (hc hreq hreason)
  · exact chatReturn_solid hs ht _ now

theorem chatStep_solid {app : App} {x : Input} {pc : ChatPc} {q : ConversationStore × ChatPc}
    (hs : store.Solid) (hpc : pc.Solid req)
    (hx : (Thread.chat req pc).emptyRound x.stimulus = false)
    (h : chatStep app store req x pc = some q) : q.1.Solid ∧ q.2.Solid req := by
  have hmove := chatStep_move h
  generalize x.stimulus = stimulus at hmove hx
  cases hmove with
  | entered =>
    exact chatRound_solid (loadHistory_solid hs req x.now) (assemble_solid app req _) x.now
      MAX_TOOL_ROUNDS
  | completed turn left c =>
    refine chatCompletion_solid hs hpc x.now left fun hreq hreason hcalls => ?_
    simp [Thread.emptyRound, hreq, hreason, hcalls] at hx
  | returned turn left call rest content =>
    exact chatCalls_solid hs (Turn.Solid.push hpc fun _ => rfl) rest x.now left
  | raised => exact ⟨hs, trivial⟩
  | cancelled => exact ⟨hs, trivial⟩

end Chat

/-! ## Streams -/

/-- What a suspended `chat_stream` has built. -/
def StreamPc.Solid (req : ChatRequest) (pc : StreamPc) : Prop :=
  ∀ st, pc.state = some st → st.turn.Solid req

section Stream

variable {store : ConversationStore} {req : ChatRequest} {st : StreamState}

theorem StreamPc.Solid.of_state {pc : StreamPc} (hst : pc.state = some st)
    (ht : st.turn.Solid req) : pc.Solid req := by
  intro st' hst'
  rw [hst] at hst'
  cases hst'
  exact ht

theorem streamRound_solid (ht : st.turn.Solid req) (left : ℕ) :
    (streamRound st left).Solid req := by
  cases left with
  | zero => exact .of_state rfl (ht.reply FALLBACK)
  | succ left => exact .of_state rfl ht

theorem streamCalls_solid (ht : st.turn.Solid req) (left : ℕ) (calls : List ToolCall) :
    (streamCalls st left calls).Solid req := by
  cases calls with
  | nil => exact streamRound_solid ht left
  | cons call rest => exact .of_state rfl ht

theorem streamChunk_solid (ht : st.turn.Solid req) (left : ℕ) (contentParts : List String)
    (fragments : List Fragment) (delta : Delta) :
    (streamChunk st left contentParts fragments delta).Solid req := by
  unfold streamChunk
  split
  · exact .of_state rfl ht
  · exact .of_state rfl ht

theorem callsOf_ne_nil {fragments : List Fragment} (h : fragments ≠ []) : callsOf fragments ≠ [] := by
  intro hnil
  have hlen := congrArg List.length hnil
  rw [callsOf, List.length_map, List.length_insertionSort] at hlen
  exact h (List.eq_nil_of_length_eq_zero hlen)

/-- A round of tools is pushed with the fragments that made it one. -/
theorem streamEnded_solid (ht : st.turn.Solid req) (left : ℕ) (contentParts : List String)
    (fragments : List Fragment) : (streamEnded st left contentParts fragments).Solid req := by
  unfold streamEnded
  split_ifs with hf
  · exact .of_state rfl (ht.reply _)
  · refine streamCalls_solid (ht.push fun _ => ?_) left _
    cases hcalls : callsOf fragments with
    | nil => exact absurd hcalls (callsOf_ne_nil (by simpa using hf))
    | cons call calls => rfl

variable {app : App} {pc : StreamPc} {q : ConversationStore × StreamPc}

theorem streamFinally_solid (hs : store.Solid) (ht : st.turn.Solid req) (now : ℚ) :
    (streamFinally store req st now).1.Solid ∧ (streamFinally store req st now).2.Solid req :=
  ⟨persist_solid hs now ht, fun _ hst => by cases hst⟩

theorem streamStep_solid {x : Input} (hs : store.Solid) (hpc : pc.Solid req)
    (h : streamStep app store req x pc = some q) : q.1.Solid ∧ q.2.Solid req := by
  have hmove := streamStep_move h
  generalize x.stimulus = stimulus at hmove
  cases hmove with
  | entered => exact ⟨loadHistory_solid hs req x.now, fun _ hst => by cases hst⟩
  | started history =>
    exact ⟨hs, streamRound_solid (assemble_solid app req history) MAX_TOOL_ROUNDS⟩
  | opened st left => exact ⟨hs, .of_state rfl (hpc st rfl)⟩
  | noDelta st left parts fragments => exact ⟨hs, hpc⟩
  | delta st left parts fragments d =>
    exact ⟨hs, streamChunk_solid (hpc st rfl) left parts fragments d⟩
  | tokenSent st left parts fragments calls => exact ⟨hs, .of_state rfl (hpc st rfl)⟩
  | ended st left parts fragments => exact ⟨hs, streamEnded_solid (hpc st rfl) left parts fragments⟩
  | callSent st left call rest => exact ⟨hs, .of_state rfl (hpc st rfl)⟩
  | returned st left call rest content => exact ⟨hs, .of_state rfl (hpc st rfl)⟩
  | resultSent st left call rest content =>
    exact ⟨hs, streamCalls_solid ((hpc st rfl).push fun _ => rfl) left rest⟩
  | fallbackSent st => exact ⟨hs, .of_state rfl (hpc st rfl)⟩
  | doneSent st => exact ⟨hs, .of_state rfl (hpc st rfl)⟩
  | markerSent st => exact streamFinally_solid hs (hpc st rfl) x.now
  | errorSent st => exact streamFinally_solid hs (hpc st rfl) x.now
  | createRaised st left => exact ⟨hs, .of_state rfl (hpc st rfl)⟩
  | receiveRaised st left parts fragments => exact ⟨hs, .of_state rfl (hpc st rfl)⟩
  | toolRaised st left call rest => exact ⟨hs, .of_state rfl (hpc st rfl)⟩
  | closed hst => exact ⟨hs, fun _ hst => by cases hst⟩
  | cancelled hst => exact streamFinally_solid hs (hpc _ hst) x.now

end Stream

/-! ## Runs of the service -/

/-- The event gives a `chat` of some guest a completion that asks for tools and names none: the
finish reason is `tool_calls` and the list of calls is empty. -/
def emptyRound (p : System) : Event Request Input → Bool
  | .request _ => false
  | .advance i x =>
    match p.threads[i]? with
    | none => false
    | some t => t.emptyRound x.stimulus

/-- What a thread stores is solid. -/
def Thread.Solid : Thread → Prop
  | .chat req pc => pc.Solid req
  | .chatStream req pc => pc.Solid req
  | .cleanup _ => True

theorem start_solid (r : Request) : (start r).Solid := by
  cases r with
  | chat req => trivial
  | chatStream req => exact fun _ hst => by cases hst
  | cleanup => trivial

theorem act_solid {app : App} {store store' : ConversationStore} {t t' : Thread} {x : Input}
    (hs : store.Solid) (ht : t.Solid) (hx : t.emptyRound x.stimulus = false)
    (h : act app store t x = some (store', t')) : store'.Solid ∧ t'.Solid := by
  cases t with
  | chat req pc =>
    obtain ⟨⟨s1, pc1⟩, hq, he⟩ := Option.map_eq_some_iff.1 h
    cases he
    exact chatStep_solid hs ht hx hq
  | chatStream req pc =>
    obtain ⟨⟨s1, pc1⟩, hq, he⟩ := Option.map_eq_some_iff.1 h
    cases he
    exact streamStep_solid hs ht hq
  | cleanup finished =>
    simp only [act] at h
    split_ifs at h with hf
    cases h
    exact ⟨ConversationStore.Each.cleanup hs x.now, trivial⟩

theorem step_solid (app : App) (p : System) (e : Event Request Input) (p' : System)
    (h : p.store.Solid ∧ ∀ t ∈ p.threads, t.Solid) (he : emptyRound p e = false)
    (hs : step app p e = some p') : p'.store.Solid ∧ ∀ t ∈ p'.threads, t.Solid := by
  refine Pool.guarded_step (P := ConversationStore.Solid) (Q := fun _ t => t.Solid)
    (G := fun _ t x => t.emptyRound x.stimulus = false) (fun _ r _ => start_solid r) ?_ p e p' h ?_ hs
  · intro s t x s' t' hP hQ hG ha
    obtain ⟨hP', hQ'⟩ := act_solid hP hQ hG ha
    exact ⟨hP', hQ', fun _ hu => hu⟩
  · rintro i x t rfl hi
    simpa only [emptyRound, hi] using he

/-- Of every conversation the turns that the summary counts are as many as the visible messages,
and these are what the cap is about. -/
def ConversationStore.CountsVisible (env : AdminEnv) (store : ConversationStore) : Prop :=
  ∀ c ∈ store.conversations,
    (summarizeConversation env c.messages).turns +
        (summarizeConversation env c.messages).assistantTurns =
      (store.getVisible c.guestId).length ∧
    (c.messages = [] ∨ ((store.getVisible c.guestId).length : Int) ≤ store.maxMessages)

instance (env : AdminEnv) (store : ConversationStore) : Decidable (store.CountsVisible env) :=
  inferInstanceAs (Decidable (∀ c ∈ store.conversations, _ ∧ (c.messages = [] ∨ _)))

/-- The summaries of a store within its cap count the visible messages exactly if no hollow message is
stored. -/
theorem countsVisible_iff {store : ConversationStore} (h : store.Capped) (env : AdminEnv) :
    store.CountsVisible env ↔ store.Solid := by
  refine forall₂_congr fun c hc => ?_
  have hvisible : (store.getVisible c.guestId).length = c.messages.countP Message.isVisible := by
    rw [getVisible_of_mem hc, ← List.countP_eq_length_filter]
  rw [turns_eq, hvisible, and_iff_left (h c hc), Nat.add_eq_left, List.countP_eq_zero]
  simp only [Bool.not_eq_true]

theorem step_capped (app : App) (p : System) (e : Event Request Input) (p' : System)
    (h : p.store.Capped) (hs : step app p e = some p') : p'.store.Capped := by
  have hact : ∀ s t x s' t', ConversationStore.Capped s → True → act app s t x = some (s', t') →
      ConversationStore.Capped s' ∧ True ∧ ∀ _ : Thread, True → True := by
    intro s t x s' t' h _ ha
    refine ⟨?_, trivial, fun _ _ => trivial⟩
    cases t with
    | chat req pc =>
      obtain ⟨q, hq, he⟩ := Option.map_eq_some_iff.1 ha
      cases he
      exact (capped_invariant req).chatStep h hq
    | chatStream req pc =>
      obtain ⟨q, hq, he⟩ := Option.map_eq_some_iff.1 ha
      cases he
      exact (capped_invariant req).streamStep h hq
    | cleanup finished =>
      simp only [act] at ha
      split_ifs at ha
      cases ha
      exact ConversationStore.Each.cleanup h x.now
  exact (Pool.invariant_step (P := ConversationStore.Capped) (Q := fun _ _ => True)
    (fun _ _ _ => trivial) hact p e p' ⟨h, fun _ _ => trivial⟩ hs).1

/-- **Counted turns are visible**: in a run in which no completion asks for tools and names none,
the summary of every stored conversation counts as many turns as it has visible messages, in every
state. And in every state of any run they do so exactly if no hollow message is stored. -/
theorem turns_match_visible (env : AdminEnv) (app : App) (maxMessages ttl maxConversations : Int)
    (es : List (Event Request Input)) :
    (Throughout (step app) (fun p e => emptyRound p e = false)
        (System.initial maxMessages ttl maxConversations) es →
      Always (step app) (fun p => p.store.CountsVisible env)
        (System.initial maxMessages ttl maxConversations) es) ∧
    Always (step app) (fun p => p.store.CountsVisible env ↔ p.store.Solid)
      (System.initial maxMessages ttl maxConversations) es := by
  have hcapped : Always (step app) (fun p => p.store.Capped)
      (System.initial maxMessages ttl maxConversations) es :=
    always_of_invariant (fun p e p' => step_capped app p e p') fun _ hc => absurd hc List.not_mem_nil
  refine ⟨fun h => ?_, hcapped.imp fun _ hp => countsVisible_iff hp env⟩
  have hsolid : Always (step app) (fun p => p.store.Solid ∧ ∀ t ∈ p.threads, t.Solid)
      (System.initial maxMessages ttl maxConversations) es :=
    always_of_throughout (step_solid app)
      ⟨fun _ hc => absurd hc List.not_mem_nil, fun _ ht => absurd ht List.not_mem_nil⟩ h
  exact (hcapped.and hsolid).imp fun _ hp => (countsVisible_iff hp.1 env).2 hp.2.1

section EmptyRound

/-- An environment that finds no mask and no JSON. -/
def plainEnv : AdminEnv := ⟨fun _ => false, fun _ => none⟩

/-- A chat that answers after a round of one tool. -/
def answeredChat : List (Event Request Input) :=
  [.request (.chat question), at0 .resumed,
    at0 (.completion ⟨"tool_calls", none, some [⟨"call_a", some "get_hotel_rooms", ""⟩]⟩),
    at0 (.toolReturned "[]"), at0 (.completion ⟨"stop", some "None are.", none⟩)]

/-- A chat that answers after a round of no tools. -/
def emptyRoundChat : List (Event Request Input) :=
  [.request (.chat question), at0 .resumed, at0 (.completion ⟨"tool_calls", none, some []⟩),
    at0 (.completion ⟨"stop", some "None are.", none⟩)]

theorem answeredChat_matches :
    Always (step plainApp) (fun p => p.store.CountsVisible plainEnv) (System.initial 20 1800 500)
      answeredChat :=
  (turns_match_visible plainEnv plainApp 20 1800 500 answeredChat).1 (by decide)

/-- The summary counts three turns of a conversation with two visible messages. -/
theorem emptyRoundChat_miscounts :
    ∃ p, run (step plainApp) (System.initial 20 1800 500) emptyRoundChat = some p ∧
      ¬ p.store.CountsVisible plainEnv :=
  ⟨_, rfl, by decide⟩

end EmptyRound

end Parrot
