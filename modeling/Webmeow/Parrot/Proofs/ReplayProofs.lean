import Webmeow.Parrot.Proofs.HistoryProofs
import Webmeow.Parrot.Proofs.MoveProofs

/-!
# The stored history under failures and disconnects

`/chat` persists a turn only when it is complete. `/chat/stream` persists in a `finally` block what
the turn has reached by then, and between an assistant message with tool calls and the last of its
results that is an open group. The histories stay replayable in every run that is not interrupted
there.
-/

namespace Parrot

open Groups Runs Interleaving

/-! ## Turns -/

/-- Both lists of the turn end in a group of which the calls `ids` are not answered yet, and the
user message is the only visible one to persist. -/
structure Turn.Expects (turn : Turn) (ids : List String) : Prop where
  /-- The ids are left to be answered in the messages. -/
  messages : pending Message.kind [] turn.messages = some ids
  /-- The ids are left to be answered in the new ones. -/
  newMessages : pending Message.kind [] turn.newMessages = some ids
  /-- The turn opens with the guest, and nothing else in it is visible yet. -/
  opening : ∃ u rest, turn.newMessages = u :: rest ∧ u.isUser = true ∧
    ∀ m ∈ rest, m.isVisible = false

theorem Turn.Expects.push {turn : Turn} {ids ids' : List String} {m : Message}
    (h : turn.Expects ids) (hm : next ids m.kind = some ids') (hv : m.isVisible = false) :
    (turn.push m).Expects ids' where
  messages := (pending_concat h.messages m).trans hm
  newMessages := (pending_concat h.newMessages m).trans hm
  opening := by
    obtain ⟨u, rest, he, hu, hrest⟩ := h.opening
    refine ⟨u, rest ++ [m], congrArg (· ++ [m]) he, hu, fun m' hm' => ?_⟩
    rcases List.mem_append.1 hm' with hm' | hm'
    · exact hrest m' hm'
    · rw [List.mem_singleton.1 hm']
      exact hv

/-- An assistant message with tool calls opens a group. -/
theorem Turn.Expects.calls {turn : Turn} (h : turn.Expects []) (content : Option String)
    (calls : List ToolCall) :
    (turn.push (.assistant content (some calls))).Expects (calls.map ToolCall.id) :=
  h.push rfl rfl

/-- The result of the next call is the message the group waits for. -/
theorem Turn.Expects.result {turn : Turn} {call : ToolCall} {rest : List ToolCall}
    (h : turn.Expects ((call :: rest).map ToolCall.id)) (content : String) :
    (turn.push (.tool call.id content)).Expects (rest.map ToolCall.id) :=
  h.push (if_pos rfl) rfl

theorem Turn.Expects.replayable {turn : Turn} (h : turn.Expects []) :
    Replayable turn.newMessages :=
  grouped_iff_pending.2 h.newMessages

theorem Turn.Expects.reply {turn : Turn} (h : turn.Expects []) (reply : String) :
    Replayable (turn.reply reply).newMessages :=
  h.replayable.concat rfl

theorem assemble_expects (app : App) (req : ChatRequest) {history : List Message}
    (h : Replayable history) : (app.assemble req history).Expects [] where
  messages := by
    have hprompt : Grouped Message.kind (app.assemble req history).messages :=
      .plain rfl (h.concat rfl)
    exact hprompt.pending_eq
  newMessages := rfl
  opening := ⟨_, [], rfl, rfl, fun _ hm => absurd hm List.not_mem_nil⟩

theorem loadHistory_replayable {store : ConversationStore} (h : store.Replayable)
    (req : ChatRequest) (now : ℚ) :
    (loadHistory store req now).1.Replayable ∧ Replayable (loadHistory store req now).2 := by
  unfold loadHistory
  cases req.session with
  | none => exact ⟨h, .nil⟩
  | some guestId => exact h.getMessages guestId now

theorem persist_replayable {store : ConversationStore} (h : store.Replayable) {req : ChatRequest}
    {turn : Turn} (now : ℚ) (ht : req.session.isSome = true → Replayable turn.newMessages) :
    (persist store req turn now).Replayable := by
  unfold persist
  cases hs : req.session with
  | none => exact h
  | some guestId => exact h.append guestId now (ht (by rw [hs]; rfl))

/-! ## `/chat` -/

/-- What a suspended `chat` has built. -/
def ChatPc.Sound : ChatPc → Prop
  | .create turn _ => turn.Expects []
  | .runTool turn _ call rest => turn.Expects ((call :: rest).map ToolCall.id)
  | _ => True

section Chat

variable {store : ConversationStore} {req : ChatRequest} {turn : Turn}

theorem chatReturn_sound (hs : store.Replayable) (ht : turn.Expects []) (reply : String)
    (now : ℚ) : (chatReturn store req turn reply now).1.Replayable ∧
      (chatReturn store req turn reply now).2.Sound :=
  ⟨persist_replayable hs now fun _ => ht.reply reply, trivial⟩

theorem chatRound_sound (hs : store.Replayable) (ht : turn.Expects []) (now : ℚ) (left : ℕ) :
    (chatRound store req turn now left).1.Replayable ∧
      (chatRound store req turn now left).2.Sound := by
  cases left with
  | zero => exact chatReturn_sound hs ht FALLBACK now
  | succ left => exact ⟨hs, ht⟩

theorem chatCalls_sound (hs : store.Replayable) {calls : List ToolCall}
    (ht : turn.Expects (calls.map ToolCall.id)) (now : ℚ) (left : ℕ) :
    (chatCalls store req turn now left calls).1.Replayable ∧
      (chatCalls store req turn now left calls).2.Sound := by
  cases calls with
  | nil => exact chatRound_sound hs ht now left
  | cons call rest => exact ⟨hs, ht⟩

theorem chatCompletion_sound (hs : store.Replayable) (ht : turn.Expects []) (now : ℚ) (left : ℕ)
    (c : Completion) : (chatCompletion store req turn now left c).1.Replayable ∧
      (chatCompletion store req turn now left c).2.Sound := by
  unfold chatCompletion
  split_ifs with hw
  · split
    · exact ⟨hs, trivial⟩
    · exact chatCalls_sound hs (ht.calls c.content _) now left
  · exact chatReturn_sound hs ht _ now

theorem chatStep_sound {app : App} {x : Input} {pc : ChatPc} {q : ConversationStore × ChatPc}
    (hs : store.Replayable) (hpc : pc.Sound) (h : chatStep app store req x pc = some q) :
    q.1.Replayable ∧ q.2.Sound := by
  have hmove := chatStep_move h
  generalize x.stimulus = stimulus at hmove
  cases hmove with
  | entered =>
    obtain ⟨hs', hh⟩ := loadHistory_replayable hs req x.now
    exact chatRound_sound hs' (assemble_expects app req hh) x.now MAX_TOOL_ROUNDS
  | completed turn left c => exact chatCompletion_sound hs hpc x.now left c
  | returned turn left call rest content =>
    exact chatCalls_sound hs (Turn.Expects.result hpc content) x.now left
  | raised => exact ⟨hs, trivial⟩
  | cancelled => exact ⟨hs, trivial⟩

end Chat

/-! ## `/chat/stream` -/

/-- The generator is between an assistant message with tool calls and the last of its results. -/
def StreamPc.groupOpen : StreamPc → Bool
  | .yieldToolCall _ _ _ _ => true
  | .runTool _ _ _ _ => true
  | .yieldToolResult _ _ _ _ _ => true
  | _ => false

/-- The request ends here, by an exception or by a disconnect. -/
def Stimulus.interrupts : Stimulus → Bool
  | .raised => true
  | .cancelled => true
  | _ => false

/-- What a suspended `chat_stream` has built. -/
def StreamPc.Sound (req : ChatRequest) : StreamPc → Prop
  | .ready history => Replayable history
  | .create st _ => st.turn.Expects []
  | .receiving st _ _ _ => st.turn.Expects []
  | .yieldToken st _ _ _ _ => st.turn.Expects []
  | .yieldToolCall st _ call rest => st.turn.Expects ((call :: rest).map ToolCall.id)
  | .runTool st _ call rest => st.turn.Expects ((call :: rest).map ToolCall.id)
  | .yieldToolResult st _ call rest _ => st.turn.Expects ((call :: rest).map ToolCall.id)
  | .yieldFallback st => Replayable st.turn.newMessages
  | .yieldDone st => Replayable st.turn.newMessages
  | .yieldDoneMarker st => Replayable st.turn.newMessages
  -- an exception may cut a group of a request without a guest, which is never persisted
  | .yieldError st => req.session.isSome = true → Replayable st.turn.newMessages
  | _ => True

section Stream

variable {store : ConversationStore} {req : ChatRequest} {st : StreamState}

theorem streamRound_sound (ht : st.turn.Expects []) (left : ℕ) :
    (streamRound st left).Sound req := by
  cases left with
  | zero => exact ht.reply FALLBACK
  | succ left => exact ht

theorem streamCalls_sound {calls : List ToolCall} (ht : st.turn.Expects (calls.map ToolCall.id))
    (left : ℕ) : (streamCalls st left calls).Sound req := by
  cases calls with
  | nil => exact streamRound_sound ht left
  | cons call rest => exact ht

theorem streamChunk_sound (ht : st.turn.Expects []) (left : ℕ) (contentParts : List String)
    (fragments : List Fragment) (delta : Delta) :
    (streamChunk st left contentParts fragments delta).Sound req := by
  unfold streamChunk
  split
  · exact ht
  · exact ht

theorem streamEnded_sound (ht : st.turn.Expects []) (left : ℕ) (contentParts : List String)
    (fragments : List Fragment) : (streamEnded st left contentParts fragments).Sound req := by
  unfold streamEnded
  split_ifs with hf
  · exact ht.reply _
  · exact streamCalls_sound (ht.calls _ _) left

/-- What a sound generator has built can be persisted unless a group is open. -/
theorem StreamPc.Sound.persistable {pc : StreamPc} (h : pc.Sound req) (hst : pc.state = some st)
    (hopen : pc.groupOpen = false) (hreq : req.session.isSome = true) :
    Replayable st.turn.newMessages := by
  cases pc with
  | create st' left => cases hst; exact Turn.Expects.replayable h
  | receiving st' left contentParts fragments => cases hst; exact Turn.Expects.replayable h
  | yieldToken st' left contentParts fragments calls =>
    cases hst; exact Turn.Expects.replayable h
  | yieldToolCall st' left call rest => cases hopen
  | runTool st' left call rest => cases hopen
  | yieldToolResult st' left call rest content => cases hopen
  | yieldFallback st' => cases hst; exact h
  | yieldDone st' => cases hst; exact h
  | yieldDoneMarker st' => cases hst; exact h
  | yieldError st' => cases hst; exact h hreq
  | enter => cases hst
  | ready history => cases hst
  | settled yielded => cases hst

theorem streamFinally_sound (hs : store.Replayable)
    (ht : req.session.isSome = true → Replayable st.turn.newMessages) (now : ℚ) :
    (streamFinally store req st now).1.Replayable ∧
      (streamFinally store req st now).2.Sound req :=
  ⟨persist_replayable hs now ht, trivial⟩

variable {app : App} {pc : StreamPc} {q : ConversationStore × StreamPc}

/-- An exception outside of a group leaves what can be persisted. -/
theorem streamExcept_sound (hpc : pc.Sound req) (hst : pc.state = some st)
    (hopen : req.session.isSome = true → pc.groupOpen = false) : (streamExcept st).Sound req := by
  intro hreq
  have hp : Replayable st.turn.newMessages := hpc.persistable hst (hopen hreq) hreq
  exact hp

/-- One step of a stream that is not interrupted while a group is open. -/
theorem streamStep_sound {x : Input} (hs : store.Replayable) (hpc : pc.Sound req)
    (hopen : x.stimulus.interrupts = true → req.session.isSome = true → pc.groupOpen = false)
    (h : streamStep app store req x pc = some q) :
    q.1.Replayable ∧ q.2.Sound req := by
  have hmove := streamStep_move h
  generalize x.stimulus = stimulus at hmove hopen
  cases hmove with
  | entered => exact loadHistory_replayable hs req x.now
  | started history => exact ⟨hs, streamRound_sound (assemble_expects app req hpc) MAX_TOOL_ROUNDS⟩
  | opened st left => exact ⟨hs, hpc⟩
  | noDelta st left parts fragments => exact ⟨hs, hpc⟩
  | delta st left parts fragments d => exact ⟨hs, streamChunk_sound hpc left parts fragments d⟩
  | tokenSent st left parts fragments calls => exact ⟨hs, hpc⟩
  | ended st left parts fragments => exact ⟨hs, streamEnded_sound hpc left parts fragments⟩
  | callSent st left call rest => exact ⟨hs, hpc⟩
  | returned st left call rest content => exact ⟨hs, hpc⟩
  | resultSent st left call rest content =>
    exact ⟨hs, streamCalls_sound (Turn.Expects.result hpc content) left⟩
  | fallbackSent st => exact ⟨hs, hpc⟩
  | doneSent st => exact ⟨hs, hpc⟩
  | markerSent st => exact streamFinally_sound hs (fun _ => hpc) x.now
  | errorSent st => exact streamFinally_sound hs hpc x.now
  | createRaised st left => exact ⟨hs, streamExcept_sound hpc rfl (hopen rfl)⟩
  | receiveRaised st left parts fragments => exact ⟨hs, streamExcept_sound hpc rfl (hopen rfl)⟩
  | toolRaised st left call rest => exact ⟨hs, streamExcept_sound hpc rfl (hopen rfl)⟩
  | closed hst => exact ⟨hs, trivial⟩
  | cancelled hst =>
    exact streamFinally_sound hs (fun hreq => hpc.persistable hst (hopen rfl hreq) hreq) x.now

end Stream

/-! ## Runs of the service -/

/-- The stimulus ends a stream that keeps history while a group is open. -/
def Thread.interruptsGroup (t : Thread) (x : Stimulus) : Bool :=
  match t with
  | .chatStream req pc => x.interrupts && req.session.isSome && pc.groupOpen
  | _ => false

/-- The event interrupts a stream of some guest between an assistant message with tool calls and
the last of its results. -/
def interruptsGroup (p : System) : Event Request Input → Bool
  | .request _ => false
  | .advance i x =>
    match p.threads[i]? with
    | none => false
    | some t => t.interruptsGroup x.stimulus

/-- What holds of a thread at every moment. -/
def Thread.Sound : Thread → Prop
  | .chat _ pc => pc.Sound
  | .chatStream req pc => pc.Sound req
  | .cleanup _ => True

theorem start_sound (r : Request) : (start r).Sound := by
  cases r with
  | chat req => trivial
  | chatStream req => trivial
  | cleanup => trivial

theorem act_sound {app : App} {store store' : ConversationStore} {t t' : Thread} {x : Input}
    (hs : store.Replayable) (ht : t.Sound) (hx : t.interruptsGroup x.stimulus = false)
    (h : act app store t x = some (store', t')) : store'.Replayable ∧ t'.Sound := by
  cases t with
  | chat req pc =>
    obtain ⟨⟨s1, pc1⟩, hq, he⟩ := Option.map_eq_some_iff.1 h
    cases he
    exact chatStep_sound hs ht hq
  | chatStream req pc =>
    obtain ⟨⟨s1, pc1⟩, hq, he⟩ := Option.map_eq_some_iff.1 h
    cases he
    refine streamStep_sound hs ht (fun hi hreq => ?_) hq
    simpa [Thread.interruptsGroup, hi, hreq] using hx
  | cleanup finished =>
    simp only [act] at h
    split_ifs at h with hf
    cases h
    exact ⟨hs.cleanup x.now, trivial⟩

/-- The histories of the store are replayable and the threads are sound. -/
def System.Sound (p : System) : Prop := p.store.Replayable ∧ ∀ t ∈ p.threads, t.Sound

theorem step_sound (app : App) (p : System) (e : Event Request Input) (p' : System) (h : p.Sound)
    (he : interruptsGroup p e = false) (hs : step app p e = some p') : p'.Sound := by
  refine Pool.guarded_step (P := ConversationStore.Replayable) (Q := fun _ t => t.Sound)
    (G := fun _ t x => t.interruptsGroup x.stimulus = false) (fun _ r _ => start_sound r)
    ?_ p e p' ⟨h.1, h.2⟩ ?_ hs
  · intro s t x s' t' hP hQ hG ha
    obtain ⟨hP', hQ'⟩ := act_sound hP hQ hG ha
    exact ⟨hP', hQ', fun _ hu => hu⟩
  · rintro i x t rfl hi
    simpa only [interruptsGroup, hi] using he

theorem always_sound (app : App) (maxMessages ttl maxConversations : Int)
    (es : List (Event Request Input))
    (h : Throughout (step app) (fun p e => interruptsGroup p e = false)
      (System.initial maxMessages ttl maxConversations) es) :
    Always (step app) System.Sound (System.initial maxMessages ttl maxConversations) es := by
  refine always_of_throughout (step_sound app) ⟨?_, ?_⟩ h
  · intro c hc
    cases hc
  · intro t ht
    cases ht

/-- **Replayable histories**: whatever the model, the tools and the clients do, in a run in which no
stream of a guest fails or is cancelled between an assistant message with tool calls and the last
tool result, all stored conversations are replayable in every state. -/
theorem histories_replayable (app : App) (maxMessages ttl maxConversations : Int)
    (es : List (Event Request Input))
    (h : Throughout (step app) (fun p e => interruptsGroup p e = false)
      (System.initial maxMessages ttl maxConversations) es) :
    Always (step app) (fun p => p.store.Replayable)
      (System.initial maxMessages ttl maxConversations) es :=
  (always_sound app maxMessages ttl maxConversations es h).imp fun _ hp => hp.1

/-- The messages that a suspended request has sent to the model. -/
def Thread.prompt : Thread → Option (List Message)
  | .chat _ (.create turn _) => some turn.messages
  | .chatStream _ (.create st _) => some st.turn.messages
  | _ => none

theorem Thread.Sound.prompt {t : Thread} (h : t.Sound) {msgs : List Message}
    (hm : t.prompt = some msgs) : Replayable msgs := by
  cases t with
  | chat req pc =>
    cases pc with
    | create turn left =>
      cases hm
      exact grouped_iff_pending.2 (Turn.Expects.messages h)
    | _ => cases hm
  | chatStream req pc =>
    cases pc with
    | create st left =>
      cases hm
      exact grouped_iff_pending.2 (Turn.Expects.messages h)
    | _ => cases hm
  | cleanup finished => cases hm

/-- In such a run the model is never sent an open group, by any request. -/
theorem prompts_replayable (app : App) (maxMessages ttl maxConversations : Int)
    (es : List (Event Request Input))
    (h : Throughout (step app) (fun p e => interruptsGroup p e = false)
      (System.initial maxMessages ttl maxConversations) es) :
    Always (step app) (fun p => ∀ t ∈ p.threads, ∀ msgs ∈ t.prompt, Replayable msgs)
      (System.initial maxMessages ttl maxConversations) es := by
  refine (always_sound app maxMessages ttl maxConversations es h).imp fun p hp t ht msgs hm => ?_
  exact (hp.2 t ht).prompt hm

/-! ## The defect -/

theorem StreamPc.Sound.openGroup {req : ChatRequest} {pc : StreamPc} (h : pc.Sound req)
    (hopen : pc.groupOpen = true) :
    ∃ st id ids, pc.state = some st ∧ st.turn.Expects (id :: ids) := by
  cases pc with
  | yieldToolCall st left call rest => exact ⟨st, _, _, rfl, h⟩
  | runTool st left call rest => exact ⟨st, _, _, rfl, h⟩
  | yieldToolResult st left call rest content => exact ⟨st, _, _, rfl, h⟩
  | _ => cases hopen

/-- A persisted turn with an open group spoils the conversation, and no trimming removes it. -/
theorem append_openGroup {store : ConversationStore} (hmax : 1 ≤ store.maxMessages) {turn : Turn}
    {id : String} {ids : List String} (ht : turn.Expects (id :: ids)) (guestId : String) (now : ℚ) :
    ¬ (store.append guestId turn.newMessages now).Replayable := by
  intro h
  obtain ⟨c, pre, hc, hmsgs⟩ := append_mem store guestId turn.newMessages now
  obtain ⟨u, rest, he, hu, hrest⟩ := ht.opening
  obtain ⟨pre', hpre'⟩ := trim_keeps hmax hu hrest pre
  have hgrouped : Replayable c.messages := h c hc
  rw [hmsgs, he, hpre'] at hgrouped
  have hturn := (hgrouped.drop (kind_of_isUser hu)).pending_eq
  rw [← he, ht.newMessages] at hturn
  cases hturn

/-- **A disconnect in a group**: cancelling a stream of a guest between an assistant message with
tool calls and its last result leaves a history that is not replayable. -/
theorem cancel_openGroup (app : App) {p : System} (hp : p.Sound) (hmax : 1 ≤ p.store.maxMessages)
    {i : ℕ} {t : Thread} (hi : p.threads[i]? = some t)
    (hx : t.interruptsGroup .cancelled = true) (now : ℚ) :
    ∃ p', step app p (.advance i ⟨.cancelled, now⟩) = some p' ∧ ¬ p'.store.Replayable := by
  cases t with
  | chat req pc => cases hx
  | cleanup finished => cases hx
  | chatStream req pc =>
    simp only [Thread.interruptsGroup, Bool.and_eq_true, Option.isSome_iff_exists] at hx
    obtain ⟨⟨-, guestId, hg⟩, hopen⟩ := hx
    have hsound : pc.Sound req := hp.2 _ (List.mem_of_getElem? hi)
    obtain ⟨st, id, ids, hst, ht⟩ := hsound.openGroup hopen
    have hcancel : streamCancel p.store req now pc = some (streamFinally p.store req st now) := by
      cases pc with
      | settled yielded => cases hst
      | _ => simp only [streamCancel, hst]
    have hact : act app p.store (.chatStream req pc) ⟨.cancelled, now⟩ =
        some (persist p.store req st.turn now, .chatStream req (.settled st.yielded)) := by
      simp only [act, streamStep, hcancel]
      rfl
    refine ⟨_, Pool.step_advance_iff.2 ⟨_, _, _, hi, hact, rfl⟩, ?_⟩
    simp only [persist, hg]
    exact append_openGroup hmax ht guestId now

section Disconnect

/-- A question of the examples. -/
def question : ChatRequest where
  message := "Which rooms are free?"
  guestId := some "guest-kiki-0001"
  maxLength := by decide

/-- An app that masks nothing. -/
def plainApp : App := ⟨"", id⟩

/-- A step of the first thread. -/
def at0 (stimulus : Stimulus) : Event Request Input := .advance 0 ⟨stimulus, 0⟩

/-- A stream up to its first call of a tool. -/
def firstCall : List (Event Request Input) :=
  [.request (.chatStream question), at0 .resumed, at0 .resumed, at0 .opened,
    at0 (.chunk (some ⟨none, [⟨0, some "call_a", some "get_hotel_rooms", none⟩]⟩)),
    at0 .streamEnd]

/-- The tool returns, and a second round answers. -/
def completedStream : List (Event Request Input) :=
  firstCall ++
    [at0 .resumed, at0 (.toolReturned "[]"), at0 .resumed, at0 .opened,
      at0 (.chunk (some ⟨some "None are.", []⟩)), at0 .resumed, at0 .streamEnd, at0 .resumed,
      at0 .resumed]

/-- The client disconnects while the `tool_call` event is sent: the call is stored without a
result. -/
theorem disconnectedStream_not_replayable :
    ∃ p, run (step plainApp) (System.initial 20 1800 500) (firstCall ++ [at0 .cancelled]) = some p ∧
      ¬ p.store.Replayable :=
  ⟨_, rfl, by decide⟩

theorem completedStream_replayable :
    (∃ p, run (step plainApp) (System.initial 20 1800 500) completedStream = some p) ∧
      Always (step plainApp) (fun p => p.store.Replayable) (System.initial 20 1800 500)
        completedStream :=
  ⟨⟨_, rfl⟩, histories_replayable plainApp 20 1800 500 completedStream (by decide)⟩

end Disconnect

end Parrot
