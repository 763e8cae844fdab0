import Webmeow.Parrot.Chat

/-!
# What one step of a request can do

The steps of `chat` and of `chat_stream` as relations: by which stimulus a suspended request goes on,
and where to. What every step preserves is proved by cases of these.
-/

namespace Parrot

variable {app : App} {store : ConversationStore} {req : ChatRequest} {x : Input}

/-! ## `/chat` -/

/-- The steps of a chat. -/
inductive ChatMove (app : App) (store : ConversationStore) (req : ChatRequest) (now : ℚ) :
    Stimulus → ChatPc → ConversationStore × ChatPc → Prop where
  /-- The handler is entered. -/
  | entered : ChatMove app store req now .resumed .enter
      (chatRound (loadHistory store req now).1 req
        (app.assemble req (loadHistory store req now).2) now MAX_TOOL_ROUNDS)
  /-- A completion arrives. -/
  | completed (turn : Turn) (left : ℕ) (c : Completion) :
      ChatMove app store req now (.completion c) (.create turn left)
        (chatCompletion store req turn now left c)
  /-- A tool returns. -/
  | returned (turn : Turn) (left : ℕ) (call : ToolCall) (rest : List ToolCall) (content : String) :
      ChatMove app store req now (.toolReturned content) (.runTool turn left call rest)
        (chatCalls store req (turn.push (.tool call.id content)) now left rest)
  /-- An exception is raised. -/
  | raised (pc : ChatPc) :
      ChatMove app store req now .raised pc (store, .settled (.badGateway llmUnavailable))
  /-- The handler is cancelled. -/
  | cancelled (pc : ChatPc) :
      ChatMove app store req now .cancelled pc (store, .settled .disconnected)

theorem chatStep_move {pc : ChatPc} {q : ConversationStore × ChatPc}
    (h : chatStep app store req x pc = some q) : ChatMove app store req x.now x.stimulus pc q := by
  cases pc with
  | enter =>
    cases hx : x.stimulus <;> simp only [chatStep, hx] at h <;> cases h
    · exact .entered
    · exact .cancelled _
  | create turn left =>
    cases hx : x.stimulus <;> simp only [chatStep, hx] at h <;> cases h
    · exact .completed turn left _
    · exact .raised _
    · exact .cancelled _
  | runTool turn left call rest =>
    cases hx : x.stimulus <;> simp only [chatStep, hx] at h <;> cases h
    · exact .returned turn left call rest _
    · exact .raised _
    · exact .cancelled _
  | settled outcome => cases h

/-! ## `/chat/stream` -/

/-- The steps of a stream. -/
inductive StreamMove (app : App) (store : ConversationStore) (req : ChatRequest) (now : ℚ) :
    Stimulus → StreamPc → ConversationStore × StreamPc → Prop where
  /-- The endpoint is entered. -/
  | entered : StreamMove app store req now .resumed .enter
      ((loadHistory store req now).1, .ready (loadHistory store req now).2)
  /-- The generator is started. -/
  | started (history : List Message) : StreamMove app store req now .resumed (.ready history)
      (store, streamRound ⟨app.assemble req history, [], []⟩ MAX_TOOL_ROUNDS)
  /-- A stream is opened. -/
  | opened (st : StreamState) (left : ℕ) :
      StreamMove app store req now .opened (.create st left) (store, .receiving st left [] [])
  /-- A chunk has no delta. -/
  | noDelta (st : StreamState) (left : ℕ) (parts : List String) (fragments : List Fragment) :
      StreamMove app store req now (.chunk none) (.receiving st left parts fragments)
        (store, .receiving st left parts fragments)
  /-- A chunk has a delta. -/
  | delta (st : StreamState) (left : ℕ) (parts : List String) (fragments : List Fragment)
      (d : Delta) : StreamMove app store req now (.chunk (some d))
        (.receiving st left parts fragments) (store, streamChunk st left parts fragments d)
  /-- A part of the reply was sent. -/
  | tokenSent (st : StreamState) (left : ℕ) (parts : List String) (fragments : List Fragment)
      (calls : List CallDelta) : StreamMove app store req now .resumed
        (.yieldToken st left parts fragments calls)
        (store, .receiving st left parts (feedCalls fragments calls))
  /-- The stream of the model ends. -/
  | ended (st : StreamState) (left : ℕ) (parts : List String) (fragments : List Fragment) :
      StreamMove app store req now .streamEnd (.receiving st left parts fragments)
        (store, streamEnded st left parts fragments)
  /-- A tool call was sent. -/
  | callSent (st : StreamState) (left : ℕ) (call : ToolCall) (rest : List ToolCall) :
      StreamMove app store req now .resumed (.yieldToolCall st left call rest)
        (store, .runTool st left call rest)
  /-- A tool returns. -/
  | returned (st : StreamState) (left : ℕ) (call : ToolCall) (rest : List ToolCall)
      (content : String) : StreamMove app store req now (.toolReturned content)
        (.runTool st left call rest)
        (store, .yieldToolResult (st.emit (.toolResult call.name)) left call rest content)
  /-- A tool result was sent. -/
  | resultSent (st : StreamState) (left : ℕ) (call : ToolCall) (rest : List ToolCall)
      (content : String) : StreamMove app store req now .resumed
        (.yieldToolResult st left call rest content)
        (store, streamCalls (st.push (.tool call.id content)) left rest)
  /-- The fallback is sent. -/
  | fallbackSent (st : StreamState) : StreamMove app store req now .resumed (.yieldFallback st)
      (store, .yieldDone (st.emit (.done FALLBACK)))
  /-- The whole reply was sent. -/
  | doneSent (st : StreamState) : StreamMove app store req now .resumed (.yieldDone st)
      (store, .yieldDoneMarker (st.emit .doneMarker))
  /-- The end was sent. -/
  | markerSent (st : StreamState) : StreamMove app store req now .resumed (.yieldDoneMarker st)
      (streamFinally store req st now)
  /-- An error was sent. -/
  | errorSent (st : StreamState) : StreamMove app store req now .resumed (.yieldError st)
      (streamFinally store req st now)
  /-- Opening the stream fails. -/
  | createRaised (st : StreamState) (left : ℕ) :
      StreamMove app store req now .raised (.create st left) (store, streamExcept st)
  /-- The stream fails. -/
  | receiveRaised (st : StreamState) (left : ℕ) (parts : List String) (fragments : List Fragment) :
      StreamMove app store req now .raised (.receiving st left parts fragments)
        (store, streamExcept st)
  /-- A tool fails. -/
  | toolRaised (st : StreamState) (left : ℕ) (call : ToolCall) (rest : List ToolCall) :
      StreamMove app store req now .raised (.runTool st left call rest) (store, streamExcept st)
  /-- A generator whose body was not entered does not run its `finally` block. -/
  | closed {pc : StreamPc} (hst : pc.state = none) :
      StreamMove app store req now .cancelled pc (store, .settled [])
  /-- A generator that was entered runs its `finally` block. -/
  | cancelled {pc : StreamPc} {st : StreamState} (hst : pc.state = some st) :
      StreamMove app store req now .cancelled pc (streamFinally store req st now)

section Stream

variable {pc : StreamPc} {q : ConversationStore × StreamPc}

theorem streamResume_move {now : ℚ} (h : streamResume app store req now pc = some q) :
    StreamMove app store req now .resumed pc q := by
  cases pc with
  | enter => cases h; exact .entered
  | ready history => cases h; exact .started history
  | yieldToken st left parts fragments calls =>
    cases h
    exact .tokenSent st left parts fragments calls
  | yieldToolCall st left call rest => cases h; exact .callSent st left call rest
  | yieldToolResult st left call rest content =>
    cases h
    exact .resultSent st left call rest content
  | yieldFallback st => cases h; exact .fallbackSent st
  | yieldDone st => cases h; exact .doneSent st
  | yieldDoneMarker st => cases h; exact .markerSent st
  | yieldError st => cases h; exact .errorSent st
  | _ => cases h

theorem streamCancel_move {now : ℚ} (h : streamCancel store req now pc = some q) :
    StreamMove app store req now .cancelled pc q := by
  cases pc with
  | settled yielded => cases h
  | enter => cases h; exact .closed rfl
  | ready history => cases h; exact .closed rfl
  | _ => cases h; exact .cancelled rfl

theorem streamRaise_move {now : ℚ} (h : streamRaise store pc = some q) :
    StreamMove app store req now .raised pc q := by
  cases pc with
  | create st left => cases h; exact .createRaised st left
  | receiving st left parts fragments => cases h; exact .receiveRaised st left parts fragments
  | runTool st left call rest => cases h; exact .toolRaised st left call rest
  | _ => cases h

/-- Every step of a stream is one of these moves. -/
theorem streamStep_move (h : streamStep app store req x pc = some q) :
    StreamMove app store req x.now x.stimulus pc q := by
  unfold streamStep at h
  cases hx : x.stimulus with
  | resumed => rw [hx] at h; exact streamResume_move h
  | cancelled => rw [hx] at h; exact streamCancel_move h
  | raised => rw [hx] at h; exact streamRaise_move h
  | completion c => rw [hx] at h; cases h
  | opened =>
    rw [hx] at h
    cases pc with
    | create st left => cases h; exact .opened st left
    | _ => cases h
  | chunk delta =>
    rw [hx] at h
    cases pc with
    | receiving st left parts fragments =>
      cases delta with
      | none => cases h; exact .noDelta st left parts fragments
      | some d => cases h; exact .delta st left parts fragments d
    | _ => cases h
  | streamEnd =>
    rw [hx] at h
    cases pc with
    | receiving st left parts fragments => cases h; exact .ended st left parts fragments
    | _ => cases h
  | toolReturned content =>
    rw [hx] at h
    cases pc with
    | runTool st left call rest => cases h; exact .returned st left call rest content
    | _ => cases h

end Stream

/-! ## The store -/

/-- What the two ways in which a request touches the store preserve. -/
structure StoreInvariant (req : ChatRequest) (P : ConversationStore → Prop) : Prop where
  /-- Loading the history keeps it. -/
  loads : ∀ store now, P store → P (loadHistory store req now).1
  /-- Storing the turn keeps it. -/
  persists : ∀ store turn now, P store → P (persist store req turn now)

namespace StoreInvariant

variable {P : ConversationStore → Prop}

theorem chatRound (hP : StoreInvariant req P) (h : P store) (turn : Turn) (now : ℚ) (left : ℕ) :
    P (chatRound store req turn now left).1 := by
  cases left with
  | zero => exact hP.persists _ _ now h
  | succ left => exact h

theorem chatCalls (hP : StoreInvariant req P) (h : P store) (turn : Turn) (now : ℚ) (left : ℕ)
    (calls : List ToolCall) : P (chatCalls store req turn now left calls).1 := by
  cases calls with
  | nil => exact hP.chatRound h turn now left
  | cons call rest => exact h

theorem chatCompletion (hP : StoreInvariant req P) (h : P store) (turn : Turn) (now : ℚ) (left : ℕ)
    (c : Completion) : P (chatCompletion store req turn now left c).1 := by
  unfold Parrot.chatCompletion
  split_ifs
  · cases c.toolCalls with
    | none => exact h
    | some calls => exact hP.chatCalls h _ now left calls
  · exact hP.persists _ _ now h

/-- A step of a `chat` preserves what its loads and its write preserve. -/
theorem chatStep (hP : StoreInvariant req P) (h : P store) {pc : ChatPc}
    {q : ConversationStore × ChatPc} (hs : chatStep app store req x pc = some q) : P q.1 := by
  have hmove := chatStep_move hs
  generalize x.stimulus = stimulus at hmove
  cases hmove with
  | entered => exact hP.chatRound (hP.loads _ x.now h) _ x.now MAX_TOOL_ROUNDS
  | completed turn left c => exact hP.chatCompletion h turn x.now left c
  | returned turn left call rest content => exact hP.chatCalls h _ x.now left rest
  | raised => exact h
  | cancelled => exact h

/-- So does a step of a stream. -/
theorem streamStep (hP : StoreInvariant req P) (h : P store) {pc : StreamPc}
    {q : ConversationStore × StreamPc} (hs : streamStep app store req x pc = some q) : P q.1 := by
  have hmove := streamStep_move hs
  generalize x.stimulus = stimulus at hmove
  cases hmove with
  | entered => exact hP.loads _ x.now h
  | markerSent st => exact hP.persists _ _ x.now h
  | errorSent st => exact hP.persists _ _ x.now h
  | cancelled hst => exact hP.persists _ _ x.now h
  | _ => exact h

end StoreInvariant

end Parrot
