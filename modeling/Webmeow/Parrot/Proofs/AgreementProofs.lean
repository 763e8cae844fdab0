import Webmeow.Parrot.Proofs.ReassemblyProofs
import Webmeow.Parrot.Proofs.ReplayProofs

/-!
# `chat` and `chat_stream` agree

Both loops hold the same dialogue with the model and the tools. It is stated once, as a recursion over
the rounds, and each loop is shown to follow it. The stream leaves an empty content out of the
message that it rebuilds for a round of tool calls, and counts the texts of such rounds to the reply.
-/

namespace Parrot

open Simulation

/-! ## The dialogue -/

/-- More messages. -/
def Turn.pushAll (turn : Turn) (ms : List Message) : Turn :=
  ⟨turn.messages ++ ms, turn.newMessages ++ ms⟩

/-- The messages of the results. -/
def toolMessages (calls : List ToolCall) (results : List String) : List Message :=
  List.zipWith (fun call result => .tool call.id result) calls results

/-- How a dialogue ends: the model still has to answer, with a final text, or with no round left. -/
inductive Ending where
  /-- Another round is to come. -/
  | waiting (left : ℕ)
  /-- The model has answered. -/
  | text (content : Option String)
  /-- The rounds are used up. -/
  | exhausted

/-- What is asked, the turn at the end, the texts of the rounds with tool calls and the ending. -/
structure Dialogue where
  /-- What was asked for. -/
  asks : List Ask
  /-- The messages. -/
  turn : Turn
  /-- What was streamed before the last completion. -/
  preamble : String
  /-- How it ends. -/
  ending : Ending

/-- The dialogue of at most `left` rounds, where `content` says what becomes of the content of a
message with tool calls. -/
def dialogue (content : Option String → Option String) : ℕ → Turn → List Round → Dialogue
  | 0, turn, _ => ⟨[], turn, "", .exhausted⟩
  | left + 1, turn, [] => ⟨[.prompt turn.messages], turn, "", .waiting left⟩
  | left + 1, turn, r :: rs =>
    if r.calls.isEmpty then ⟨[.prompt turn.messages], turn, "", .text r.completion.content⟩
    else
      let opening := Message.assistant (content r.completion.content) (some r.calls)
      let d := dialogue content left
        ((turn.push opening).pushAll (toolMessages r.calls r.results)) rs
      { d with
        asks := .prompt turn.messages :: (r.calls.map .tool ++ d.asks)
        preamble := r.text ++ d.preamble }

@[simp]
theorem Turn.pushAll_nil (turn : Turn) : turn.pushAll [] = turn := by
  simp [Turn.pushAll]

@[simp]
theorem Turn.pushAll_cons (turn : Turn) (m : Message) (ms : List Message) :
    turn.pushAll (m :: ms) = (turn.push m).pushAll ms := by
  simp [Turn.pushAll, Turn.push]

/-! ## Moments -/

/-- The store and the time of the last of the moments. -/
def after (m : ConversationStore × ℚ) (xs : List Moment) : ConversationStore × ℚ :=
  xs.foldl (fun _ x => (x.store, x.input.now)) m

@[simp]
theorem after_nil (m : ConversationStore × ℚ) : after m [] = m := rfl

@[simp]
theorem after_cons (m : ConversationStore × ℚ) (x : Moment) (xs : List Moment) :
    after m (x :: xs) = after (x.store, x.input.now) xs := rfl

@[simp]
theorem after_append (m : ConversationStore × ℚ) (xs ys : List Moment) :
    after m (xs ++ ys) = after (after m xs) ys := List.foldl_append

theorem stimuliOf_eq_cons {xs : List Moment} {s : Stimulus} {ss : List Stimulus}
    (h : stimuliOf xs = s :: ss) :
    ∃ x xs', xs = x :: xs' ∧ x.input.stimulus = s ∧ stimuliOf xs' = ss := by
  obtain ⟨x, xs', rfl, hx, hxs⟩ := List.map_eq_cons_iff.1 h
  exact ⟨x, xs', rfl, hx, hxs⟩

theorem stimuliOf_eq_append {xs : List Moment} {ss ss' : List Stimulus}
    (h : stimuliOf xs = ss ++ ss') :
    ∃ ys zs, xs = ys ++ zs ∧ stimuliOf ys = ss ∧ stimuliOf zs = ss' := by
  obtain ⟨ys, zs, rfl, hy, hz⟩ := List.map_eq_append_iff.1 h
  exact ⟨ys, zs, rfl, hy, hz⟩

theorem stimuliOf_eq_nil {xs : List Moment} (h : stimuliOf xs = []) : xs = [] :=
  List.map_eq_nil_iff.1 h

/-! ## `chat` follows the dialogue -/

section Chat

variable {app : App} {req : ChatRequest}

/-- What `chat` does at the end of the dialogue. -/
def chatEnd (req : ChatRequest) (m : ConversationStore × ℚ) (turn : Turn) :
    Ending → ConversationStore × ChatPc
  | .waiting left => (m.1, .create turn left)
  | .text content => chatReturn m.1 req turn ((truthy content).getD FALLBACK) m.2
  | .exhausted => chatReturn m.1 req turn FALLBACK m.2

theorem wantsTools_eq {c : Completion} (h : c.WellFormed) : c.wantsTools = !c.calls.isEmpty := by
  unfold Completion.wantsTools
  by_cases hf : c.finishReason = "tool_calls"
  · have hne := h.calls hf
    rw [decide_eq_true hf, Bool.true_or, List.isEmpty_eq_false_iff.2 hne]
    rfl
  · rw [decide_eq_false hf, Bool.false_or]
    unfold Completion.calls
    cases c.toolCalls with
    | none => rfl
    | some calls => rfl

theorem chatCompletion_text {c : Completion} (h : c.WellFormed) (he : c.calls.isEmpty = true)
    (store : ConversationStore) (turn : Turn) (now : ℚ) (left : ℕ) :
    chatCompletion store req turn now left c =
      chatReturn store req turn ((truthy c.content).getD FALLBACK) now := by
  rw [chatCompletion, wantsTools_eq h, he]
  rfl

theorem chatCompletion_tools {c : Completion} (h : c.WellFormed) (he : c.calls.isEmpty = false)
    (store : ConversationStore) (turn : Turn) (now : ℚ) (left : ℕ) :
    chatCompletion store req turn now left c =
      chatCalls store req (turn.push (.assistant c.content (some c.calls))) now left c.calls := by
  rw [chatCompletion, wantsTools_eq h, he]
  unfold Completion.calls at he ⊢
  cases hc : c.toolCalls with
  | none =>
    rw [hc] at he
    cases he
  | some calls => rfl

theorem chat_results (left : ℕ) {calls : List ToolCall} {results : List String}
    (hlen : results.length = calls.length) (turn : Turn) (m : ConversationStore × ℚ)
    {xs : List Moment} (hxs : stimuliOf xs = results.map .toolReturned) :
    ∃ os, trace (chatMachine app req) (chatCalls m.1 req turn m.2 left calls) xs =
        some (chatRound (after m xs).1 req (turn.pushAll (toolMessages calls results))
          (after m xs).2 left, os) ∧
      os.flatten = calls.map .tool := by
  induction calls generalizing results turn m xs with
  | nil =>
    cases List.length_eq_zero_iff.1 hlen
    cases stimuliOf_eq_nil hxs
    exact ⟨[], by simp [trace, toolMessages, chatCalls], rfl⟩
  | cons call rest ih =>
    cases results with
    | nil => cases hlen
    | cons result results =>
      obtain ⟨x, xs', rfl, hx, hxs'⟩ := stimuliOf_eq_cons hxs
      obtain ⟨os, hos, hflat⟩ := ih (Nat.succ.inj hlen) (turn.push (.tool call.id result))
        (x.store, x.input.now) hxs'
      refine ⟨[.tool call] :: os, ?_, congrArg (Ask.tool call :: ·) hflat⟩
      rw [toolMessages, List.zipWith_cons_cons, Turn.pushAll_cons, after_cons]
      refine trace_cons ?_ hos
      simp only [chatMachine, chatCalls, chatStep, hx]
      rfl

/-- **`chat` follows the dialogue**, with the contents as the model gave them. -/
theorem chat_dialogue (left : ℕ) (turn : Turn) (rounds : List Round) (m : ConversationStore × ℚ)
    {xs : List Moment} (hxs : stimuliOf xs = chatStimuli left rounds) :
    let d := dialogue id left turn rounds
    let last := chatEnd req (after m xs) d.turn d.ending
    ∃ os, trace (chatMachine app req) (chatRound m.1 req turn m.2 left) xs = some (last, os) ∧
      os.flatten ++ last.2.asks = d.asks := by
  induction left generalizing turn rounds m xs with
  | zero =>
    cases stimuliOf_eq_nil hxs
    exact ⟨[], rfl, rfl⟩
  | succ left ih =>
    cases rounds with
    | nil =>
      cases stimuliOf_eq_nil hxs
      exact ⟨[], rfl, rfl⟩
    | cons r rs =>
      obtain ⟨x, xs', rfl, hx, hxs'⟩ := stimuliOf_eq_cons hxs
      have hstep : chatMachine app req (chatRound m.1 req turn m.2 (left + 1)) x =
          some (chatCompletion x.store req turn x.input.now left r.completion,
            [.prompt turn.messages]) := by
        simp only [chatMachine, chatRound, chatStep, hx]
        rfl
      rw [after_cons, dialogue]
      split_ifs at hxs' ⊢ with he
      · -- the final text
        cases stimuliOf_eq_nil hxs'
        rw [chatCompletion_text r.wellFormed he] at hstep
        exact ⟨[[.prompt turn.messages]], trace_cons hstep rfl, rfl⟩
      · -- a round of tools
        rw [chatCompletion_tools r.wellFormed (Bool.eq_false_iff.2 he)] at hstep
        obtain ⟨ys, zs, rfl, hys, hzs⟩ := stimuliOf_eq_append hxs'
        obtain ⟨os1, htrace1, hflat1⟩ := chat_results left r.answered
          (turn.push (.assistant r.completion.content (some r.calls))) (x.store, x.input.now) hys
        obtain ⟨os2, htrace2, hflat2⟩ := ih _ rs _ hzs
        refine ⟨[.prompt turn.messages] :: (os1 ++ os2), ?_, ?_⟩
        · rw [after_append]
          exact trace_cons hstep (trace_append htrace1 htrace2)
        · rw [List.flatten_cons, List.flatten_append, List.append_assoc, List.append_assoc,
            after_append, hflat1]
          exact congrArg (fun asks => Ask.prompt turn.messages :: (r.calls.map Ask.tool ++ asks)) hflat2

end Chat

/-! ## `chat_stream` follows the dialogue -/

section Stream

variable {app : App} {req : ChatRequest}

/-- The reply that an event carries. -/
def Sse.reply? : Sse → Option String
  | .done reply => some reply
  | _ => none

/-- The pieces of content that a stream makes the generator yield. -/
def textParts (chunks : List (Option Delta)) : List String :=
  (deltasOf chunks).filterMap fun d => truthy d.content

/-- The stream with more parts of the reply. -/
def StreamState.hear (st : StreamState) (parts : List String) : StreamState where
  turn := st.turn
  streamedParts := st.streamedParts ++ parts
  yielded := st.yielded ++ parts.map .token

@[simp]
theorem StreamState.hear_nil (st : StreamState) : st.hear [] = st := by
  simp [StreamState.hear]

theorem StreamState.hear_cons (st : StreamState) (p : String) (parts : List String) :
    st.hear (p :: parts) =
      ({ st with streamedParts := st.streamedParts ++ [p] }.emit (.token p)).hear parts := by
  simp [StreamState.hear, StreamState.emit]

theorem streamMachine_resumed {x : Moment} (hx : x.input.stimulus = .resumed)
    (store : ConversationStore) (pc : StreamPc) :
    streamMachine app req (store, pc) x =
      (streamResume app x.store req x.input.now pc).map fun s' => (s', pc.asks) := by
  simp only [streamMachine, streamStep, hx]

theorem streamMachine_toolReturned {x : Moment} {result : String}
    (hx : x.input.stimulus = .toolReturned result) (store : ConversationStore) (st : StreamState)
    (left : ℕ) (call : ToolCall) (rest : List ToolCall) :
    streamMachine app req (store, .runTool st left call rest) x =
      some ((x.store, .yieldToolResult (st.emit (.toolResult call.name)) left call rest result),
        [.tool call]) := by
  simp only [streamMachine, streamStep, hx]
  rfl

theorem streamMachine_chunk {x : Moment} {chunk : Option Delta}
    (hx : x.input.stimulus = .chunk chunk) (store : ConversationStore) (st : StreamState) (left : ℕ)
    (parts : List String) (fragments : List Fragment) :
    streamMachine app req (store, .receiving st left parts fragments) x =
      some ((x.store, match chunk with
        | none => .receiving st left parts fragments
        | some d => streamChunk st left parts fragments d), []) := by
  simp only [streamMachine, streamStep, hx]
  cases chunk with
  | none => rfl
  | some d => rfl

theorem join_textParts (chunks : List (Option Delta)) :
    join (textParts chunks) = join ((deltasOf chunks).map fun d => d.content.getD "") := by
  unfold textParts
  induction deltasOf chunks with
  | nil => rfl
  | cons d ds ih =>
    rw [List.map_cons, join_cons, ← ih]
    rw [List.filterMap_cons]
    cases hd : truthy d.content with
    | none => rw [getD_of_truthy_none hd, String.empty_append]
    | some t =>
      rw [(truthy_eq_some hd).1]
      exact join_cons t _

theorem feedCalls_append (fragments : List Fragment) (ds ds' : List CallDelta) :
    feedCalls fragments (ds ++ ds') = feedCalls (feedCalls fragments ds) ds' := List.foldl_append

variable (app req) in
/-- Receiving chunks collects their content and the pieces of their calls. -/
theorem stream_chunks (left : ℕ) (chunks : List (Option Delta)) (st : StreamState)
    (parts : List String) (fragments : List Fragment) (m : ConversationStore × ℚ) {xs : List Moment}
    (hxs : stimuliOf xs = chunks.flatMap chunkStimuli) :
    ∃ os, trace (streamMachine app req) (m.1, .receiving st left parts fragments) xs =
        some (((after m xs).1, .receiving (st.hear (textParts chunks)) left
          (parts ++ textParts chunks) (feedCalls fragments (piecesOf chunks))), os) ∧
      os.flatten = [] := by
  induction chunks generalizing st parts fragments m xs with
  | nil =>
    cases stimuliOf_eq_nil hxs
    exact ⟨[], by simp [trace, textParts, deltasOf, piecesOf, feedCalls], rfl⟩
  | cons chunk chunks ih =>
    obtain ⟨ys, zs, rfl, hys, hzs⟩ := stimuliOf_eq_append hxs
    obtain ⟨x, ys', rfl, hx, hys'⟩ := stimuliOf_eq_cons hys
    cases chunk with
    | none =>
      cases stimuliOf_eq_nil hys'
      obtain ⟨os, htrace, hflat⟩ := ih st parts fragments (x.store, x.input.now) hzs
      exact ⟨[] :: os, trace_cons (streamMachine_chunk hx m.1 st left parts fragments) htrace, hflat⟩
    | some d =>
      have hpieces : piecesOf (some d :: chunks) = d.toolCalls ++ piecesOf chunks := rfl
      have hchunk : streamMachine app req (m.1, .receiving st left parts fragments) x = _ :=
        streamMachine_chunk hx m.1 st left parts fragments
      rw [hpieces, feedCalls_append]
      cases hd : truthy d.content with
      | none =>
        have hparts : textParts (some d :: chunks) = textParts chunks :=
          List.filterMap_cons_none hd
        rw [Option.bind_some, hd] at hys'
        cases stimuliOf_eq_nil hys'
        obtain ⟨os, htrace, hflat⟩ := ih st parts (feedCalls fragments d.toolCalls)
          (x.store, x.input.now) hzs
        simp only [streamChunk, hd] at hchunk
        rw [hparts]
        exact ⟨[] :: os, trace_cons hchunk htrace, hflat⟩
      | some p =>
        have hparts : textParts (some d :: chunks) = p :: textParts chunks :=
          List.filterMap_cons_some hd
        rw [Option.bind_some, hd] at hys'
        obtain ⟨y, ys', rfl, hy, hnil⟩ := stimuliOf_eq_cons hys'
        cases stimuliOf_eq_nil hnil
        obtain ⟨os, htrace, hflat⟩ := ih
          ({ st with streamedParts := st.streamedParts ++ [p] }.emit (.token p)) (parts ++ [p])
          (feedCalls fragments d.toolCalls) (y.store, y.input.now) hzs
        simp only [streamChunk, hd] at hchunk
        rw [List.append_assoc, List.singleton_append] at htrace
        rw [hparts, StreamState.hear_cons]
        exact ⟨[] :: [] :: os,
          trace_cons hchunk (trace_cons (streamMachine_resumed hy _ _) htrace), hflat⟩

variable (app req) in
/-- Running the calls of a round pushes their results and yields no reply. -/
theorem stream_results (left : ℕ) {calls : List ToolCall} {results : List String}
    (hlen : results.length = calls.length) (st : StreamState) (m : ConversationStore × ℚ)
    {xs : List Moment} (hxs : stimuliOf xs = results.flatMap resultStimuli) :
    ∃ st' os, trace (streamMachine app req) (m.1, streamCalls st left calls) xs =
        some (((after m xs).1, streamRound st' left), os) ∧
      os.flatten = calls.map .tool ∧
      st'.turn = st.turn.pushAll (toolMessages calls results) ∧
      st'.streamedParts = st.streamedParts ∧
      st'.yielded.filterMap Sse.reply? = st.yielded.filterMap Sse.reply? := by
  induction calls generalizing results st m xs with
  | nil =>
    cases List.length_eq_zero_iff.1 hlen
    cases stimuliOf_eq_nil hxs
    exact ⟨st, [], rfl, rfl, by simp [toolMessages], rfl, rfl⟩
  | cons call rest ih =>
    cases results with
    | nil => cases hlen
    | cons result results =>
      obtain ⟨ys, zs, rfl, hys, hzs⟩ := stimuliOf_eq_append hxs
      obtain ⟨x, ys1, rfl, hx, hys1⟩ := stimuliOf_eq_cons hys
      obtain ⟨y, ys2, rfl, hy, hys2⟩ := stimuliOf_eq_cons hys1
      obtain ⟨z, ys3, rfl, hz, hys3⟩ := stimuliOf_eq_cons hys2
      cases stimuliOf_eq_nil hys3
      obtain ⟨st', os, htrace, hflat, hturn, hparts, hyield⟩ := ih (Nat.succ.inj hlen)
        (((st.emit (.toolCall call.name)).emit (.toolResult call.name)).push (.tool call.id result))
        (z.store, z.input.now) hzs
      refine ⟨st', [] :: [.tool call] :: [] :: os, ?_, congrArg (Ask.tool call :: ·) hflat, ?_,
        hparts, ?_⟩
      · exact trace_cons (streamMachine_resumed hx _ _)
          (trace_cons (streamMachine_toolReturned hy _ _ _ _ _)
            (trace_cons (streamMachine_resumed hz _ _) htrace))
      · rw [hturn, toolMessages, toolMessages, List.zipWith_cons_cons, Turn.pushAll_cons]
        rfl
      · rw [hyield]
        simp [StreamState.push, StreamState.emit, Sse.reply?]

theorem Round.join_textParts_eq (r : Round) : join (textParts r.chunks) = r.text :=
  (join_textParts r.chunks).trans r.splits.content

/-- Where the generator is after the stream of a round. -/
def heardRound (st : StreamState) (left : ℕ) (r : Round) : StreamPc :=
  if r.calls.isEmpty then
    let reply := (truthy (some (join st.streamedParts))).getD FALLBACK
    .yieldDone ({ st with turn := st.turn.reply reply }.emit (.done reply))
  else
    streamCalls (st.push (.assistant (truthy r.completion.content) (some r.calls))) left r.calls

variable (app req) in
/-- A round up to the end of its stream asks for one completion. -/
theorem stream_listen (left : ℕ) (st : StreamState) (r : Round) (m : ConversationStore × ℚ)
    {xs : List Moment}
    (hxs : stimuliOf xs = .opened :: (r.chunks.flatMap chunkStimuli ++ [.streamEnd])) :
    ∃ os, trace (streamMachine app req) (m.1, streamRound st (left + 1)) xs =
        some (((after m xs).1, heardRound (st.hear (textParts r.chunks)) left r), os) ∧
      os.flatten = [.prompt st.turn.messages] := by
  obtain ⟨x, xs1, rfl, hx, hxs1⟩ := stimuliOf_eq_cons hxs
  obtain ⟨ys, zs, rfl, hys, hzs⟩ := stimuliOf_eq_append hxs1
  obtain ⟨z, zs1, rfl, hz, hzs1⟩ := stimuliOf_eq_cons hzs
  cases stimuliOf_eq_nil hzs1
  have hopen : streamMachine app req (m.1, streamRound st (left + 1)) x =
      some ((x.store, .receiving st left [] []), [.prompt st.turn.messages]) := by
    simp only [streamMachine, streamStep, hx, streamRound]
    rfl
  obtain ⟨os, htrace, hflat⟩ := stream_chunks app req left r.chunks st [] []
    (x.store, x.input.now) hys
  have hend : streamMachine app req ((after (x.store, x.input.now) ys).1,
      .receiving (st.hear (textParts r.chunks)) left ([] ++ textParts r.chunks)
        (feedCalls [] (piecesOf r.chunks))) z =
      some ((z.store, heardRound (st.hear (textParts r.chunks)) left r), []) := by
    simp only [streamMachine, streamStep, hz, streamEnded, List.nil_append,
      r.splits.isEmpty_eq r.wellFormed, r.splits.callsOf_eq r.wellFormed, r.join_textParts_eq,
      Round.text, truthy_getD]
    rfl
  refine ⟨[.prompt st.turn.messages] :: (os ++ [[]]), ?_, ?_⟩
  · rw [after_cons, after_append]
    exact trace_cons hopen (trace_append htrace (trace_cons hend rfl))
  · rw [List.flatten_cons, List.flatten_append, hflat]
    rfl

theorem hear_heard (st : StreamState) (r : Round) :
    join (st.hear (textParts r.chunks)).streamedParts = join st.streamedParts ++ r.text := by
  rw [StreamState.hear, join_append, r.join_textParts_eq]

theorem hear_quiet {st : StreamState} (h : st.yielded.filterMap Sse.reply? = [])
    (parts : List String) : (st.hear parts).yielded.filterMap Sse.reply? = [] := by
  rw [StreamState.hear, List.filterMap_append, h, List.filterMap_map]
  exact List.filterMap_eq_nil_iff.2 fun _ _ => rfl

theorem emit_done_replies {st : StreamState} (h : st.yielded.filterMap Sse.reply? = [])
    (turn : Turn) (reply : String) :
    ({ st with turn := turn }.emit (.done reply)).yielded.filterMap Sse.reply? = [reply] := by
  rw [StreamState.emit, List.filterMap_append, h]
  rfl

/-- The generator has persisted the turn with this reply and closed the stream with it. -/
def Replied (req : ChatRequest) (m : ConversationStore × ℚ) (turn : Turn) (reply : String)
    (last : ConversationStore × StreamPc) : Prop :=
  ∃ yielded, last = (persist m.1 req (turn.reply reply) m.2, .settled yielded) ∧
    yielded.filterMap Sse.reply? = [reply]

variable (app req) in
/-- After the `done` event comes the end of the stream. -/
theorem stream_finish {st : StreamState} (h : st.yielded.filterMap Sse.reply? = []) (turn : Turn)
    (reply : String) (m : ConversationStore × ℚ) {xs : List Moment}
    (hxs : stimuliOf xs = [.resumed, .resumed]) :
    ∃ last os, trace (streamMachine app req)
        (m.1, .yieldDone ({ st with turn := turn.reply reply }.emit (.done reply))) xs =
        some (last, os) ∧
      os.flatten ++ last.2.asks = [] ∧ Replied req (after m xs) turn reply last := by
  obtain ⟨x, xs1, rfl, hx, hxs1⟩ := stimuliOf_eq_cons hxs
  obtain ⟨y, xs2, rfl, hy, hxs2⟩ := stimuliOf_eq_cons hxs1
  cases stimuliOf_eq_nil hxs2
  refine ⟨_, [[], []], trace_cons (streamMachine_resumed hx _ _)
    (trace_cons (streamMachine_resumed hy _ _) rfl), rfl, _, rfl, ?_⟩
  show List.filterMap Sse.reply? (_ ++ [Sse.doneMarker]) = [reply]
  rw [List.filterMap_append, emit_done_replies h]
  rfl

section Rounds

variable {st : StreamState} {r : Round}

variable (app req) in
/-- A round with a final text: one completion, then the reply. -/
theorem stream_finalRound (left : ℕ) (hst : st.yielded.filterMap Sse.reply? = [])
    (he : r.calls.isEmpty = true) (m : ConversationStore × ℚ) {xs : List Moment}
    (hxs : stimuliOf xs =
      .opened :: (r.chunks.flatMap chunkStimuli ++ [.streamEnd]) ++ [.resumed, .resumed]) :
    ∃ last os, trace (streamMachine app req) (m.1, streamRound st (left + 1)) xs = some (last, os) ∧
      os.flatten ++ last.2.asks = [.prompt st.turn.messages] ∧
      Replied req (after m xs) st.turn
        ((truthy (some (join st.streamedParts ++ r.text))).getD FALLBACK) last := by
  obtain ⟨ys, zs, rfl, hys, hzs⟩ := stimuliOf_eq_append hxs
  obtain ⟨os1, htrace1, hflat1⟩ := stream_listen app req left st r m hys
  rw [heardRound, if_pos he] at htrace1
  obtain ⟨last, os2, htrace2, hasks, hlast⟩ := stream_finish app req
    (hear_quiet hst (textParts r.chunks)) st.turn
    ((truthy (some (join (st.hear (textParts r.chunks)).streamedParts))).getD FALLBACK)
    (after m ys) hzs
  refine ⟨last, os1 ++ os2, trace_append htrace1 htrace2, ?_, ?_⟩
  · rw [List.flatten_append, List.append_assoc, hasks, hflat1]
    rfl
  · rw [hear_heard] at hlast
    rw [after_append]
    exact hlast

variable (app req) in
/-- A round of tools: one completion and its tool calls, then the next round. -/
theorem stream_toolRound (left : ℕ) (hst : st.yielded.filterMap Sse.reply? = [])
    (he : ¬r.calls.isEmpty = true) (m : ConversationStore × ℚ) {xs : List Moment}
    (hxs : stimuliOf xs =
      .opened :: (r.chunks.flatMap chunkStimuli ++ [.streamEnd]) ++ r.results.flatMap resultStimuli) :
    ∃ st' os, trace (streamMachine app req) (m.1, streamRound st (left + 1)) xs =
        some (((after m xs).1, streamRound st' left), os) ∧
      os.flatten = .prompt st.turn.messages :: r.calls.map .tool ∧
      st'.turn = (st.turn.push (.assistant (truthy r.completion.content) (some r.calls))).pushAll
        (toolMessages r.calls r.results) ∧
      join st'.streamedParts = join st.streamedParts ++ r.text ∧
      st'.yielded.filterMap Sse.reply? = [] := by
  obtain ⟨ys, zs, rfl, hys, hzs⟩ := stimuliOf_eq_append hxs
  obtain ⟨os1, htrace1, hflat1⟩ := stream_listen app req left st r m hys
  rw [heardRound, if_neg he] at htrace1
  obtain ⟨st', os2, htrace2, hflat2, hturn, hparts, hyield⟩ := stream_results app req left
    r.answered ((st.hear (textParts r.chunks)).push
      (.assistant (truthy r.completion.content) (some r.calls))) (after m ys) hzs
  refine ⟨st', os1 ++ os2, ?_, ?_, hturn, ?_, hyield.trans (hear_quiet hst (textParts r.chunks))⟩
  · rw [after_append]
    exact trace_append htrace1 htrace2
  · rw [List.flatten_append, hflat1, hflat2]
    rfl
  · rw [hparts]
    exact hear_heard st r

end Rounds

/-- What `chat_stream` does at the end of the dialogue, when it has streamed `heard` before it. -/
def StreamEnd (req : ChatRequest) (m : ConversationStore × ℚ) (heard : String) (d : Dialogue)
    (last : ConversationStore × StreamPc) : Prop :=
  match d.ending with
  | .waiting left => ∃ st, last = (m.1, .create st left) ∧ st.turn = d.turn
  | .text content =>
    Replied req m d.turn
      ((truthy (some (heard ++ d.preamble ++ content.getD ""))).getD FALLBACK) last
  | .exhausted => Replied req m d.turn FALLBACK last

/-- What was streamed in a round may be counted to the preamble of the dialogue after it. -/
theorem StreamEnd.of_heard {m : ConversationStore × ℚ} {heard text : String} {d : Dialogue}
    {last : ConversationStore × StreamPc} (h : StreamEnd req m (heard ++ text) d last)
    (asks : List Ask) :
    StreamEnd req m heard { d with asks := asks, preamble := text ++ d.preamble } last := by
  obtain ⟨asks', turn, preamble, ending⟩ := d
  cases ending with
  | waiting left => exact h
  | exhausted => exact h
  | text content =>
    simp only [StreamEnd] at h ⊢
    rw [← String.append_assoc]
    exact h

/-- **`chat_stream` follows the dialogue**, without the empty contents. -/
theorem stream_dialogue (left : ℕ) (st : StreamState) (rounds : List Round)
    (hst : st.yielded.filterMap Sse.reply? = []) (m : ConversationStore × ℚ) {xs : List Moment}
    (hxs : stimuliOf xs = streamStimuli left rounds) :
    let d := dialogue truthy left st.turn rounds
    ∃ last os, trace (streamMachine app req) (m.1, streamRound st left) xs = some (last, os) ∧
      os.flatten ++ last.2.asks = d.asks ∧
      StreamEnd req (after m xs) (join st.streamedParts) d last := by
  induction left generalizing st rounds m xs with
  | zero =>
    obtain ⟨x, xs1, rfl, hx, hxs1⟩ := stimuliOf_eq_cons hxs
    have hquiet : (st.emit (.token FALLBACK)).yielded.filterMap Sse.reply? = [] := by
      rw [StreamState.emit, List.filterMap_append, hst]
      rfl
    obtain ⟨last, os, htrace, hasks, hlast⟩ := stream_finish app req hquiet st.turn FALLBACK
      (x.store, x.input.now) hxs1
    exact ⟨last, [] :: os, trace_cons (streamMachine_resumed hx _ _) htrace, hasks, hlast⟩
  | succ left ih =>
    cases rounds with
    | nil =>
      cases stimuliOf_eq_nil hxs
      exact ⟨_, [], rfl, rfl, st, rfl, rfl⟩
    | cons r rs =>
      rw [streamStimuli, List.append_cons, ← List.cons_append] at hxs
      rw [dialogue]
      split_ifs at hxs ⊢ with he
      · -- the final text
        obtain ⟨last, os, htrace, hasks, hlast⟩ := stream_finalRound app req left hst he m hxs
        refine ⟨last, os, htrace, hasks, ?_⟩
        show Replied req _ st.turn
          ((truthy (some (join st.streamedParts ++ "" ++ r.text))).getD FALLBACK) last
        rw [String.append_empty]
        exact hlast
      · -- a round of tools
        rw [← List.append_assoc] at hxs
        obtain ⟨us, vs, rfl, hus, hvs⟩ := stimuliOf_eq_append hxs
        obtain ⟨st', os1, htrace1, hflat1, hturn, hheard, hquiet⟩ :=
          stream_toolRound app req left hst he m hus
        obtain ⟨last, os2, htrace2, hflat2, hlast⟩ := ih st' rs hquiet (after m us) hvs
        rw [hturn] at hflat2 hlast
        rw [hheard] at hlast
        refine ⟨last, os1 ++ os2, trace_append htrace1 htrace2, ?_, ?_⟩
        · rw [List.flatten_append, List.append_assoc, hflat1]
          exact congrArg (fun asks => Ask.prompt st.turn.messages :: (r.calls.map Ask.tool ++ asks))
            hflat2
        · rw [after_append]
          exact hlast.of_heard _

end Stream

/-! ## Agreement -/

/-- The rounds with tool calls that take place in at most `left` rounds. -/
def toolRounds : ℕ → List Round → List Round
  | 0, _ => []
  | _ + 1, [] => []
  | left + 1, r :: rs => if r.calls.isEmpty then [] else r :: toolRounds left rs

/-- A message with tool calls without its content if that is empty. -/
def Message.omitEmpty : Message → Message
  | .assistant content (some calls) => .assistant (truthy content) (some calls)
  | m => m

/-- What is asked for, with its messages mapped. -/
def Ask.map (f : Message → Message) : Ask → Ask
  | .prompt messages => .prompt (messages.map f)
  | .tool call => .tool call

/-- The chat has ended. -/
def ChatPc.isSettled : ChatPc → Bool
  | .settled _ => true
  | _ => false

/-- The stream has ended. -/
def StreamPc.isSettled : StreamPc → Bool
  | .settled _ => true
  | _ => false

theorem dialogue_preamble (content : Option String → Option String) (left : ℕ) (turn : Turn)
    (rounds : List Round) :
    (dialogue content left turn rounds).preamble = join ((toolRounds left rounds).map Round.text) := by
  induction left generalizing turn rounds with
  | zero => rfl
  | succ left ih =>
    cases rounds with
    | nil => rfl
    | cons r rs =>
      rw [dialogue, toolRounds]
      split_ifs with he
      · rfl
      · rw [List.map_cons, join_cons, ← ih]

theorem dialogue_ending (f g : Option String → Option String) (left : ℕ) (turn turn' : Turn)
    (rounds : List Round) :
    (dialogue f left turn rounds).ending = (dialogue g left turn' rounds).ending := by
  induction left generalizing turn turn' rounds with
  | zero => rfl
  | succ left ih =>
    cases rounds with
    | nil => rfl
    | cons r rs =>
      rw [dialogue, dialogue]
      split_ifs with he
      · rfl
      · exact ih _ _ rs

/-- Turns that are equal after a change of the messages. -/
def Turn.SameUpTo (f : Message → Message) (turn turn' : Turn) : Prop :=
  turn.messages.map f = turn'.messages.map f ∧ turn.newMessages.map f = turn'.newMessages.map f

theorem Turn.SameUpTo.pushAll {f : Message → Message} {turn turn' : Turn}
    (h : turn.SameUpTo f turn') {ms ms' : List Message} (hm : ms.map f = ms'.map f) :
    (turn.pushAll ms).SameUpTo f (turn'.pushAll ms') := by
  constructor
  · rw [Turn.pushAll, Turn.pushAll, List.map_append, List.map_append, h.1, hm]
  · rw [Turn.pushAll, Turn.pushAll, List.map_append, List.map_append, h.2, hm]

/-- Two dialogues that differ in the contents of the messages with tool calls ask the same up to a
change of messages that makes these equal. -/
theorem dialogue_sameUpTo {f : Message → Message} {g g' : Option String → Option String} {left : ℕ}
    {rounds : List Round}
    (hg : ∀ r ∈ toolRounds left rounds, f (.assistant (g r.completion.content) (some r.calls)) =
      f (.assistant (g' r.completion.content) (some r.calls)))
    {turn turn' : Turn} (ht : turn.SameUpTo f turn') :
    (dialogue g left turn rounds).asks.map (Ask.map f) =
        (dialogue g' left turn' rounds).asks.map (Ask.map f) ∧
      (dialogue g left turn rounds).turn.SameUpTo f (dialogue g' left turn' rounds).turn := by
  have hprompt : Ask.map f (.prompt turn.messages) = Ask.map f (.prompt turn'.messages) :=
    congrArg Ask.prompt ht.1
  induction left generalizing turn turn' rounds with
  | zero => exact ⟨rfl, ht⟩
  | succ left ih =>
    cases rounds with
    | nil => exact ⟨congrArg (fun ask => [ask]) hprompt, ht⟩
    | cons r rs =>
      rw [toolRounds] at hg
      rw [dialogue, dialogue]
      split_ifs at hg ⊢ with he
      · exact ⟨congrArg (fun ask => [ask]) hprompt, ht⟩
      · have hopening := hg r List.mem_cons_self
        have hturn : ((turn.push (.assistant (g r.completion.content) (some r.calls))).pushAll
            (toolMessages r.calls r.results)).SameUpTo f
            ((turn'.push (.assistant (g' r.completion.content) (some r.calls))).pushAll
              (toolMessages r.calls r.results)) := by
          rw [← Turn.pushAll_cons, ← Turn.pushAll_cons]
          exact ht.pushAll (by rw [List.map_cons, List.map_cons, hopening])
        obtain ⟨hasks, hlast⟩ := ih (fun r' hr' => hg r' (List.mem_cons_of_mem r hr')) hturn
          (congrArg Ask.prompt hturn.1)
        refine ⟨?_, hlast⟩
        simp only [List.map_cons, List.map_append]
        rw [hprompt, hasks]

/-- What the two loops have in common after the same rounds, up to a change of the messages: what they
ask, whether they are done and, if no round of tools had content, the reply and what is persisted. -/
structure Agreement (f : Message → Message) (req : ChatRequest) (rounds : List Round)
    (m m' : ConversationStore × ℚ) (chat : ConversationStore × ChatPc)
    (stream : ConversationStore × StreamPc) (asked asked' : List Ask) : Prop where
  /-- Both ask for the same. -/
  asks : asked.map (Ask.map f) = asked'.map (Ask.map f)
  /-- Both end or neither does. -/
  stops : chat.2.isSettled = stream.2.isSettled
  /-- Without a preamble, both reply and store the same. -/
  replies : (∀ r ∈ toolRounds MAX_TOOL_ROUNDS rounds, r.text = "") → chat.2.isSettled = true →
    ∃ reply yielded new new', chat = (persist m.1 req ⟨[], new⟩ m.2, .settled (.ok reply)) ∧
      stream = (persist m'.1 req ⟨[], new'⟩ m'.2, .settled yielded) ∧
      yielded.filterMap Sse.reply? = [reply] ∧ new.map f = new'.map f

theorem join_eq_empty {parts : List String} (h : ∀ p ∈ parts, p = "") : join parts = "" := by
  induction parts with
  | nil => rfl
  | cons p parts ih =>
    rw [join_cons, h p List.mem_cons_self, String.empty_append]
    exact ih fun p' hp' => h p' (List.mem_cons_of_mem p hp')

theorem omitEmpty_truthy (content : Option String) (calls : List ToolCall) :
    Message.omitEmpty (.assistant (id content) (some calls)) =
      Message.omitEmpty (.assistant (truthy content) (some calls)) := by
  have h : truthy (truthy content) = truthy content := by
    unfold truthy
    rw [Option.filter_filter]
    simp
  show Message.assistant (truthy content) (some calls) = .assistant (truthy (truthy content)) _
  rw [h]

theorem truthy_of_ne {content : Option String} (h : content ≠ some "") : truthy content = content := by
  cases content with
  | none => rfl
  | some s => exact truthy_some fun hs => h (congrArg some hs)

theorem Turn.SameUpTo.reply {f : Message → Message} {turn turn' : Turn}
    (h : turn.SameUpTo f turn') (reply : String) :
    (turn.reply reply).newMessages.map f = (turn'.reply reply).newMessages.map f := by
  rw [Turn.reply, Turn.reply, List.map_append, List.map_append, h.2]

/-- Dialogues with the same ending, followed by the two loops, make them agree. -/
theorem agreement_of_dialogues {f : Message → Message} {req : ChatRequest} {rounds : List Round}
    {m m' : ConversationStore × ℚ} {d d' : Dialogue} {stream : ConversationStore × StreamPc}
    (hending : d.ending = d'.ending)
    (hpreamble : d'.preamble = join ((toolRounds MAX_TOOL_ROUNDS rounds).map Round.text))
    (hsame : d.asks.map (Ask.map f) = d'.asks.map (Ask.map f) ∧ d.turn.SameUpTo f d'.turn)
    (hstream : StreamEnd req m' "" d' stream) :
    Agreement f req rounds m m' (chatEnd req m d.turn d.ending) stream d.asks d'.asks := by
  obtain ⟨asks', turn', preamble', ending'⟩ := d'
  obtain ⟨asks, turn, preamble, ending⟩ := d
  subst hending
  cases ending with
  | waiting left =>
    obtain ⟨st, rfl, -⟩ := hstream
    exact ⟨hsame.1, rfl, fun _ h => by cases h⟩
  | exhausted =>
    obtain ⟨yielded, rfl, hyield⟩ := hstream
    exact ⟨hsame.1, rfl, fun _ _ =>
      ⟨FALLBACK, yielded, _, _, rfl, rfl, hyield, hsame.2.reply FALLBACK⟩⟩
  | text content =>
    obtain ⟨yielded, rfl, hyield⟩ := hstream
    refine ⟨hsame.1, rfl, fun hquiet _ => ?_⟩
    -- without a preamble the stream's reply is the final text
    have hempty : preamble' = "" := by
      refine hpreamble.trans (join_eq_empty fun p hp => ?_)
      obtain ⟨r, hr, rfl⟩ := List.mem_map.1 hp
      exact hquiet r hr
    have hreply : (truthy (some ("" ++ preamble' ++ content.getD ""))).getD FALLBACK =
        (truthy content).getD FALLBACK := by
      rw [hempty, String.empty_append, String.empty_append, truthy_getD]
    simp only [hreply] at hyield ⊢
    exact ⟨_, yielded, _, _, rfl, rfl, hyield, hsame.2.reply _⟩

/-- **`chat` and `chat_stream` agree**: for every request, history and sequence of rounds, however each
completion is split into chunks, both ask the model with the same messages and run the same tool calls
in the same order, up to empty contents of messages with tool calls, and stop after the same round; if
no round of tools has content, they give the same reply and persist the same messages. Without empty
contents the messages are exactly the same. -/
theorem chat_stream_agree (app : App) (req : ChatRequest) (history : List Message)
    (rounds : List Round) (store store' : ConversationStore) (xs ys : List Moment)
    (hxs : stimuliOf xs = chatStimuli MAX_TOOL_ROUNDS rounds)
    (hys : stimuliOf ys = .resumed :: streamStimuli MAX_TOOL_ROUNDS rounds) :
    ∃ chat stream os os',
      trace (chatMachine app req) (store, .create (app.assemble req history) (MAX_TOOL_ROUNDS - 1))
        xs = some (chat, os) ∧
      trace (streamMachine app req) (store', .ready history) ys = some (stream, os') ∧
      Agreement Message.omitEmpty req rounds (after (store, 0) xs) (after (store', 0) ys) chat stream
        (os.flatten ++ chat.2.asks) (os'.flatten ++ stream.2.asks) ∧
      ((∀ r ∈ toolRounds MAX_TOOL_ROUNDS rounds, r.completion.content ≠ some "") →
        Agreement id req rounds (after (store, 0) xs) (after (store', 0) ys) chat stream
          (os.flatten ++ chat.2.asks) (os'.flatten ++ stream.2.asks)) := by
  obtain ⟨y, ys', rfl, hy, hys'⟩ := stimuliOf_eq_cons hys
  obtain ⟨os, hchat, hasks⟩ := chat_dialogue MAX_TOOL_ROUNDS (app.assemble req history) rounds
    (store, 0) hxs
  obtain ⟨stream, os', hstream, hasks', hend⟩ := stream_dialogue MAX_TOOL_ROUNDS
    ⟨app.assemble req history, [], []⟩ rounds rfl (y.store, y.input.now) hys'
  have hpreamble := dialogue_preamble truthy MAX_TOOL_ROUNDS (app.assemble req history) rounds
  have hending := dialogue_ending id truthy MAX_TOOL_ROUNDS (app.assemble req history)
    (app.assemble req history) rounds
  refine ⟨_, stream, os, [] :: os', hchat, trace_cons (streamMachine_resumed hy _ _) hstream, ?_, ?_⟩
  · rw [hasks, List.flatten_cons, List.nil_append, hasks']
    exact agreement_of_dialogues hending hpreamble
      (dialogue_sameUpTo (fun r _ => omitEmpty_truthy r.completion.content r.calls) ⟨rfl, rfl⟩) hend
  · intro hfull
    rw [hasks, List.flatten_cons, List.nil_append, hasks']
    refine agreement_of_dialogues hending hpreamble
      (dialogue_sameUpTo (fun r hr => ?_) ⟨rfl, rfl⟩) hend
    rw [truthy_of_ne (hfull r hr)]
    rfl

/-! ## One tool call and a final text -/

/-- A stream splits a completion with one tool call. -/
theorem splits_single {c : Completion} {chunks : List (Option Delta)} {call : ToolCall} {name : String}
    (hcalls : c.calls = [call]) (hname : call.name = some name)
    (hcontent : join ((deltasOf chunks).map fun d => d.content.getD "") = c.content.getD "")
    (hindex : ∀ d ∈ piecesOf chunks, d.index = 0)
    (hid : SentWhole call.id ((piecesAt chunks 0).map CallDelta.id))
    (hsent : SentWhole name ((piecesAt chunks 0).map CallDelta.name))
    (hargs : join ((piecesAt chunks 0).map fun d => d.arguments.getD "") = call.argumentsStr) :
    Splits c chunks := by
  have hone : ∀ (i : ℕ) (call' : ToolCall), c.calls[i]? = some call' → i = 0 ∧ call' = call := by
    intro i call' h
    rw [hcalls] at h
    cases i with
    | zero => exact ⟨rfl, (Option.some.inj h).symm⟩
    | succ i => cases h
  refine ⟨hcontent, fun d hd => ⟨0, ?_, hindex d hd⟩, ?_, ?_, ?_⟩
  · rw [hcalls]
    exact Nat.one_pos
  · intro i call' h
    obtain ⟨rfl, rfl⟩ := hone i call' h
    exact hid
  · intro i call' name' h hname'
    obtain ⟨rfl, rfl⟩ := hone i call' h
    cases hname.symm.trans hname'
    exact hsent
  · intro i call' h
    obtain ⟨rfl, rfl⟩ := hone i call' h
    exact hargs

/-- A stream splits a final text. -/
theorem splits_text {c : Completion} {chunks : List (Option Delta)} (hcalls : c.calls = [])
    (hcontent : join ((deltasOf chunks).map fun d => d.content.getD "") = c.content.getD "")
    (hpieces : piecesOf chunks = []) : Splits c chunks := by
  have hnone : ∀ (i : ℕ) (call : ToolCall), c.calls[i]? ≠ some call := by
    intro i call h
    rw [hcalls] at h
    cases h
  refine ⟨hcontent, fun d hd => ?_, fun i call h => absurd h (hnone i call),
    fun i call _ h => absurd h (hnone i call), fun i call h => absurd h (hnone i call)⟩
  rw [hpieces] at hd
  cases hd

/-- A completion with one call. -/
def callCompletion (content : Option String) (call : ToolCall) : Completion :=
  ⟨"tool_calls", content, some [call]⟩

/-- A call for the rooms. -/
def roomsCall : ToolCall := ⟨"call_a", some "get_hotel_rooms", "\x7b\x7d"⟩

/-- The arguments of the call are cut; the id and the name come with the first piece. -/
def roomsRound : Round where
  completion := callCompletion none roomsCall
  chunks := [some ⟨none, [⟨0, some "call_a", some "get_hotel_rooms", some "\x7b"⟩]⟩, none,
    some ⟨some "", [⟨0, none, none, some "\x7d"⟩]⟩]
  results := ["[]"]
  wellFormed := ⟨by decide, by decide, by decide⟩
  splits := splits_single rfl rfl (by decide) (by decide) (by decide) (by decide) (by decide)
  answered := rfl

/-- The text is streamed in two pieces. -/
def noneRound : Round where
  completion := ⟨"stop", some "None are.", none⟩
  chunks := [some ⟨some "None ", []⟩, some ⟨some "are.", []⟩]
  results := []
  wellFormed := ⟨by decide, by decide, by decide⟩
  splits := splits_text rfl (by decide) rfl
  answered := rfl

theorem rooms_rounds_agree :
    let xs := atOnce (chatStimuli MAX_TOOL_ROUNDS [roomsRound, noneRound])
    let ys := atOnce (.resumed :: streamStimuli MAX_TOOL_ROUNDS [roomsRound, noneRound])
    let store := ConversationStore.init 20 1800 500
    stimuliOf xs = chatStimuli MAX_TOOL_ROUNDS [roomsRound, noneRound] ∧
      stimuliOf ys = .resumed :: streamStimuli MAX_TOOL_ROUNDS [roomsRound, noneRound] ∧
      ∃ chat stream os os',
        trace (chatMachine plainApp question)
          (store, .create (plainApp.assemble question []) (MAX_TOOL_ROUNDS - 1)) xs =
            some (chat, os) ∧
        trace (streamMachine plainApp question) (store, .ready []) ys = some (stream, os') ∧
        Agreement id question [roomsRound, noneRound] (after (store, 0) xs) (after (store, 0) ys)
          chat stream (os.flatten ++ chat.2.asks) (os'.flatten ++ stream.2.asks) := by
  refine ⟨stimuliOf_atOnce _, stimuliOf_atOnce _, ?_⟩
  obtain ⟨chat, stream, os, os', hchat, hstream, -, hexact⟩ := chat_stream_agree plainApp question []
    [roomsRound, noneRound] (ConversationStore.init 20 1800 500) (ConversationStore.init 20 1800 500)
    (atOnce (chatStimuli MAX_TOOL_ROUNDS [roomsRound, noneRound]))
    (atOnce (.resumed :: streamStimuli MAX_TOOL_ROUNDS [roomsRound, noneRound]))
    (stimuliOf_atOnce _) (stimuliOf_atOnce _)
  refine ⟨chat, stream, os, os', hchat, hstream, hexact fun r hr => ?_⟩
  rw [List.mem_singleton.1 hr]
  decide

/-- The whole call in one piece. -/
def callChunk (call : ToolCall) : Option Delta :=
  some ⟨none, [⟨0, some call.id, call.name, some call.argumentsStr⟩]⟩

/-- The messages of a prompt after the system prompt. -/
def Ask.conversation : Ask → List Message
  | .prompt messages => messages.tail
  | .tool _ => []

/-- What `chat` sends to the model after a round with this completion. -/
def chatSecondPrompt (c : Completion) : Option (List Message) :=
  (trace (chatMachine plainApp question)
    (ConversationStore.init 20 1800 500, .create (plainApp.assemble question []) 4)
    (atOnce [.completion c, .toolReturned "[]"])).map fun q => q.1.2.asks.flatMap Ask.conversation

/-- What `chat_stream` sends to the model after a round with this chunk. -/
def streamSecondPrompt (chunk : Option Delta) : Option (List Message) :=
  (trace (streamMachine plainApp question) (ConversationStore.init 20 1800 500, .ready [])
    (atOnce [.resumed, .opened, .chunk chunk, .streamEnd, .resumed, .toolReturned "[]",
      .resumed])).map fun q => q.1.2.asks.flatMap Ask.conversation

/-- An empty content is sent by `chat` and left out by `chat_stream`; an empty name or id of a call is
kept by the one and taken for absent by the other. -/
theorem empty_values_prompts_differ :
    ((callCompletion (some "") roomsCall).WellFormed ∧
        Splits (callCompletion (some "") roomsCall) [callChunk roomsCall] ∧
        chatSecondPrompt (callCompletion (some "") roomsCall) ≠
          streamSecondPrompt (callChunk roomsCall)) ∧
      chatSecondPrompt (callCompletion none { roomsCall with name := some "" }) ≠
        streamSecondPrompt (callChunk { roomsCall with name := some "" }) ∧
      chatSecondPrompt (callCompletion none { roomsCall with id := "" }) ≠
        streamSecondPrompt (callChunk { roomsCall with id := "" }) :=
  ⟨⟨⟨by decide, by decide, by decide⟩,
      splits_single rfl rfl (by decide) (by decide) (by decide) (by decide) (by decide),
      by decide +kernel⟩, by decide +kernel, by decide +kernel⟩

end Parrot
