import Webmeow.Parrot.Chat
import Webmeow.Lib.Simulation

/-!
# What the environment says in a chat

One request of `/chat` or `/chat/stream` as a dialogue: the code asks the model for a completion or a
tool for a result, the environment answers. A round of the model is given once, as the completion,
the chunks into which a stream splits it and the results of its tool calls; the answers that each of
the two loops gets are derived from it.
-/

namespace Parrot

/-! ## Rounds of the model -/

/-- The tool calls of a completion, of which a final text has none. -/
def Completion.calls (c : Completion) : List ToolCall := c.toolCalls.getD []

/-- A completion either calls tools, with ids and names, or is a final text. -/
structure Completion.WellFormed (c : Completion) : Prop where
  /-- A completion that asks for tools calls one. -/
  calls : c.finishReason = "tool_calls" → c.calls ≠ []
  /-- Every call has an id. -/
  id : ∀ call ∈ c.calls, call.id ≠ ""
  /-- Every call has a name. -/
  name : ∀ call ∈ c.calls, ∃ name, call.name = some name ∧ name ≠ ""

/-- The deltas of a stream; a chunk may have none. -/
def deltasOf (chunks : List (Option Delta)) : List Delta := chunks.filterMap id

/-- The pieces of tool calls in a stream, in the order of arrival. -/
def piecesOf (chunks : List (Option Delta)) : List CallDelta :=
  (deltasOf chunks).flatMap Delta.toolCalls

/-- The pieces of one tool call. -/
def piecesAt (chunks : List (Option Delta)) (i : ℕ) : List CallDelta :=
  (piecesOf chunks).filter fun d => d.index = (i : ℕ)

/-- Among the values that were sent, the given one is there, whole, and the others are absent or
empty. -/
def SentWhole (value : String) (sent : List (Option String)) : Prop :=
  some value ∈ sent ∧ ∀ s ∈ sent, truthy s = none ∨ s = some value

instance (value : String) (sent : List (Option String)) : Decidable (SentWhole value sent) :=
  inferInstanceAs (Decidable (_ ∧ _))

/-- The chunks of a stream that splits the completion: the content and the arguments of each call are
cut anywhere, the id and the name are sent whole, and the pieces of different calls are interleaved
in any way. -/
structure Splits (c : Completion) (chunks : List (Option Delta)) : Prop where
  /-- The contents join to the content. -/
  content : join ((deltasOf chunks).map fun d => d.content.getD "") = c.content.getD ""
  /-- The indices are those of the calls. -/
  index : ∀ d ∈ piecesOf chunks, ∃ i < c.calls.length, d.index = (i : ℕ)
  /-- Each id is sent whole. -/
  id : ∀ i call, c.calls[i]? = some call →
    SentWhole call.id ((piecesAt chunks i).map CallDelta.id)
  /-- Each name is sent whole. -/
  name : ∀ i call name, c.calls[i]? = some call → call.name = some name →
    SentWhole name ((piecesAt chunks i).map CallDelta.name)
  /-- The arguments join to those of the call. -/
  arguments : ∀ i call, c.calls[i]? = some call →
    join ((piecesAt chunks i).map fun d => d.arguments.getD "") = call.argumentsStr

/-- A completion of the model with a stream of it and the results of its tool calls. -/
structure Round where
  /-- What the model completes. -/
  completion : Completion
  /-- How it is streamed. -/
  chunks : List (Option Delta)
  /-- What the tools return. -/
  results : List String
  /-- The completion is well formed. -/
  wellFormed : completion.WellFormed
  /-- The chunks are those of the completion. -/
  splits : Splits completion chunks
  /-- Every call is answered. -/
  answered : results.length = completion.calls.length

/-- The tool calls of the round. -/
def Round.calls (r : Round) : List ToolCall := r.completion.calls

/-- The text of the round, empty if it has no content. -/
def Round.text (r : Round) : String := r.completion.content.getD ""

/-- The stimuli of `chat` in at most `left` rounds; a round without tool calls is the last one. -/
def chatStimuli : ℕ → List Round → List Stimulus
  | 0, _ => []
  | _ + 1, [] => []
  | left + 1, r :: rs =>
    .completion r.completion ::
      if r.calls.isEmpty then [] else r.results.map .toolReturned ++ chatStimuli left rs

/-- A chunk with content makes the generator yield, and the client asks for the next event. -/
def chunkStimuli (chunk : Option Delta) : List Stimulus :=
  .chunk chunk :: if (chunk.bind fun d => truthy d.content).isSome then [.resumed] else []

/-- A call of a tool stands between two events of the stream. -/
def resultStimuli (result : String) : List Stimulus := [.resumed, .toolReturned result, .resumed]

/-- The stimuli of `chat_stream` in at most `left` rounds. -/
def streamStimuli : ℕ → List Round → List Stimulus
  | 0, _ => [.resumed, .resumed, .resumed]
  | _ + 1, [] => []
  | left + 1, r :: rs =>
    .opened :: (r.chunks.flatMap chunkStimuli ++ .streamEnd ::
      if r.calls.isEmpty then [.resumed, .resumed]
      else r.results.flatMap resultStimuli ++ streamStimuli left rs)

/-! ## Requests as machines -/

/-- What the code asks of its environment. -/
inductive Ask where
  /-- `chat.completions.create` with these messages -/
  | prompt (messages : List Message)
  /-- `_run_one_tool` with this call -/
  | tool (call : ToolCall)
deriving DecidableEq

/-- What a chat is waiting for. -/
def ChatPc.asks : ChatPc → List Ask
  | .create turn _ => [.prompt turn.messages]
  | .runTool _ _ call _ => [.tool call]
  | _ => []

/-- What a stream is waiting for. -/
def StreamPc.asks : StreamPc → List Ask
  | .create st _ => [.prompt st.turn.messages]
  | .runTool _ _ call _ => [.tool call]
  | _ => []

/-- A step of a request is given an input and the store as other requests have left it. -/
structure Moment where
  /-- The store as the step finds it. -/
  store : ConversationStore
  /-- What the step goes on with. -/
  input : Input

/-- The stimuli of the moments. -/
def stimuliOf (xs : List Moment) : List Stimulus := xs.map fun x => x.input.stimulus

/-- The stimuli all come at time zero, to a store that nobody else changes. -/
def atOnce (stimuli : List Stimulus) : List Moment :=
  stimuli.map fun s => ⟨ConversationStore.init 20 1800 500, ⟨s, 0⟩⟩

theorem stimuliOf_atOnce (stimuli : List Stimulus) : stimuliOf (atOnce stimuli) = stimuli := by
  rw [stimuliOf, atOnce, List.map_map]
  exact List.map_id stimuli

/-- `/chat` for one request; a step answers what was asked before it. -/
def chatMachine (app : App) (req : ChatRequest) (s : ConversationStore × ChatPc) (x : Moment) :
    Option ((ConversationStore × ChatPc) × List Ask) :=
  (chatStep app x.store req x.input s.2).map fun s' => (s', s.2.asks)

/-- `/chat/stream` for one request. -/
def streamMachine (app : App) (req : ChatRequest) (s : ConversationStore × StreamPc) (x : Moment) :
    Option ((ConversationStore × StreamPc) × List Ask) :=
  (streamStep app x.store req x.input s.2).map fun s' => (s', s.2.asks)

end Parrot
