import Webmeow.Parrot.Proofs.ReassemblyProofs
import Webmeow.Parrot.Proofs.ReplayProofs

/-!
# The tokens of a stream and its reply

`chat_stream` yields the content of every round as it comes and closes with the whole reply. The
reply is computed on three exits: from the tokens, as the fallback when there were none, and as the
fallback when the rounds are used up. The invariant ties the events to the stimuli so far.
-/

namespace Parrot

open Simulation

/-! ## What was emitted, what was received -/

/-- The part of the reply an event carries. -/
def Sse.delta? : Sse → Option String
  | .token delta => some delta
  | _ => none

/-- The deltas of the token events. -/
def tokens (events : List Sse) : List String := events.filterMap Sse.delta?

/-- The events that the generator has yielded. -/
def StreamPc.events : StreamPc → List Sse
  | .settled yielded => yielded
  | pc => (pc.state.map StreamState.yielded).getD []

/-- The stimulus is a chunk with content. -/
def Stimulus.hasContent : Stimulus → Bool
  | .chunk (some d) => (truthy d.content).isSome
  | _ => false

/-- Some delta of some round has content. -/
def hasContent (stimuli : List Stimulus) : Bool := stimuli.any Stimulus.hasContent

/-- Whether the stream that was opened last calls tools, after one more stimulus. -/
def Stimulus.callsTools (before : Bool) : Stimulus → Bool
  | .opened => false
  | .chunk (some d) => before || !d.toolCalls.isEmpty
  | _ => before

/-- The last round has a piece of a tool call. -/
def lastCallsTools (stimuli : List Stimulus) : Bool := stimuli.foldl Stimulus.callsTools false

/-- Either the last round is a final answer and some round has content, or the last round calls tools
and no round has content. -/
def accounted (stimuli : List Stimulus) : Bool := hasContent stimuli != lastCallsTools stimuli

/-- A stimulus that tells nothing about the model. -/
def Stimulus.silent : Stimulus → Bool
  | .opened => false
  | .chunk _ => false
  | _ => true

theorem hasContent_concat (ss : List Stimulus) (s : Stimulus) :
    hasContent (ss ++ [s]) = (hasContent ss || s.hasContent) := by
  simp [hasContent]

theorem lastCallsTools_concat (ss : List Stimulus) (s : Stimulus) :
    lastCallsTools (ss ++ [s]) = s.callsTools (lastCallsTools ss) := List.foldl_concat _ _ _ _

theorem hasContent_silent {s : Stimulus} (hs : s.silent = true) (ss : List Stimulus) :
    hasContent (ss ++ [s]) = hasContent ss := by
  rw [hasContent_concat]
  cases s with
  | chunk d => cases hs
  | _ => exact Bool.or_false _

theorem lastCallsTools_silent {s : Stimulus} (hs : s.silent = true) (ss : List Stimulus) :
    lastCallsTools (ss ++ [s]) = lastCallsTools ss := by
  rw [lastCallsTools_concat]
  cases s with
  | chunk d => cases hs
  | opened => cases hs
  | _ => rfl

/-! ## Events -/

/-- No event is a `done` event. -/
def NotDone (events : List Sse) : Prop := ∀ reply, .done reply ∉ events

/-- Every `done` event carries the concatenation of the tokens before it exactly if `holds`. -/
def RepliesTokens (holds : Bool) (events : List Sse) : Prop :=
  ∀ before reply later, events = before ++ .done reply :: later →
    (join (tokens before) = reply ↔ holds = true)

theorem tokens_concat (events : List Sse) (e : Sse) :
    tokens (events ++ [e]) = tokens events ++ e.delta?.toList := by
  unfold tokens
  rw [List.filterMap_append]
  cases e with
  | token delta => rfl
  | _ => rfl

theorem NotDone.concat {events : List Sse} (h : NotDone events) {e : Sse}
    (he : ∀ reply, e ≠ .done reply) : NotDone (events ++ [e]) := by
  intro reply hmem
  rcases List.mem_append.1 hmem with hmem | hmem
  · exact h reply hmem
  · exact he reply (List.mem_singleton.1 hmem).symm

theorem NotDone.repliesTokens {events : List Sse} (h : NotDone events) (holds : Bool) :
    RepliesTokens holds events := by
  intro before reply later heq
  exact absurd (heq ▸ List.mem_append_right before List.mem_cons_self) (h reply)

/-- The `done` event is the only one, so it is the last. -/
theorem NotDone.repliesTokens_done {events : List Sse} (h : NotDone events) {reply : String}
    {holds : Bool} (hr : join (tokens events) = reply ↔ holds = true) :
    RepliesTokens holds (events ++ [.done reply]) := by
  intro before reply' later heq
  rcases later.eq_nil_or_concat with rfl | ⟨later', e, rfl⟩
  · obtain ⟨rfl, hdone⟩ := List.append_inj' heq rfl
    cases hdone
    exact hr
  · rw [List.concat_eq_append, ← List.cons_append, ← List.append_assoc] at heq
    obtain ⟨rfl, -⟩ := List.append_inj' heq rfl
    exact absurd (List.mem_append_right before List.mem_cons_self) (h reply')

theorem RepliesTokens.concat {events : List Sse} {holds : Bool} (h : RepliesTokens holds events)
    {e : Sse} (he : ∀ reply, e ≠ .done reply) : RepliesTokens holds (events ++ [e]) := by
  intro before reply later heq
  rcases later.eq_nil_or_concat with rfl | ⟨later', e', rfl⟩
  · obtain ⟨-, hdone⟩ := List.append_inj' heq rfl
    exact absurd (List.cons.inj hdone).1 (he reply)
  · rw [List.concat_eq_append, ← List.cons_append, ← List.append_assoc] at heq
    obtain ⟨heq', -⟩ := List.append_inj' heq rfl
    exact h before reply later' heq'

theorem join_eq_empty_iff {parts : List String} (h : ∀ p ∈ parts, p ≠ "") :
    join parts = "" ↔ parts = [] := by
  cases parts with
  | nil => exact ⟨fun _ => rfl, fun _ => rfl⟩
  | cons p parts =>
    rw [join_cons, String.append_eq_empty_iff]
    exact ⟨fun hp => absurd hp.1 (h p List.mem_cons_self), fun hp => by cases hp⟩

/-! ## The invariant -/

/-- Before any exit: the tokens are the parts, which are there exactly if there was content. -/
structure Speaking (ss : List Stimulus) (st : StreamState) : Prop where
  /-- The reply is not sent yet. -/
  notDone : NotDone st.yielded
  /-- The parts of the reply are those that were sent. -/
  streamed : tokens st.yielded = st.streamedParts
  /-- No part is empty. -/
  parts : ∀ p ∈ st.streamedParts, p ≠ ""
  /-- There is a part if a chunk had content. -/
  heard : hasContent ss = !st.streamedParts.isEmpty

/-- What a stream has told, by what it was told. -/
def StreamPc.Told (ss : List Stimulus) : StreamPc → Prop
  | .enter => hasContent ss = false
  | .ready _ => hasContent ss = false
  | .create st _ => Speaking ss st
  | .receiving st _ _ fragments => Speaking ss st ∧ lastCallsTools ss = !fragments.isEmpty
  | .yieldToken st _ _ fragments calls =>
    Speaking ss st ∧ lastCallsTools ss = !(feedCalls fragments calls).isEmpty
  | .yieldToolCall st _ _ _ => Speaking ss st ∧ lastCallsTools ss = true
  | .runTool st _ _ _ => Speaking ss st ∧ lastCallsTools ss = true
  | .yieldToolResult st _ _ _ _ => Speaking ss st ∧ lastCallsTools ss = true
  | .yieldFallback st =>
    NotDone st.yielded ∧ (join (tokens st.yielded) = FALLBACK ↔ accounted ss = true)
  | .yieldDone st => RepliesTokens (accounted ss) st.yielded
  | .yieldDoneMarker st => RepliesTokens (accounted ss) st.yielded
  | .yieldError st => RepliesTokens (accounted ss) st.yielded
  | .settled yielded => RepliesTokens (accounted ss) yielded

section Steps

variable {ss : List Stimulus} {st : StreamState}

theorem accounted_silent {s : Stimulus} (hs : s.silent = true) (ss : List Stimulus) :
    accounted (ss ++ [s]) = accounted ss := by
  rw [accounted, hasContent_silent hs, lastCallsTools_silent hs, accounted]

theorem Speaking.silent (h : Speaking ss st) {s : Stimulus} (hs : s.silent = true) :
    Speaking (ss ++ [s]) st :=
  ⟨h.notDone, h.streamed, h.parts, (hasContent_silent hs ss).trans h.heard⟩

/-- An event that is neither a token nor `done` changes nothing. -/
theorem Speaking.emit (h : Speaking ss st) {e : Sse} (he : ∀ reply, e ≠ .done reply)
    (ht : e.delta? = none) : Speaking ss (st.emit e) where
  notDone := h.notDone.concat he
  streamed := by
    show tokens (st.yielded ++ [e]) = st.streamedParts
    rw [tokens_concat, ht, h.streamed]
    exact List.append_nil _
  parts := h.parts
  heard := h.heard

theorem Speaking.withTurn (h : Speaking ss st) (turn : Turn) :
    Speaking ss { st with turn := turn } :=
  ⟨h.notDone, h.streamed, h.parts, h.heard⟩

/-- A chunk with content adds a part and its token. -/
theorem Speaking.token (h : Speaking ss st) {d : Delta} {p : String} (hd : truthy d.content = some p) :
    Speaking (ss ++ [.chunk (some d)])
      ({ st with streamedParts := st.streamedParts ++ [p] }.emit (.token p)) where
  notDone := h.notDone.concat fun reply => by simp
  streamed := by
    show tokens (st.yielded ++ [.token p]) = st.streamedParts ++ [p]
    rw [tokens_concat, h.streamed]
    rfl
  parts := by
    intro q hq
    rcases List.mem_append.1 hq with hq | hq
    · exact h.parts q hq
    · rw [List.mem_singleton.1 hq]
      exact (truthy_eq_some hd).2
  heard := by
    have hcontent : (Stimulus.chunk (some d)).hasContent = true := by
      rw [Stimulus.hasContent, hd]
      rfl
    rw [hasContent_concat, hcontent, Bool.or_true]
    show true = !(st.streamedParts ++ [p]).isEmpty
    simp

theorem Speaking.noContent (h : Speaking ss st) {s : Stimulus} (hs : s.hasContent = false) :
    Speaking (ss ++ [s]) st where
  notDone := h.notDone
  streamed := h.streamed
  parts := h.parts
  heard := by
    rw [hasContent_concat, hs, Bool.or_false]
    exact h.heard

theorem feedCall_isEmpty (fragments : List Fragment) (tc : CallDelta) :
    (feedCall fragments tc).isEmpty = false := by
  unfold feedCall
  split_ifs with h
  · cases fragments with
    | nil => cases h
    | cons f fragments => rfl
  · simp

theorem feedCalls_isEmpty (fragments : List Fragment) (calls : List CallDelta) :
    (feedCalls fragments calls).isEmpty = (fragments.isEmpty && calls.isEmpty) := by
  unfold feedCalls
  induction calls generalizing fragments with
  | nil => exact (Bool.and_true _).symm
  | cons tc calls ih =>
    rw [List.foldl_cons, ih, feedCall_isEmpty, Bool.false_and]
    exact (Bool.and_false _).symm

/-- The pieces of calls in a chunk are fragments now. -/
theorem lastCallsTools_chunk {fragments : List Fragment}
    (h : lastCallsTools ss = !fragments.isEmpty) (d : Delta) :
    lastCallsTools (ss ++ [.chunk (some d)]) = !(feedCalls fragments d.toolCalls).isEmpty := by
  rw [lastCallsTools_concat, feedCalls_isEmpty, h]
  exact (Bool.not_and _ _).symm

theorem isEmpty_iff_join (h : Speaking ss st) :
    join st.streamedParts = "" ↔ hasContent ss = false := by
  rw [join_eq_empty_iff h.parts, h.heard, ← List.isEmpty_iff]
  cases st.streamedParts.isEmpty <;> simp

/-- **A final answer**: the reply is the tokens if there are any. -/
theorem Speaking.answer (h : Speaking ss st) (hcalls : lastCallsTools ss = false) :
    join (tokens st.yielded) = (truthy (some (join st.streamedParts))).getD FALLBACK ↔
      accounted ss = true := by
  rw [h.streamed, accounted, hcalls]
  by_cases hj : join st.streamedParts = ""
  · rw [(isEmpty_iff_join h).1 hj, hj]
    decide
  · have hheard : hasContent ss = true := by
      rw [← Bool.not_eq_false, ← isEmpty_iff_join h]
      exact hj
    rw [truthy_some hj, hheard]
    exact ⟨fun _ => rfl, fun _ => rfl⟩

/-- **Rounds used up**: the fallback follows the tokens of the rounds. -/
theorem Speaking.exhausted (h : Speaking ss st) (hcalls : lastCallsTools ss = true) :
    join (tokens (st.yielded ++ [.token FALLBACK])) = FALLBACK ↔ accounted ss = true := by
  rw [tokens_concat, h.streamed, join_append, accounted, hcalls]
  have hfall : join (Sse.token FALLBACK).delta?.toList = FALLBACK := by
    rw [show (Sse.token FALLBACK).delta?.toList = [FALLBACK] from rfl, join_cons, join_nil,
      String.append_empty]
  rw [hfall, String.append_eq_right_iff, isEmpty_iff_join h]
  cases hasContent ss <;> simp

theorem StreamPc.Told.silent {pc : StreamPc} (h : pc.Told ss) {s : Stimulus}
    (hs : s.silent = true) : pc.Told (ss ++ [s]) := by
  have hcalls := lastCallsTools_silent hs ss
  have haccounted := accounted_silent hs ss
  have hreplies : ∀ {events : List Sse}, RepliesTokens (accounted ss) events →
      RepliesTokens (accounted (ss ++ [s])) events := by
    intro events hr
    rwa [haccounted]
  cases pc with
  | enter => exact (hasContent_silent hs ss).trans h
  | ready history => exact (hasContent_silent hs ss).trans h
  | create st left => exact Speaking.silent h hs
  | receiving st left parts fragments => exact ⟨h.1.silent hs, hcalls.trans h.2⟩
  | yieldToken st left parts fragments calls => exact ⟨h.1.silent hs, hcalls.trans h.2⟩
  | yieldToolCall st left call rest => exact ⟨h.1.silent hs, hcalls.trans h.2⟩
  | runTool st left call rest => exact ⟨h.1.silent hs, hcalls.trans h.2⟩
  | yieldToolResult st left call rest content => exact ⟨h.1.silent hs, hcalls.trans h.2⟩
  | yieldFallback st =>
    refine ⟨h.1, ?_⟩
    rw [haccounted]
    exact h.2
  | yieldDone st => exact hreplies h
  | yieldDoneMarker st => exact hreplies h
  | yieldError st => exact hreplies h
  | settled yielded => exact hreplies h

/-- What the invariant says of the events so far. -/
theorem StreamPc.Told.repliesTokens {pc : StreamPc} (h : pc.Told ss) :
    RepliesTokens (accounted ss) pc.events := by
  have hnil : RepliesTokens (accounted ss) [] := NotDone.repliesTokens (fun _ => List.not_mem_nil) _
  cases pc with
  | enter => exact hnil
  | ready history => exact hnil
  | create st left => exact NotDone.repliesTokens (Speaking.notDone h) _
  | receiving st left parts fragments => exact h.1.notDone.repliesTokens _
  | yieldToken st left parts fragments calls => exact h.1.notDone.repliesTokens _
  | yieldToolCall st left call rest => exact h.1.notDone.repliesTokens _
  | runTool st left call rest => exact h.1.notDone.repliesTokens _
  | yieldToolResult st left call rest content => exact h.1.notDone.repliesTokens _
  | yieldFallback st => exact h.1.repliesTokens _
  | yieldDone st => exact h
  | yieldDoneMarker st => exact h
  | yieldError st => exact h
  | settled yielded => exact h

theorem streamRound_told (h : Speaking ss st) {left : ℕ}
    (hcalls : left = 0 → lastCallsTools ss = true) : (streamRound st left).Told ss := by
  cases left with
  | zero => exact ⟨h.notDone.concat fun reply => by simp, h.exhausted (hcalls rfl)⟩
  | succ left => exact h

theorem streamCalls_told (h : Speaking ss st) (hcalls : lastCallsTools ss = true) (left : ℕ)
    (calls : List ToolCall) : (streamCalls st left calls).Told ss := by
  cases calls with
  | nil => exact streamRound_told h fun _ => hcalls
  | cons call rest => exact ⟨h.emit (fun reply => by simp) rfl, hcalls⟩

theorem streamEnded_told {fragments : List Fragment} (h : Speaking ss st)
    (hcalls : lastCallsTools ss = !fragments.isEmpty) (left : ℕ) (parts : List String) :
    (streamEnded st left parts fragments).Told ss := by
  unfold streamEnded
  split_ifs with he
  · rw [he] at hcalls
    exact h.notDone.repliesTokens_done (h.answer hcalls)
  · refine streamCalls_told (h.withTurn _) ?_ left _
    rw [hcalls]
    simpa using he

theorem streamChunk_told {fragments : List Fragment} (h : Speaking ss st)
    (hcalls : lastCallsTools ss = !fragments.isEmpty) (left : ℕ) (parts : List String) (d : Delta) :
    (streamChunk st left parts fragments d).Told (ss ++ [.chunk (some d)]) := by
  have hchunk := lastCallsTools_chunk hcalls d
  unfold streamChunk
  cases hd : truthy d.content with
  | none =>
    have hquiet : (Stimulus.chunk (some d)).hasContent = false := by
      rw [Stimulus.hasContent, hd]
      rfl
    exact ⟨h.noContent hquiet, hchunk⟩
  | some p => exact ⟨h.token hd, hchunk⟩

variable {app : App} {req : ChatRequest} {store : ConversationStore} {now : ℚ} {pc : StreamPc}
  {q : ConversationStore × StreamPc}

theorem events_of_state (h : pc.state = some st) : pc.events = st.yielded := by
  cases pc with
  | settled yielded => cases h
  | _ => exact congrArg (fun o => (o.map StreamState.yielded).getD []) h

theorem streamStep_told {x : Input} (h : pc.Told ss) (hq : streamStep app store req x pc = some q) :
    q.2.Told (ss ++ [x.stimulus]) := by
  have hmove := streamStep_move hq
  generalize x.stimulus = stimulus at hmove
  have herror : ∀ reply, Sse.error llmUnavailable ≠ .done reply := fun reply => by simp
  cases hmove with
  | entered => exact h.silent rfl
  | started history =>
    have hquiet := h.silent (s := .resumed) rfl
    have hstart : Speaking (ss ++ [.resumed]) ⟨app.assemble req history, [], []⟩ :=
      ⟨fun _ => List.not_mem_nil, rfl, fun _ hm => absurd hm List.not_mem_nil, hquiet⟩
    have hmax : MAX_TOOL_ROUNDS = 0 → lastCallsTools (ss ++ [.resumed]) = true :=
      fun h0 => by cases h0
    exact streamRound_told hstart hmax
  | opened st left => exact ⟨Speaking.noContent h rfl, lastCallsTools_concat ss .opened⟩
  | noDelta st left parts fragments =>
    exact ⟨h.1.noContent rfl, (lastCallsTools_concat ss (.chunk none)).trans h.2⟩
  | delta st left parts fragments d => exact streamChunk_told h.1 h.2 left parts d
  | tokenSent st left parts fragments calls => exact h.silent rfl
  | ended st left parts fragments =>
    exact streamEnded_told (h.1.silent rfl) ((lastCallsTools_silent rfl ss).trans h.2) left parts
  | callSent st left call rest => exact h.silent rfl
  | returned st left call rest content =>
    exact ⟨(h.1.silent rfl).emit (fun reply => by simp) rfl,
      (lastCallsTools_silent rfl ss).trans h.2⟩
  | resultSent st left call rest content =>
    have hquiet := h.silent (s := .resumed) rfl
    exact streamCalls_told (hquiet.1.withTurn _) hquiet.2 left rest
  | fallbackSent st =>
    have hquiet := h.silent (s := .resumed) rfl
    exact hquiet.1.repliesTokens_done hquiet.2
  | doneSent st =>
    exact RepliesTokens.concat (h.silent (s := .resumed) rfl) fun reply => by simp
  | markerSent st => exact h.silent rfl
  | errorSent st => exact h.silent rfl
  | createRaised st left => exact ((Speaking.notDone h).concat herror).repliesTokens _
  | receiveRaised st left parts fragments => exact (h.1.notDone.concat herror).repliesTokens _
  | toolRaised st left call rest => exact (h.1.notDone.concat herror).repliesTokens _
  | closed hst => exact NotDone.repliesTokens (fun _ => List.not_mem_nil) _
  | cancelled hst =>
    -- a generator that is cancelled yields nothing more
    have hevents := (h.silent (s := .cancelled) rfl).repliesTokens
    rw [events_of_state hst] at hevents
    exact hevents

end Steps

/-! ## Runs -/

theorem trace_told {app : App} {req : ChatRequest} {ss : List Stimulus}
    {s t : ConversationStore × StreamPc} {xs : List Moment} {os : List (List Ask)}
    (h : s.2.Told ss) (ht : trace (streamMachine app req) s xs = some (t, os)) :
    t.2.Told (ss ++ stimuliOf xs) := by
  induction xs generalizing s ss os with
  | nil =>
    cases ht
    rwa [stimuliOf, List.map_nil, List.append_nil]
  | cons x xs ih =>
    obtain ⟨s', o, os', hstep, hrest, rfl⟩ := trace_cons_iff.1 ht
    obtain ⟨q, hq, hs'⟩ := Option.map_eq_some_iff.1 hstep
    cases hs'
    have hnext := ih (streamStep_told h hq) hrest
    rwa [List.append_assoc, List.singleton_append] at hnext

/-- **Tokens and reply, exactly**: in every run of `chat_stream`, whatever the model, the tools and the
client do, the tokens that were emitted before the `done` event concatenate to its reply if and only if
either the last round was a final answer and some round had content, or the last round called tools
and no round had content. -/
theorem reply_eq_tokens_iff (app : App) (req : ChatRequest) (store : ConversationStore)
    (xs : List Moment) (last : ConversationStore × StreamPc) (os : List (List Ask))
    (hrun : trace (streamMachine app req) (store, .enter) xs = some (last, os))
    (before : List Sse) (reply : String) (later : List Sse)
    (hdone : last.2.events = before ++ .done reply :: later) :
    join (tokens before) = reply ↔
      (lastCallsTools (stimuliOf xs) = false ∧ hasContent (stimuliOf xs) = true) ∨
        (lastCallsTools (stimuliOf xs) = true ∧ hasContent (stimuliOf xs) = false) := by
  have hstart : StreamPc.enter.Told [] := rfl
  have htold : last.2.Told ([] ++ stimuliOf xs) := trace_told hstart hrun
  rw [htold.repliesTokens before reply later hdone, List.nil_append, accounted]
  cases lastCallsTools (stimuliOf xs) <;> cases hasContent (stimuliOf xs) <;> decide

/-! ## The three exits -/

/-- The model answers in one piece. -/
def spokenAnswer : List Stimulus :=
  [.resumed, .resumed, .opened, .chunk (some ⟨some "None are.", []⟩), .resumed, .streamEnd]

/-- The model answers nothing. -/
def silentAnswer : List Stimulus := [.resumed, .resumed, .opened, .chunk (some ⟨none, []⟩), .streamEnd]

/-- A round that says something and calls a tool. -/
def preambleRound : List Stimulus :=
  [.opened, .chunk (some ⟨some "Let me look.", [⟨0, some "call_a", some "get_hotel_rooms", none⟩]⟩),
    .resumed, .streamEnd, .resumed, .toolReturned "[]", .resumed]

/-- The model never stops calling tools. -/
def endlessTools : List Stimulus :=
  [.resumed, .resumed] ++ preambleRound ++ preambleRound ++ preambleRound ++ preambleRound ++
    preambleRound ++ [.resumed]

theorem spokenAnswer_reply :
    ∃ last os, trace (streamMachine plainApp question) (ConversationStore.init 20 1800 500, .enter)
        (atOnce spokenAnswer) = some (last, os) ∧
      last.2.events = [.token "None are."] ++ .done "None are." :: [] ∧
      join (tokens [.token "None are."]) = "None are." :=
  ⟨_, _, rfl, rfl, (reply_eq_tokens_iff plainApp question (ConversationStore.init 20 1800 500)
    (atOnce spokenAnswer) _ _ rfl [.token "None are."] "None are." [] rfl).2
    (Or.inl (by decide))⟩

/-- Without any content the reply is the fallback, of which no token was emitted; when the rounds are
used up, the fallback comes after the tokens of the rounds. -/
theorem fallback_reply_differs :
    (∃ last os, trace (streamMachine plainApp question) (ConversationStore.init 20 1800 500, .enter)
        (atOnce silentAnswer) = some (last, os) ∧
      last.2.events = [] ++ .done FALLBACK :: [] ∧ join (tokens []) ≠ FALLBACK) ∧
      ∃ last os before, trace (streamMachine plainApp question)
          (ConversationStore.init 20 1800 500, .enter) (atOnce endlessTools) =
          some (last, os) ∧
        last.2.events = before ++ .done FALLBACK :: [] ∧ join (tokens before) ≠ FALLBACK := by
  refine ⟨⟨_, _, rfl, rfl, by decide⟩, _, _,
    (List.replicate 5 [.token "Let me look.", .toolCall (some "get_hotel_rooms"),
      .toolResult (some "get_hotel_rooms")]).flatten ++ [.token FALLBACK], rfl, rfl, ?_⟩
  decide +kernel

end Parrot
