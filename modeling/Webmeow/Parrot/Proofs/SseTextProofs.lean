import Webmeow.Parrot.SseText
import Webmeow.Parrot.Proofs.StreamProofs

/-!
# A client reads what the stream says

The text of an event is one message of the event stream, so a client reads the events that were yielded,
and of a part of the body a part of them. At every moment they come in the order of `Phase`, and a stream
that ends without being cancelled has come to its last phase.
-/

namespace Parrot

open JsonText EventStream Runs Interleaving

/-! ## One event -/

theorem oneLine_dumps (v : Value) : OneLine (dumps v) := inLine_dumps v

/-- The text of an event with a type. -/
def sseText (event : String) (ht : OneLine event.toList) (hne : event.toList ≠ []) (data : Value) :
    Text :=
  (Content.mk event.toList (dumps data) ht (oneLine_dumps data) hne).text

theorem sse_toList (event : String) (ht : OneLine event.toList) (hne : event.toList ≠ [])
    (data : Value) : (sse event data).toList = (sseText event ht hne data).text := by
  simp [sse, sseText, Content.text, frame]

theorem stringField_str {v : Value} {key s : String} (h : v.get key = some (strValue s)) :
    stringField v key = some s := by
  rw [stringField, h]
  exact Utf16.toString?_ofString s

theorem nameField_nameValue {v : Value} {name : Option String}
    (h : v.get "name" = some (nameValue name)) : nameField v = some name := by
  rw [nameField, h]
  cases name with
  | none => rfl
  | some name => exact congrArg (Option.map some) (Utf16.toString?_ofString name)

/-- What the type and the data of an event are read as. -/
theorem readPayload_payload {e : Sse} {event : String} {data : Value}
    (h : e.payload = some (event, data)) : readPayload event.toList data = some e := by
  cases e with
  | token delta =>
    cases h
    have hfield : stringField (.obj [entry "delta" (strValue delta)]) "delta" = some delta :=
      stringField_str rfl
    rw [readPayload, if_pos rfl, hfield]
    rfl
  | toolCall name =>
    cases h
    have htype : stringField (.obj [entry "type" (strValue "tool_call"),
        entry "name" (nameValue name)]) "type" = some "tool_call" := stringField_str rfl
    have hname : nameField (.obj [entry "type" (strValue "tool_call"),
        entry "name" (nameValue name)]) = some name := nameField_nameValue rfl
    rw [readPayload, if_neg (by decide), if_neg (by decide), if_neg (by decide), if_pos rfl,
      if_pos htype, hname]
    rfl
  | toolResult name =>
    cases h
    have htype : stringField (.obj [entry "type" (strValue "tool_result"),
        entry "name" (nameValue name)]) "type" = some "tool_result" := stringField_str rfl
    have hname : nameField (.obj [entry "type" (strValue "tool_result"),
        entry "name" (nameValue name)]) = some name := nameField_nameValue rfl
    rw [readPayload, if_neg (by decide), if_neg (by decide), if_neg (by decide), if_pos rfl, htype,
      if_neg (by decide), if_pos rfl, hname]
    rfl
  | done reply =>
    cases h
    have hfield : stringField (.obj [entry "reply" (strValue reply)]) "reply" = some reply :=
      stringField_str rfl
    rw [readPayload, if_neg (by decide), if_pos rfl, hfield]
    rfl
  | doneMarker => cases h
  | error detail =>
    cases h
    have hfield : stringField (.obj [entry "detail" (strValue detail)]) "detail" = some detail :=
      stringField_str rfl
    rw [readPayload, if_neg (by decide), if_neg (by decide), if_pos rfl, hfield]
    rfl

/-- The types of the events fit into a line and are none of the default. -/
theorem payload_type {e : Sse} {event : String} {data : Value} (h : e.payload = some (event, data)) :
    OneLine event.toList ∧ event.toList ≠ [] ∧ event.toList ≠ "message".toList := by
  cases e with
  | doneMarker => cases h
  | _ => cases h; decide

/-- The text of an event as one message. -/
theorem exists_text (e : Sse) :
    ∃ t : Text, e.text.toList = t.text ∧ readSse ⟨t.type, t.data, []⟩ = some e := by
  unfold Sse.text
  split
  · rename_i event data h
    obtain ⟨hline, hne, hmessage⟩ := payload_type h
    refine ⟨sseText event hline hne data, sse_toList event hline hne data, ?_⟩
    have hread : readSse ⟨event.toList, dumps data, []⟩ = some e := by
      rw [readSse, if_neg hmessage, parse_dumps, Option.bind_some]
      exact readPayload_payload h
    exact hread
  · rename_i h
    have hmarker : e = .doneMarker := by
      cases e with
      | doneMarker => rfl
      | _ => cases h
    subst hmarker
    exact ⟨dataText "[DONE]".toList (by decide), by decide, by decide⟩

/-! ## All events -/

/-- The texts of the events. -/
theorem exists_texts (events : List Sse) :
    ∃ texts : List Text, streamText events = texts.flatMap Text.text ∧
      (texts.map fun t => (⟨t.type, t.data, []⟩ : EventStream.Message)).mapM readSse =
        some events := by
  induction events with
  | nil => exact ⟨[], rfl, rfl⟩
  | cons e events ih =>
    obtain ⟨t, htext, hread⟩ := exists_text e
    obtain ⟨texts, htexts, hreads⟩ := ih
    refine ⟨t :: texts, ?_, ?_⟩
    · rw [streamText, List.flatMap_cons, htext, List.flatMap_cons, ← htexts]
      rfl
    · rw [List.map_cons, List.mapM_cons, hread, hreads]
      rfl

/-- **The round trip**: what is read from the texts of the events are the events. -/
theorem readStream_streamText (events : List Sse) : readStream (streamText events) = some events := by
  obtain ⟨texts, htexts, hreads⟩ := exists_texts events
  rw [readStream, htexts, parse_texts, hreads]

theorem mapM_prefix {α β : Type} {f : α → Option β} {l l' : List α} {bs : List β}
    (hl : l <+: l') (h : l'.mapM f = some bs) : ∃ bs', bs' <+: bs ∧ l.mapM f = some bs' := by
  obtain ⟨rest, rfl⟩ := hl
  induction l generalizing bs with
  | nil => exact ⟨[], List.nil_prefix, rfl⟩
  | cons a l ih =>
    rw [List.cons_append, List.mapM_cons] at h
    obtain ⟨b, hb, h⟩ := Option.bind_eq_some_iff.1 h
    obtain ⟨bs₁, hrest, h⟩ := Option.bind_eq_some_iff.1 h
    cases h
    obtain ⟨bs', hprefix, hread⟩ := ih hrest
    refine ⟨b :: bs', List.cons_prefix_cons.2 ⟨rfl, hprefix⟩, ?_⟩
    rw [List.mapM_cons, hb, hread]
    rfl

/-- Of a part of the body a part of the events is read. -/
theorem readStream_prefix {part : List Char} {events : List Sse} (h : part <+: streamText events) :
    ∃ read, read <+: events ∧ readStream part = some read :=
  mapM_prefix (parse_of_begun h) (readStream_streamText events)

/-! ## The order -/

theorem follow_concat {events : List Sse} {phase : Phase} (h : follow events = some phase) (e : Sse) :
    follow (events ++ [e]) = phase.next e := by
  unfold follow at h ⊢
  rw [List.foldlM_append, h]
  show ((phase.next e).bind fun phase' => some phase') = phase.next e
  exact Option.bind_fun_some _

/-- The phase of a suspended generator; a settled one has come to its end unless it was cancelled. -/
def StreamPc.InPhase (cancelled : Prop) : StreamPc → Prop
  | .enter => True
  | .ready _ => True
  | .create st _ => follow st.yielded = some .talking
  | .receiving st _ _ _ => follow st.yielded = some .talking
  | .yieldToken st _ _ _ _ => follow st.yielded = some .talking
  | .yieldToolCall st _ call _ => follow st.yielded = some (.calling call.name)
  | .runTool st _ call _ => follow st.yielded = some (.calling call.name)
  | .yieldToolResult st _ _ _ _ => follow st.yielded = some .talking
  | .yieldFallback st => follow st.yielded = some .talking
  | .yieldDone st => follow st.yielded = some .answered
  | .yieldDoneMarker st => follow st.yielded = some .closed
  | .yieldError st => follow st.yielded = some .closed
  | .settled yielded => ∃ phase, follow yielded = some phase ∧ (phase = .closed ∨ cancelled)

section Steps

variable {c : Prop} {st : StreamState} {app : App} {req : ChatRequest} {store : ConversationStore}
  {pc : StreamPc} {q : ConversationStore × StreamPc}

theorem follow_emit {phase phase' : Phase} (h : follow st.yielded = some phase) {e : Sse}
    (he : phase.next e = some phase') : follow (st.emit e).yielded = some phase' :=
  (follow_concat h e).trans he

theorem streamRound_inPhase (h : follow st.yielded = some .talking) (left : ℕ) :
    (streamRound st left).InPhase c := by
  cases left with
  | zero => exact (follow_concat h (.token FALLBACK)).trans rfl
  | succ left => exact h

theorem streamCalls_inPhase (st : StreamState) (h : follow st.yielded = some .talking) (left : ℕ)
    (calls : List ToolCall) : (streamCalls st left calls).InPhase c := by
  cases calls with
  | nil => exact streamRound_inPhase h left
  | cons call rest => exact follow_emit h rfl

theorem streamChunk_inPhase (h : follow st.yielded = some .talking) (left : ℕ) (parts : List String)
    (fragments : List Fragment) (d : Delta) : (streamChunk st left parts fragments d).InPhase c := by
  unfold streamChunk
  split
  · exact h
  · exact (follow_concat h _).trans rfl

theorem streamEnded_inPhase (h : follow st.yielded = some .talking) (left : ℕ) (parts : List String)
    (fragments : List Fragment) : (streamEnded st left parts fragments).InPhase c := by
  unfold streamEnded
  split_ifs
  · exact (follow_concat h _).trans rfl
  · exact streamCalls_inPhase (st.push _) h left (callsOf fragments)

/-- The events of a generator in its body have a phase. -/
theorem StreamPc.InPhase.of_state (h : pc.InPhase c) (hst : pc.state = some st) :
    ∃ phase, follow st.yielded = some phase := by
  cases pc with
  | enter => cases hst
  | ready history => cases hst
  | settled yielded => cases hst
  | _ => cases hst; exact ⟨_, h⟩

/-- **One step** keeps the order, and only a cancellation stops the stream before its end. -/
theorem streamStep_inPhase {x : Input} (h : pc.InPhase c)
    (hq : streamStep app store req x pc = some q) : q.2.InPhase (c ∨ x.stimulus = .cancelled) := by
  have hmove := streamStep_move hq
  generalize x.stimulus = stimulus at hmove
  cases hmove with
  | entered => trivial
  | started history =>
    have hnil : follow [] = some .talking := rfl
    exact streamRound_inPhase hnil MAX_TOOL_ROUNDS
  | opened st left => exact h
  | noDelta st left parts fragments => exact h
  | delta st left parts fragments d => exact streamChunk_inPhase h left parts fragments d
  | tokenSent st left parts fragments calls => exact h
  | ended st left parts fragments => exact streamEnded_inPhase h left parts fragments
  | callSent st left call rest => exact h
  | returned st left call rest content => exact follow_emit h (if_pos rfl)
  | resultSent st left call rest content =>
    have hpush : follow (st.push (.tool call.id content)).yielded = some .talking := h
    exact streamCalls_inPhase _ hpush left rest
  | fallbackSent st => exact follow_emit h rfl
  | doneSent st => exact follow_emit h rfl
  | markerSent st => exact ⟨.closed, h, Or.inl rfl⟩
  | errorSent st => exact ⟨.closed, h, Or.inl rfl⟩
  | createRaised st left => exact follow_emit h rfl
  | receiveRaised st left parts fragments => exact follow_emit h rfl
  | toolRaised st left call rest => exact follow_emit h rfl
  | closed hst => exact ⟨.talking, rfl, Or.inr (Or.inr rfl)⟩
  | cancelled hst =>
    obtain ⟨phase, hphase⟩ := h.of_state hst
    exact ⟨phase, hphase, Or.inr (Or.inr rfl)⟩

theorem StreamPc.InPhase.mono {c' : Prop} (h : pc.InPhase c) (hc : c → c') : pc.InPhase c' := by
  cases pc with
  | settled yielded =>
    obtain ⟨phase, hphase, hend⟩ := h
    exact ⟨phase, hphase, hend.imp_right hc⟩
  | _ => exact h

theorem StreamPc.InPhase.events (h : pc.InPhase c) : ∃ phase, follow pc.events = some phase := by
  cases pc with
  | enter => exact ⟨.talking, rfl⟩
  | ready history => exact ⟨.talking, rfl⟩
  | settled yielded =>
    obtain ⟨phase, hphase, -⟩ := h
    exact ⟨phase, hphase⟩
  | _ => exact ⟨_, h⟩

end Steps

/-! ## Runs -/

/-- The client of the `i`-th request disconnects. -/
def Disconnects (i : ℕ) (es : List (Event Request Input)) : Prop :=
  ∃ now, .advance i ⟨.cancelled, now⟩ ∈ es

theorem Disconnects.append {i : ℕ} {es : List (Event Request Input)} (h : Disconnects i es)
    (e : Event Request Input) : Disconnects i (es ++ [e]) := by
  obtain ⟨now, hnow⟩ := h
  exact ⟨now, List.mem_append_left _ hnow⟩

/-- Every stream of the service is in a phase. -/
theorem run_inPhase {app : App} {store : ConversationStore} {es : List (Event Request Input)}
    {p : System} (hrun : run (step app) ⟨store, []⟩ es = some p) {i : ℕ} {req : ChatRequest}
    {pc : StreamPc} (hi : p.threads[i]? = some (.chatStream req pc)) :
    pc.InPhase (Disconnects i es) := by
  induction es using List.reverseRecOn generalizing p pc with
  | nil =>
    rw [run_nil, Option.some.injEq] at hrun
    subst hrun
    cases hi
  | append_singleton es e ih =>
    obtain ⟨p', hp', hstep⟩ := run_concat_iff.1 hrun
    rcases Pool.thread_after hstep hi with hkept | ⟨r, -, hstart⟩ | ⟨x, t, he, ht, hact⟩
    · exact (ih hp' hkept).mono fun h => h.append e
    · cases r with
      | chatStream req' =>
        cases hstart
        trivial
      | _ => cases hstart
    · cases t with
      | chatStream req' pc' =>
        obtain ⟨q, hq, hq'⟩ := Option.map_eq_some_iff.1 hact
        obtain ⟨-, hthread⟩ := Prod.mk.inj hq'
        cases hthread
        refine (streamStep_inPhase (ih hp' ht) hq).mono ?_
        rintro (h | hx)
        · exact h.append e
        · refine ⟨x.now, List.mem_append_right _ (List.mem_singleton.2 ?_)⟩
          rw [he, ← hx]
      | chat req' pc' =>
        obtain ⟨q, -, hq'⟩ := Option.map_eq_some_iff.1 hact
        cases (Prod.mk.inj hq').2
      | cleanup finished =>
        simp only [act] at hact
        split_ifs at hact
        cases (Prod.mk.inj (Option.some.inj hact)).2

/-- **The stream as its client reads it**: in every run of the service, whatever the model, the tools, the
clients and other requests do, a client that reads the body of a stream reads exactly the events that
were yielded, and of any part of the body a part of them. They come in order: tokens, and tool calls each
with the result of the same tool, then one reply and the marker, or one error; a stream that has ended
although its client did not disconnect has come to the marker or the error. -/
theorem stream_read_in_order (app : App) (store : ConversationStore)
    (es : List (Event Request Input)) (p : System)
    (hrun : run (step app) ⟨store, []⟩ es = some p) (i : ℕ) (req : ChatRequest) (pc : StreamPc)
    (hi : p.threads[i]? = some (.chatStream req pc)) :
    readStream (streamText pc.events) = some pc.events ∧
      (∀ part, part <+: streamText pc.events →
        ∃ read, read <+: pc.events ∧ readStream part = some read) ∧
      (∃ phase, follow pc.events = some phase) ∧
      ∀ yielded, pc = .settled yielded → ¬Disconnects i es → follow yielded = some .closed := by
  have hphase := run_inPhase hrun hi
  refine ⟨readStream_streamText _, fun part => readStream_prefix, hphase.events, ?_⟩
  rintro yielded rfl hconnected
  obtain ⟨phase, hfollow, hend⟩ := hphase
  rw [hfollow, hend.resolve_right hconnected]

/-- A greeting. -/
def greetingRequest : ChatRequest := ⟨"Hello", none, by decide⟩

/-- A stream that answers in one token and is read to its end. -/
def greetingStream : List (Event Request Input) :=
  .request (.chatStream greetingRequest) ::
    [Stimulus.resumed, .resumed, .opened, .chunk (some ⟨some "Ahoy \"you\"", []⟩), .resumed, .streamEnd,
      .resumed, .resumed].map fun s => .advance 0 ⟨s, 0⟩

theorem greeting_stream_read :
    ∃ p pc, run (step ⟨"", id⟩) ⟨ConversationStore.init 20 1800 100, []⟩ greetingStream = some p ∧
      p.threads[0]? = some (.chatStream greetingRequest pc) ∧
      readStream (streamText pc.events) =
        some [.token "Ahoy \"you\"", .done "Ahoy \"you\"", .doneMarker] :=
  ⟨_, _, rfl, rfl, (stream_read_in_order ⟨"", id⟩ _ greetingStream _ rfl 0 greetingRequest _ rfl).1⟩

end Parrot
