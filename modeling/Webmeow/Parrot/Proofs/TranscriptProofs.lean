import Webmeow.Parrot.Admin
import Webmeow.Parrot.Proofs.HistoryProofs

/-!
# Labels of a transcript

A tool row is labelled with the name of the call that it answers. The names in use are those of the
last message with calls before the row, so ids may come up again in a later group. In a replayable
history every row is labelled by the call of its own group.
-/

namespace Parrot

open Groups

/-- The calls of the last message that has some. -/
def latestCalls (pre : List Message) : List ToolCall :=
  ((pre.filter fun m => m.calls ≠ []).getLast?.map Message.calls).getD []

/-! ## The names of a group -/

/-- The names that a group of calls enters. -/
def groupOf (calls : List ToolCall) : String → Option String :=
  calls.foldl enterCall fun _ => none

theorem enterCall_other {call : ToolCall} {id : String} (h : id ≠ call.id)
    (group : String → Option String) : enterCall group call id = group id := by
  cases hname : call.name with
  | none => simp only [enterCall, hname]
  | some name => simp only [enterCall, hname, if_neg h]

theorem enterCall_self {call : ToolCall} {group : String → Option String}
    (h : group call.id = none) : enterCall group call call.id = call.name := by
  cases hname : call.name with
  | none => simp only [enterCall, hname, h]
  | some name => simp only [enterCall, hname, if_true]

theorem foldl_enterCall_of_notMem {calls : List ToolCall} {id : String}
    (h : id ∉ calls.map ToolCall.id) (group : String → Option String) :
    calls.foldl enterCall group id = group id := by
  induction calls generalizing group with
  | nil => rfl
  | cons call calls ih =>
    rw [List.map_cons, List.mem_cons, not_or] at h
    rw [List.foldl_cons, ih h.2, enterCall_other h.1]

/-- An id that comes up once is entered with the name of its call. -/
theorem foldl_enterCall_of_mem {calls : List ToolCall} (hnodup : (calls.map ToolCall.id).Nodup)
    {call : ToolCall} (hcall : call ∈ calls) {group : String → Option String}
    (hgroup : group call.id = none) : calls.foldl enterCall group call.id = call.name := by
  induction calls generalizing group with
  | nil => cases hcall
  | cons first calls ih =>
    rw [List.map_cons, List.nodup_cons] at hnodup
    rw [List.foldl_cons]
    rcases List.mem_cons.1 hcall with rfl | hcall
    · rw [foldl_enterCall_of_notMem hnodup.1, enterCall_self hgroup]
    · have hne : call.id ≠ first.id := fun he => hnodup.1 (he ▸ List.mem_map_of_mem hcall)
      exact ih hnodup.2 hcall ((enterCall_other hne group).trans hgroup)

theorem groupOf_of_mem {calls : List ToolCall} (hnodup : (calls.map ToolCall.id).Nodup)
    {call : ToolCall} (hcall : call ∈ calls) : groupOf calls call.id = call.name :=
  foldl_enterCall_of_mem hnodup hcall rfl

theorem groupOf_of_notMem {calls : List ToolCall} {id : String}
    (h : ∀ call ∈ calls, call.id ≠ id) : groupOf calls id = none := by
  refine foldl_enterCall_of_notMem (fun hmem => ?_) _
  obtain ⟨call, hcall, hid⟩ := List.mem_map.1 hmem
  exact h call hcall hid

/-! ## The group that is carried along -/

theorem latestCalls_concat (pre : List Message) (m : Message) :
    latestCalls (pre ++ [m]) = if m.calls = [] then latestCalls pre else m.calls := by
  unfold latestCalls
  rw [List.filter_append]
  by_cases hm : m.calls = []
  · have hnone : [m].filter (fun m => m.calls ≠ []) = [] := by simp [hm]
    rw [if_pos hm, hnone, List.append_nil]
  · have hself : [m].filter (fun m => m.calls ≠ []) = [m] := by simp [hm]
    rw [if_neg hm, hself, List.getLast?_concat]
    rfl

/-- The invariant of the loop. -/
theorem foldl_groupAfter (pre : List Message) :
    pre.foldl groupAfter (fun _ => none) = groupOf (latestCalls pre) := by
  induction pre using List.reverseRecOn with
  | nil => rfl
  | append_singleton pre m ih =>
    rw [List.foldl_append, ih, latestCalls_concat]
    simp only [List.foldl_cons, List.foldl_nil, groupAfter]
    split_ifs with hm
    · rfl
    · rfl

/-- A message behind a group and rows without calls. -/
theorem latestCalls_append {group : Message} (hgroup : group.calls ≠ []) (pre : List Message)
    {between : List Message} (hbetween : ∀ m ∈ between, m.calls = []) :
    latestCalls (pre ++ group :: between) = group.calls := by
  have hnone : between.filter (fun m => m.calls ≠ []) = [] :=
    List.filter_eq_nil_iff.2 fun m hm => by simp [hbetween m hm]
  have hself : (group :: between).filter (fun m => m.calls ≠ []) = [group] := by
    rw [List.filter_cons_of_pos (by simpa using hgroup), hnone]
  unfold latestCalls
  rw [List.filter_append, hself, List.getLast?_concat]
  rfl

theorem normalizeFrom_append (group : String → Option String) (a b : List Message) :
    normalizeFrom group (a ++ b) =
      normalizeFrom group a ++ normalizeFrom (a.foldl groupAfter group) b := by
  induction a generalizing group with
  | nil => rfl
  | cons m a ih =>
    rw [List.cons_append, normalizeFrom, ih, normalizeFrom]
    rfl

theorem normalizeFrom_map (group : String → Option String) (msgs : List Message) :
    (normalizeFrom group msgs).map (fun e => (e.role, e.content)) =
      msgs.map fun m => (m.role, m.content) := by
  induction msgs generalizing group with
  | nil => rfl
  | cons m msgs ih => rw [normalizeFrom, List.map_cons, List.map_cons, ih]; rfl

theorem length_normalizeFrom (group : String → Option String) (msgs : List Message) :
    (normalizeFrom group msgs).length = msgs.length := by
  have h := congrArg List.length (normalizeFrom_map group msgs)
  rwa [List.length_map, List.length_map] at h

/-- The entry of a message. -/
theorem normalizeTranscript_getElem? (pre : List Message) (m : Message) (post : List Message) :
    (normalizeTranscript (pre ++ m :: post))[pre.length]? =
      some (normalizeMessage m (groupOf (latestCalls (pre ++ [m])))) := by
  rw [normalizeTranscript, normalizeFrom_append,
    List.getElem?_append_right (by rw [length_normalizeFrom]), length_normalizeFrom, Nat.sub_self,
    ← foldl_groupAfter, List.foldl_append]
  rfl

/-! ## Labels -/

/-- The message is a tool result. -/
def Message.isRow : Message → Bool
  | .tool _ _ => true
  | _ => false

theorem calls_of_isRow {m : Message} (h : m.isRow = true) : m.calls = [] := by
  cases m with
  | tool toolCallId content => rfl
  | system content => rfl
  | user content censored => rfl
  | assistant content toolCalls => cases h

theorem isRow_of_kind {m : Message} {id : String} (h : m.kind = .answers id) : m.isRow = true := by
  cases m with
  | tool toolCallId content => rfl
  | system content => cases h
  | user content censored => cases h
  | assistant content toolCalls =>
    cases toolCalls with
    | none => cases h
    | some calls => cases h

theorem exists_of_kind_opens {m : Message} {ids : List String} (h : m.kind = .opens ids) :
    ∃ content calls, m = .assistant content (some calls) ∧ ids = calls.map ToolCall.id := by
  cases m with
  | tool toolCallId content => cases h
  | system content => cases h
  | user content censored => cases h
  | assistant content toolCalls =>
    cases toolCalls with
    | none => cases h
    | some calls =>
      cases h
      exact ⟨content, calls, rfl, rfl⟩

/-- What the entry `e` of a tool row says that answers `id` behind the messages `pre`. -/
structure Labelled (msgs pre : List Message) (id : String) (e : TranscriptEntry) : Prop where
  /-- The row is the one of the call. -/
  toolCallId : e.toolCallId = some id
  /-- Between the row and its group there are rows only. -/
  own : ∀ pre' group between, pre = pre' ++ group :: between →
    (∀ r ∈ between, r.isRow = true) → ∀ call ∈ group.calls, call.id = id → e.name = call.name
  /-- A row whose call is not in the last group has no name. -/
  dangling : (∀ call ∈ latestCalls pre, call.id ≠ id) → e.name = none
  /-- In a replayable conversation, the row has the name of the call it answers. -/
  answered : Replayable msgs → ∃ pre' content calls between call,
    pre = pre' ++ .assistant content (some calls) :: between ∧
      (∀ r ∈ between, r.isRow = true) ∧ calls[between.length]? = some call ∧ call.id = id ∧
      e.name = call.name

/-- In a replayable history a row has its group. -/
theorem Replayable.group {pre post : List Message} {id content : String}
    (h : Replayable (pre ++ .tool id content :: post)) : ∃ pre' text calls between call,
      pre = pre' ++ .assistant text (some calls) :: between ∧ (∀ r ∈ between, r.isRow = true) ∧
        calls[between.length]? = some call ∧ call.id = id := by
  obtain ⟨pre', opener, ids, between, hpre, hopener, hbetween, hid⟩ := Grouped.opening h rfl rfl
  obtain ⟨text, calls, rfl, rfl⟩ := exists_of_kind_opens hopener
  rw [List.getElem?_map, Option.map_eq_some_iff] at hid
  obtain ⟨call, hcall, hid⟩ := hid
  refine ⟨pre', text, calls, between, call, hpre, fun r hr => ?_, hcall, hid⟩
  obtain ⟨id', hr'⟩ := hbetween r hr
  exact isRow_of_kind hr'

/-- **Transcript labels**: the transcript of a list in which no group has an id twice has one entry
for each message, with its role and content, and a tool row is labelled with the name of the call
that it answers in its own group, or with no name if it answers no call of the last group. -/
theorem transcript_labels (msgs : List Message)
    (hunique : ∀ m ∈ msgs, (m.calls.map ToolCall.id).Nodup) :
    (normalizeTranscript msgs).map (fun e => (e.role, e.content)) =
      msgs.map (fun m => (m.role, m.content)) ∧
    ∀ pre id content post, msgs = pre ++ .tool id content :: post →
      ∃ e, (normalizeTranscript msgs)[pre.length]? = some e ∧ Labelled msgs pre id e := by
  refine ⟨normalizeFrom_map _ msgs, ?_⟩
  rintro pre id content post rfl
  refine ⟨_, normalizeTranscript_getElem? pre _ post, ?_⟩
  have hlatest : latestCalls (pre ++ [.tool id content]) = latestCalls pre := by
    rw [latestCalls_concat]
    exact if_pos rfl
  rw [hlatest]
  have hown : ∀ pre' group between, pre = pre' ++ group :: between →
      (∀ r ∈ between, r.isRow = true) → ∀ call ∈ group.calls, call.id = id →
        groupOf (latestCalls pre) id = call.name := by
    rintro pre' group between hpre hbetween call hcall rfl
    have hne : group.calls ≠ [] := List.ne_nil_of_mem hcall
    rw [hpre, latestCalls_append hne pre' fun r hr => calls_of_isRow (hbetween r hr)]
    refine groupOf_of_mem (hunique group ?_) hcall
    simp [hpre]
  exact
    { toolCallId := rfl
      own := hown
      dangling := groupOf_of_notMem
      answered := fun hreplayable => by
        obtain ⟨pre', text, calls, between, call, hpre, hbetween, hcall, hid⟩ := hreplayable.group
        exact ⟨pre', text, calls, between, call, hpre, hbetween, hcall, hid,
          hown pre' _ between hpre hbetween call (List.mem_of_getElem? hcall) hid⟩ }

section TwoRounds

/-- Two rounds of a stream whose ids were made up, and a row of no group. -/
def twoRounds : List Message :=
  [.user "Which rooms are free?" false,
    .assistant none (some [⟨"call_0", some "get_hotel_rooms", "\x7b\x7d"⟩]), .tool "call_0" "[]",
    .assistant none (some [⟨"call_0", some "get_airport_stats", "\x7b\x7d"⟩, ⟨"call_1", none, ""⟩]),
    .tool "call_0" "0", .tool "call_1" "0", .tool "call_7" "0"]

/-- Each row of an id that comes up in both rounds has the name of its own round. -/
theorem twoRounds_labels :
    (normalizeTranscript twoRounds).map (fun e => (e.role, e.content)) =
      twoRounds.map (fun m => (m.role, m.content)) ∧
    ∀ pre id content post, twoRounds = pre ++ .tool id content :: post →
      ∃ e, (normalizeTranscript twoRounds)[pre.length]? = some e ∧ Labelled twoRounds pre id e :=
  transcript_labels twoRounds (by decide)

end TwoRounds

end Parrot
