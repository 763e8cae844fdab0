import Webmeow.Lib.Erasure
import Webmeow.Parrot.Proofs.MoveProofs

/-!
# Guests do not disturb each other

What the requests of a guest read and answer depends on the conversation of this guest only. So the steps of
all other requests can be left out of a run, as long as no clean-up drops the conversation because there are
too many others.
-/

namespace Parrot

open Interleaving Runs

/-! ## One conversation of a store -/

section Store

variable {store : ConversationStore} {guestId other : String}

theorem get_modify (f : Conversation → Conversation) (hf : ∀ c, (f c).guestId = c.guestId) :
    (store.modify other f hf).get guestId =
      if guestId = other then (store.get guestId).map f else store.get guestId := by
  unfold ConversationStore.get ConversationStore.modify
  dsimp only
  induction store.conversations with
  | nil => split_ifs <;> rfl
  | cons c cs ih =>
    have hkey : (if c.guestId = other then f c else c).guestId = c.guestId := by
      split_ifs
      · exact hf c
      · rfl
    rw [List.map_cons, List.find?_cons, List.find?_cons, hkey]
    by_cases hc : c.guestId = guestId
    · by_cases hg : guestId = other
      · simp [hc, hg]
      · simp [hc, hg]
    · simpa [hc] using ih

theorem get_mem {c : Conversation} (h : store.get guestId = some c) : c ∈ store.conversations ∧ c.guestId = guestId :=
  ⟨List.mem_of_find?_eq_some h, by simpa using List.find?_some h⟩

theorem get_eq_of_mem {c : Conversation} (hc : c ∈ store.conversations) (hg : c.guestId = guestId) :
    store.get guestId = some c := by
  cases hget : store.get guestId with
  | none =>
    have hnone := List.find?_eq_none.1 hget c hc
    simp [hg] at hnone
  | some c' =>
    obtain ⟨hc', hg'⟩ := get_mem hget
    exact congrArg some (List.inj_on_of_nodup_map store.guestKey hc' hc (hg'.trans hg.symm))

theorem get_retain (p : Conversation → Bool) :
    (store.retain p).get guestId = (store.get guestId).filter p := by
  cases hget : (store.retain p).get guestId with
  | some c =>
    obtain ⟨hc, hg⟩ := get_mem hget
    obtain ⟨hmem, hp⟩ := List.mem_filter.1 hc
    rw [get_eq_of_mem hmem hg, Option.filter_some, if_pos hp]
  | none =>
    cases hold : store.get guestId with
    | none => rfl
    | some c =>
      obtain ⟨hc, hg⟩ := get_mem hold
      by_cases hp : p c = true
      · have hkept : c ∈ (store.retain p).conversations := List.mem_filter.2 ⟨hc, hp⟩
        rw [get_eq_of_mem hkept hg] at hget
        cases hget
      · rw [Option.filter_some, if_neg hp]

theorem get_setDefault (now : ℚ) : (store.setDefault other now).get guestId =
    if guestId = other then some ((store.get guestId).getD ⟨guestId, [], now⟩)
    else store.get guestId := by
  unfold ConversationStore.setDefault
  split_ifs with hmem hg hg
  · subst hg
    obtain ⟨c, hc, hg⟩ := List.mem_map.1 hmem
    rw [get_eq_of_mem hc hg]
    rfl
  · rfl
  · subst hg
    have hnone : store.get guestId = none := by
      refine List.find?_eq_none.2 fun c hc hg => hmem ?_
      exact List.mem_map.2 ⟨c, hc, by simpa using hg⟩
    rw [hnone]
    refine get_eq_of_mem ?_ rfl
    exact List.mem_append_right _ (List.mem_singleton_self _)
  · unfold ConversationStore.get
    rw [List.find?_append]
    simp [Ne.symm hg]

theorem touch_guestId (now : ℚ) (c : Conversation) : (c.touch now).guestId = c.guestId := rfl

theorem extend_guestId (maxMessages : ℤ) (messages : List Message) (now : ℚ) (c : Conversation) :
    (c.extend maxMessages messages now).guestId = c.guestId := rfl

theorem append_eq (store : ConversationStore) (other : String) (messages : List Message) (now : ℚ) :
    store.append other messages now = (store.setDefault other now).modify other
      (Conversation.extend store.maxMessages messages now) (extend_guestId _ messages now) := rfl

theorem getMessages_fst (now : ℚ) : (store.getMessages other now).1 =
    match store.get other with
    | none => store
    | some _ => store.modify other (Conversation.touch now) (touch_guestId now) := by
  unfold ConversationStore.getMessages
  cases store.get other <;> rfl

/-- Reading a conversation touches it and no other one. -/
theorem get_getMessages (now : ℚ) : (store.getMessages other now).1.get guestId =
    if guestId = other then (store.get guestId).map (Conversation.touch now)
    else store.get guestId := by
  rw [getMessages_fst]
  cases hother : store.get other with
  | none =>
    split_ifs with hg
    · rw [hg, hother]
      rfl
    · rfl
  | some c => exact get_modify _ _

theorem get_append (messages : List Message) (now : ℚ) :
    (store.append other messages now).get guestId =
      if guestId = other then
        some (Conversation.extend store.maxMessages messages now
          ((store.get guestId).getD ⟨guestId, [], now⟩))
      else store.get guestId := by
  rw [append_eq, get_modify, get_setDefault]
  split_ifs
  · rfl
  · rfl

end Store

/-! ## The conversation of one guest in two stores -/

/-- The settings and the conversation of the guest are the same, and the second store has no other one. -/
structure ConversationStore.Alone (guestId : String) (store alone : ConversationStore) : Prop where
  /-- `max_messages` is the same. -/
  maxMessages : store.maxMessages = alone.maxMessages
  /-- `ttl` is the same. -/
  ttl : store.ttl = alone.ttl
  /-- `max_conversations` is the same. -/
  maxConversations : store.maxConversations = alone.maxConversations
  /-- The guest has the same conversation. -/
  get : store.get guestId = alone.get guestId
  /-- Nobody else has one. -/
  only : ∀ c ∈ alone.conversations, c.guestId = guestId

/-- The store without the conversations that are too old. -/
def ConversationStore.expire (store : ConversationStore) (now : ℚ) : ConversationStore :=
  store.retain fun c => decide (now - c.lastAccessed ≤ store.ttl)

/-- The clean-up drops the conversation because there are too many. -/
def ConversationStore.crowdsOut (store : ConversationStore) (guestId : String) (now : ℚ) : Bool :=
  guestId ∈ (store.expire now).overflow

section Alone

variable {guestId other : String} {store alone : ConversationStore}

/-- A conversation that is alone is dropped only from a store without room, and there it always is. -/
theorem not_mem_overflow_alone (h : store.Alone guestId alone)
    (hout : guestId ∉ store.overflow) : guestId ∉ alone.overflow := by
  intro hin
  have hshort : alone.conversations.length ≤ 1 := by
    have hkeys : alone.conversations.map Conversation.guestId =
        List.replicate alone.conversations.length guestId := by
      rw [List.eq_replicate_iff]
      refine ⟨List.length_map _, fun g hg => ?_⟩
      obtain ⟨c, hc, rfl⟩ := List.mem_map.1 hg
      exact h.only c hc
    have hnodup := alone.guestKey
    rw [hkeys] at hnodup
    exact List.nodup_replicate.1 hnodup
  unfold ConversationStore.overflow at hin hout
  split_ifs at hin with hfull
  · obtain ⟨c, hc, hg⟩ := List.mem_map.1 hin
    have hmem : c ∈ alone.conversations := (List.perm_insertionSort _ _).mem_iff.1 (List.mem_of_mem_take hc)
    have hpos := List.length_pos_of_mem hmem
    -- the store has no room at all, so the other one drops everything, too
    have hget := h.get.trans (get_eq_of_mem hmem hg)
    obtain ⟨hstore, -⟩ := get_mem hget
    have hpos' := List.length_pos_of_mem hstore
    have hroom := h.maxConversations
    rw [if_pos (by omega)] at hout
    apply hout
    have hall : store.conversations.length ≤
        (store.conversations.length - store.maxConversations).toNat := by omega
    have hsorted := List.length_insertionSort
      (fun a b : Conversation => a.lastAccessed ≤ b.lastAccessed) store.conversations
    rw [List.take_of_length_le (by omega)]
    exact List.mem_map.2 ⟨c, (List.perm_insertionSort _ _).mem_iff.2 hstore, hg⟩
  · cases hin

/-- **A clean-up** that does not crowd the guest out treats the conversation alike. -/
theorem ConversationStore.Alone.cleanup (h : store.Alone guestId alone) {now : ℚ}
    (hout : store.crowdsOut guestId now = false) :
    (store.cleanup now).Alone guestId (alone.cleanup now) := by
  have hfresh : (store.expire now).Alone guestId (alone.expire now) := by
    refine ⟨h.maxMessages, h.ttl, h.maxConversations, ?_, ?_⟩
    · unfold ConversationStore.expire
      rw [get_retain, get_retain, h.get, h.ttl]
    · intro c hc
      exact h.only c (List.mem_filter.1 hc).1
  have hin : guestId ∉ (store.expire now).overflow := by
    unfold ConversationStore.crowdsOut at hout
    simpa using hout
  have hin' := not_mem_overflow_alone hfresh hin
  refine ⟨h.maxMessages, h.ttl, h.maxConversations, ?_, ?_⟩
  · show ((store.expire now).retain fun c => decide (c.guestId ∉ (store.expire now).overflow)).get
      guestId = ((alone.expire now).retain fun c =>
        decide (c.guestId ∉ (alone.expire now).overflow)).get guestId
    rw [get_retain, get_retain, hfresh.get]
    cases hget : (alone.expire now).get guestId with
    | none => rfl
    | some c =>
      obtain ⟨-, hg⟩ := get_mem hget
      rw [Option.filter_some, Option.filter_some, hg, if_pos (decide_eq_true hin),
        if_pos (decide_eq_true hin')]
  · intro c hc
    exact hfresh.only c (List.mem_filter.1 hc).1

theorem modify_only {f : Conversation → Conversation} {hf : ∀ c, (f c).guestId = c.guestId}
    (h : ∀ c ∈ alone.conversations, c.guestId = guestId) :
    ∀ c ∈ (alone.modify other f hf).conversations, c.guestId = guestId := by
  intro c hc
  obtain ⟨c', hc', rfl⟩ := List.mem_map.1 hc
  split_ifs
  · rw [hf]
    exact h c' hc'
  · exact h c' hc'

theorem setDefault_only (now : ℚ) (h : ∀ c ∈ alone.conversations, c.guestId = guestId) :
    ∀ c ∈ (alone.setDefault guestId now).conversations, c.guestId = guestId := by
  unfold ConversationStore.setDefault
  split_ifs
  · exact h
  · intro c hc
    rcases List.mem_append.1 hc with hc | hc
    · exact h c hc
    · rw [List.mem_singleton.1 hc]

theorem getMessages_only (now : ℚ) (h : ∀ c ∈ alone.conversations, c.guestId = guestId) :
    ∀ c ∈ (alone.getMessages other now).1.conversations, c.guestId = guestId := by
  rw [getMessages_fst]
  cases alone.get other with
  | none => exact h
  | some c => exact modify_only h

theorem getMessages_settings (store : ConversationStore) (other : String) (now : ℚ) :
    (store.getMessages other now).1.maxMessages = store.maxMessages ∧
      (store.getMessages other now).1.ttl = store.ttl ∧
      (store.getMessages other now).1.maxConversations = store.maxConversations := by
  rw [getMessages_fst]
  cases store.get other with
  | none => exact ⟨rfl, rfl, rfl⟩
  | some c => exact ⟨rfl, rfl, rfl⟩

theorem append_settings (store : ConversationStore) (other : String) (messages : List Message) (now : ℚ) :
    (store.append other messages now).maxMessages = store.maxMessages ∧
      (store.append other messages now).ttl = store.ttl ∧
      (store.append other messages now).maxConversations = store.maxConversations := by
  rw [append_eq]
  show (store.setDefault other now).maxMessages = _ ∧ (store.setDefault other now).ttl = _ ∧
    (store.setDefault other now).maxConversations = _
  unfold ConversationStore.setDefault
  split_ifs
  · exact ⟨rfl, rfl, rfl⟩
  · exact ⟨rfl, rfl, rfl⟩

theorem ConversationStore.Alone.getMessages (h : store.Alone guestId alone) (now : ℚ) :
    (store.getMessages guestId now).1.Alone guestId (alone.getMessages guestId now).1 ∧
      (store.getMessages guestId now).2 = (alone.getMessages guestId now).2 := by
  obtain ⟨hmax, httl, hconversations⟩ := getMessages_settings store guestId now
  obtain ⟨hmax', httl', hconversations'⟩ := getMessages_settings alone guestId now
  refine ⟨⟨?_, ?_, ?_, ?_, getMessages_only now h.only⟩, ?_⟩
  · rw [hmax, hmax', h.maxMessages]
  · rw [httl, httl', h.ttl]
  · rw [hconversations, hconversations', h.maxConversations]
  · rw [get_getMessages, get_getMessages, h.get]
  · unfold ConversationStore.getMessages
    rw [h.get]
    cases alone.get guestId <;> rfl

theorem ConversationStore.Alone.append (h : store.Alone guestId alone) (messages : List Message)
    (now : ℚ) :
    (store.append guestId messages now).Alone guestId (alone.append guestId messages now) := by
  obtain ⟨hmax, httl, hconversations⟩ := append_settings store guestId messages now
  obtain ⟨hmax', httl', hconversations'⟩ := append_settings alone guestId messages now
  refine ⟨?_, ?_, ?_, ?_, ?_⟩
  · rw [hmax, hmax', h.maxMessages]
  · rw [httl, httl', h.ttl]
  · rw [hconversations, hconversations', h.maxConversations]
  · rw [get_append, get_append, h.get, h.maxMessages]
  · rw [append_eq]
    exact modify_only (setDefault_only now h.only)

/-- Another conversation may be read. -/
theorem ConversationStore.Alone.getMessages_left (h : store.Alone guestId alone)
    (hother : guestId ≠ other) (now : ℚ) : (store.getMessages other now).1.Alone guestId alone := by
  obtain ⟨hmax, httl, hconversations⟩ := getMessages_settings store other now
  refine ⟨hmax.trans h.maxMessages, httl.trans h.ttl, hconversations.trans h.maxConversations, ?_, h.only⟩
  rw [get_getMessages, if_neg hother]
  exact h.get

/-- Another conversation may grow. -/
theorem ConversationStore.Alone.append_left (h : store.Alone guestId alone)
    (hother : guestId ≠ other) (messages : List Message) (now : ℚ) :
    (store.append other messages now).Alone guestId alone := by
  obtain ⟨hmax, httl, hconversations⟩ := append_settings store other messages now
  refine ⟨hmax.trans h.maxMessages, httl.trans h.ttl, hconversations.trans h.maxConversations, ?_, h.only⟩
  rw [get_append, if_neg hother]
  exact h.get

end Alone

/-! ## The requests of the guest -/

/-- Two outcomes of a step: the stores stand for each other and the request goes on alike. -/
def Alike {α : Type*} (guestId : String) (q q' : ConversationStore × α) : Prop :=
  q.1.Alone guestId q'.1 ∧ q.2 = q'.2

section Own

variable {app : App} {guestId : String} {store alone : ConversationStore} {req : ChatRequest}
  {now : ℚ} {x : Input}

theorem Alike.out {α : Type*} {q q' : ConversationStore × α} (h : Alike guestId q q') :
    ∃ alone', some q' = some (alone', q.2) ∧ q.1.Alone guestId alone' :=
  ⟨q'.1, by rw [h.2], h.1⟩

theorem loadHistory_alike (h : store.Alone guestId alone) (hreq : req.session = some guestId)
    (now : ℚ) : Alike guestId (loadHistory store req now) (loadHistory alone req now) := by
  unfold loadHistory
  rw [hreq]
  exact h.getMessages now

theorem persist_alone (h : store.Alone guestId alone) (hreq : req.session = some guestId)
    (turn : Turn) : (persist store req turn now).Alone guestId (persist alone req turn now) := by
  unfold persist
  rw [hreq]
  exact h.append turn.newMessages now

theorem chatRound_alike (h : store.Alone guestId alone) (hreq : req.session = some guestId)
    (turn : Turn) (left : ℕ) :
    Alike guestId (chatRound store req turn now left) (chatRound alone req turn now left) := by
  cases left with
  | zero => exact ⟨persist_alone h hreq _, rfl⟩
  | succ left => exact ⟨h, rfl⟩

theorem chatCalls_alike (h : store.Alone guestId alone) (hreq : req.session = some guestId)
    (turn : Turn) (left : ℕ) (calls : List ToolCall) :
    Alike guestId (chatCalls store req turn now left calls) (chatCalls alone req turn now left calls) := by
  cases calls with
  | nil => exact chatRound_alike h hreq turn left
  | cons call rest => exact ⟨h, rfl⟩

theorem chatCompletion_alike (h : store.Alone guestId alone) (hreq : req.session = some guestId)
    (turn : Turn) (left : ℕ) (c : Completion) :
    Alike guestId (chatCompletion store req turn now left c)
      (chatCompletion alone req turn now left c) := by
  unfold chatCompletion
  split_ifs
  · cases c.toolCalls with
    | none => exact ⟨h, rfl⟩
    | some calls => exact chatCalls_alike h hreq _ left calls
  · exact ⟨persist_alone h hreq _, rfl⟩

/-- A step of `/chat` is possible in the other store, with the same outcome. -/
theorem chatStep_alone (h : store.Alone guestId alone) (hreq : req.session = some guestId)
    {pc : ChatPc} {q : ConversationStore × ChatPc} (hs : chatStep app store req x pc = some q) :
    ∃ alone', chatStep app alone req x pc = some (alone', q.2) ∧ q.1.Alone guestId alone' := by
  cases pc with
  | enter =>
    cases hx : x.stimulus <;> simp only [chatStep, hx] at hs ⊢ <;> cases hs
    · obtain ⟨hload, hhistory⟩ := loadHistory_alike h hreq x.now
      rw [hhistory]
      exact (chatRound_alike hload hreq _ _).out
    · exact ⟨alone, rfl, h⟩
  | create turn left =>
    cases hx : x.stimulus <;> simp only [chatStep, hx] at hs ⊢ <;> cases hs
    · exact (chatCompletion_alike h hreq turn left _).out
    · exact ⟨alone, rfl, h⟩
    · exact ⟨alone, rfl, h⟩
  | runTool turn left call rest =>
    cases hx : x.stimulus <;> simp only [chatStep, hx] at hs ⊢ <;> cases hs
    · exact (chatCalls_alike h hreq _ left rest).out
    · exact ⟨alone, rfl, h⟩
    · exact ⟨alone, rfl, h⟩
  | settled outcome => cases hs

theorem streamFinally_alike (h : store.Alone guestId alone) (hreq : req.session = some guestId)
    (st : StreamState) :
    Alike guestId (streamFinally store req st now) (streamFinally alone req st now) :=
  ⟨persist_alone h hreq _, rfl⟩

section Stream

variable {pc : StreamPc} {q : ConversationStore × StreamPc}

theorem streamResume_alone (h : store.Alone guestId alone) (hreq : req.session = some guestId)
    (hs : streamResume app store req now pc = some q) :
    ∃ alone', streamResume app alone req now pc = some (alone', q.2) ∧ q.1.Alone guestId alone' := by
  cases pc with
  | enter =>
    cases hs
    obtain ⟨hload, hhistory⟩ := loadHistory_alike h hreq now
    refine ⟨(loadHistory alone req now).1, ?_, hload⟩
    show some ((loadHistory alone req now).1, StreamPc.ready (loadHistory alone req now).2) =
      some ((loadHistory alone req now).1, StreamPc.ready (loadHistory store req now).2)
    rw [hhistory]
  | yieldDoneMarker st =>
    cases hs
    exact (streamFinally_alike h hreq st).out
  | yieldError st =>
    cases hs
    exact (streamFinally_alike h hreq st).out
  | ready history => cases hs; exact ⟨alone, rfl, h⟩
  | yieldToken st left parts fragments calls => cases hs; exact ⟨alone, rfl, h⟩
  | yieldToolCall st left call rest => cases hs; exact ⟨alone, rfl, h⟩
  | yieldToolResult st left call rest content => cases hs; exact ⟨alone, rfl, h⟩
  | yieldFallback st => cases hs; exact ⟨alone, rfl, h⟩
  | yieldDone st => cases hs; exact ⟨alone, rfl, h⟩
  | _ => cases hs

theorem streamCancel_alone (h : store.Alone guestId alone) (hreq : req.session = some guestId)
    (hs : streamCancel store req now pc = some q) :
    ∃ alone', streamCancel alone req now pc = some (alone', q.2) ∧ q.1.Alone guestId alone' := by
  cases pc with
  | settled yielded => cases hs
  | enter => cases hs; exact ⟨alone, rfl, h⟩
  | ready history => cases hs; exact ⟨alone, rfl, h⟩
  | _ => cases hs; exact (streamFinally_alike h hreq _).out

theorem streamRaise_alone (h : store.Alone guestId alone) (hs : streamRaise store pc = some q) :
    ∃ alone', streamRaise alone pc = some (alone', q.2) ∧ q.1.Alone guestId alone' := by
  cases pc with
  | create st left => cases hs; exact ⟨alone, rfl, h⟩
  | receiving st left parts fragments => cases hs; exact ⟨alone, rfl, h⟩
  | runTool st left call rest => cases hs; exact ⟨alone, rfl, h⟩
  | _ => cases hs

/-- A step of `/chat/stream` is possible in the other store, with the same outcome. -/
theorem streamStep_alone (h : store.Alone guestId alone) (hreq : req.session = some guestId)
    (hs : streamStep app store req x pc = some q) :
    ∃ alone', streamStep app alone req x pc = some (alone', q.2) ∧ q.1.Alone guestId alone' := by
  unfold streamStep at hs ⊢
  cases hx : x.stimulus with
  | resumed => rw [hx] at hs; exact streamResume_alone h hreq hs
  | cancelled => rw [hx] at hs; exact streamCancel_alone h hreq hs
  | raised => rw [hx] at hs; exact streamRaise_alone h hs
  | completion c => rw [hx] at hs; cases hs
  | opened =>
    rw [hx] at hs
    cases pc with
    | create st left => cases hs; exact ⟨alone, rfl, h⟩
    | _ => cases hs
  | chunk delta =>
    rw [hx] at hs
    cases pc with
    | receiving st left parts fragments =>
      cases delta with
      | none => cases hs; exact ⟨alone, rfl, h⟩
      | some d => cases hs; exact ⟨alone, rfl, h⟩
    | _ => cases hs
  | streamEnd =>
    rw [hx] at hs
    cases pc with
    | receiving st left parts fragments => cases hs; exact ⟨alone, rfl, h⟩
    | _ => cases hs
  | toolReturned content =>
    rw [hx] at hs
    cases pc with
    | runTool st left call rest => cases hs; exact ⟨alone, rfl, h⟩
    | _ => cases hs

end Stream

end Own

/-! ## The requests of others -/

/-- A request of another guest leaves what there is of this guest. -/
theorem others_leave {guestId : String} {alone : ConversationStore} {req : ChatRequest}
    (hreq : req.session ≠ some guestId) :
    StoreInvariant req fun store => store.Alone guestId alone where
  loads store now h := by
    unfold loadHistory
    cases hsession : req.session with
    | none => exact h
    | some other => exact h.getMessages_left (fun he => hreq (he ▸ hsession)) now
  persists store turn now h := by
    unfold persist
    cases hsession : req.session with
    | none => exact h
    | some other => exact h.append_left (fun he => hreq (he ▸ hsession)) turn.newMessages now

/-! ## Runs -/

/-- A request that is not of the guest. -/
def Thread.foreign (guestId : String) : Thread → Bool
  | .chat req _ => req.session ≠ some guestId
  | .chatStream req _ => req.session ≠ some guestId
  | .cleanup _ => false

/-- No clean-up drops the conversation of the guest for want of room. -/
def RoomFor (guestId : String) (store : ConversationStore) (t : Thread) (x : Input) : Prop :=
  match t with
  | .cleanup false => store.crowdsOut guestId x.now = false
  | _ => True

instance (guestId : String) (store : ConversationStore) (t : Thread) (x : Input) :
    Decidable (RoomFor guestId store t x) :=
  match t with
  | .cleanup false => inferInstanceAs (Decidable (store.crowdsOut guestId x.now = false))
  | .cleanup true => isTrue trivial
  | .chat _ _ => isTrue trivial
  | .chatStream _ _ => isTrue trivial

theorem neighbours_erasable (app : App) (guestId : String) :
    Erasable (act app) (ConversationStore.Alone guestId) (Thread.foreign guestId) (RoomFor guestId)
      fun _ => True where
  unnoticed := by
    intro store alone t x store' t' _ ht h hact
    cases t with
    | chat req pc =>
      obtain ⟨q, hs, hq⟩ := Option.map_eq_some_iff.1 hact
      cases hq
      exact ⟨(others_leave (by simpa [Thread.foreign] using ht)).chatStep h hs, ht⟩
    | chatStream req pc =>
      obtain ⟨q, hs, hq⟩ := Option.map_eq_some_iff.1 hact
      cases hq
      exact ⟨(others_leave (by simpa [Thread.foreign] using ht)).streamStep h hs, ht⟩
    | cleanup finished => cases ht
  possible := by
    intro store alone t x store' t' _ ht hroom h hact
    cases t with
    | chat req pc =>
      obtain ⟨q, hs, hq⟩ := Option.map_eq_some_iff.1 hact
      cases hq
      obtain ⟨alone', hs', h'⟩ := chatStep_alone h (by simpa [Thread.foreign] using ht) hs
      exact ⟨alone', by rw [act, hs']; rfl, h'⟩
    | chatStream req pc =>
      obtain ⟨q, hs, hq⟩ := Option.map_eq_some_iff.1 hact
      cases hq
      obtain ⟨alone', hs', h'⟩ := streamStep_alone h (by simpa [Thread.foreign] using ht) hs
      exact ⟨alone', by rw [act, hs']; rfl, h'⟩
    | cleanup finished =>
      cases finished with
      | true => cases hact
      | false =>
        cases hact
        exact ⟨_, rfl, h.cleanup hroom⟩
  kept := fun _ _ _ _ _ _ _ => trivial

/-- **Guests do not disturb each other**: in every run of the parrot in which no clean-up drops the
conversation of a guest because there are too many, the run without the steps of all requests of others is a
run, too. The conversation of the guest ends up the same, and every request of the guest is in the same
state: it has sent the model the same prompts and the client the same events. -/
theorem guests_undisturbed (app : App) (maxMessages ttl maxConversations : ℤ) (guestId : String)
    (es : List (Event Request Input)) (p : System)
    (hroom : Throughout (step app) (Pool.Meets (RoomFor guestId))
      (System.initial maxMessages ttl maxConversations) es)
    (hrun : run (step app) (System.initial maxMessages ttl maxConversations) es = some p) :
    ∃ q : System,
      run (step app) (System.initial maxMessages ttl maxConversations)
        (erase (step app) (Thread.foreign guestId)
          (System.initial maxMessages ttl maxConversations) es) = some q ∧
      q.store.get guestId = p.store.get guestId ∧
      ∀ (i : ℕ) (t : Thread), p.threads[i]? = some t → t.foreign guestId = false →
        q.threads[i]? = some t := by
  have hsimilar : Similar (ConversationStore.Alone guestId) (Thread.foreign guestId)
      (System.initial maxMessages ttl maxConversations)
      (System.initial maxMessages ttl maxConversations) :=
    ⟨⟨rfl, rfl, rfl, rfl, fun _ hc => absurd hc List.not_mem_nil⟩, List.Forall₂.nil⟩
  obtain ⟨q, hq, hend, -⟩ := run_erase (neighbours_erasable app guestId) (fun _ _ => trivial)
    (fun _ _ => trivial) hsimilar hroom hrun
  refine ⟨q, hq, hend.store.get.symm, ?_⟩
  intro i t hi ht
  obtain ⟨u, hu, hsame | ⟨ht', -⟩⟩ := forall₂_getElem? hend.threads hi
  · exact hsame ▸ hu
  · exact absurd (ht.symm.trans ht') (by decide)

/-- Two guests chat at the same time, and a clean-up comes in between. -/
def ask (guestId : String) (message : String) (hmessage : message.length ≤ 4000) : Request :=
  .chat ⟨message, some guestId, hmessage⟩

/-- Two guests chat while the cleanup runs. -/
def twoGuests : List (Event Request Input) :=
  [.request (ask "kiki" "Is the Sunset Suite free?" (by decide)),
    .request (ask "ash" "Am I cleared?" (by decide)), .request .cleanup,
    .advance 0 ⟨.resumed, 0⟩, .advance 1 ⟨.resumed, 1⟩,
    .advance 1 ⟨.completion ⟨"stop", some "You are.", none⟩, 2⟩, .advance 2 ⟨.resumed, 60⟩,
    .advance 0 ⟨.completion ⟨"stop", some "It is.", none⟩, 61⟩]

theorem kiki_undisturbed :
    ∃ p q : System,
      run (step ⟨"", id⟩) (System.initial 20 1800 1) twoGuests = some p ∧
      run (step ⟨"", id⟩) (System.initial 20 1800 1)
        (erase (step ⟨"", id⟩) (Thread.foreign "kiki") (System.initial 20 1800 1) twoGuests) = some q ∧
      q.store.get "kiki" = p.store.get "kiki" ∧ (p.store.get "ash").isSome := by
  have hsome : ((run (step ⟨"", id⟩) (System.initial 20 1800 1) twoGuests).map fun p =>
      (p.store.get "ash").isSome) = some true := by decide +kernel
  obtain ⟨p, hp, hash⟩ := Option.map_eq_some_iff.1 hsome
  obtain ⟨q, hq, hget, -⟩ := guests_undisturbed ⟨"", id⟩ 20 1800 1 "kiki" twoGuests p
    (by decide +kernel) hp
  exact ⟨p, q, hp, hq, hget, hash⟩

end Parrot
