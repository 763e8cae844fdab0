import Webmeow.Frontend.Proofs.NormalizeProofs

/-!
# Who can post to a channel

The channel of an event comes from its `source`, which every handler fixes but that of `/public/`:
there it is the `guestName` of the body. So an announcement with the name of a service as its guest
name is placed on the channel of that service.
-/

namespace Frontend

open JsonText Broadcast

/-- The sources that are not placed on `ResortWide`. -/
def serviceNames : List String := ["airport", "hotel", "beach", "parrot", "broadcast"]

/-- `stringOf` gives the text of a string value. -/
theorem stringOf_eq_some {v : Option Value} {s : List UInt16} (h : stringOf v = some s) :
    v = some (.str s) := by
  unfold stringOf at h
  split at h
  · cases h
    rfl
  · cases h

/-- A source is placed on `ResortWide` unless it is the name of a service. -/
theorem channelFromSource_resortWide_iff (source : Option Value) :
    channelFromSource source = .ResortWide ↔ ∀ name ∈ serviceNames, source ≠ some (text name) := by
  unfold channelFromSource
  constructor
  · rintro h name hname rfl
    simp only [serviceNames, List.mem_cons, List.not_mem_nil, or_false] at hname
    rcases hname with rfl | rfl | rfl | rfl | rfl <;> exact absurd h (by decide)
  · intro h
    cases hs : stringOf source with
    | none => rfl
    | some s =>
      have hne : ∀ name ∈ serviceNames, s ≠ Utf16.ofString name := by
        rintro name hname rfl
        exact h name hname (stringOf_eq_some hs)
      simp only [serviceNames, List.forall_mem_cons] at hne
      obtain ⟨hairport, hhotel, hbeach, hparrot, hbroadcast, -⟩ := hne
      simp only [if_neg hairport, if_neg hhotel, if_neg hbeach, if_neg hparrot, if_neg hbroadcast]

/-! ## Requests -/

/-- The `guestName` that `/public/` reads. -/
def guestName (env : Env) (r : Request) : Option Value :=
  (readBody env.bodyLimit r.body).bind fun body => body.get "guestName"

/-- An announcement whose guest name is the name of a service. -/
def Impersonates (env : Env) (r : Request) : Prop :=
  r.endpoint = .publicAnnouncement ∧ ∃ name ∈ serviceNames, guestName env r = some (text name)

/-- The event that the request led to is on a channel of a service only if the request was posted to
that service's own endpoint, and on `ResortWide` if it was posted to `/public/`. There is no
endpoint of the parrot. -/
structure Authentic (env : Env) (r : Request) (e : BroadcastEvent) : Prop where
  /-- Only an arrival shows in the airport channel. -/
  airport : e.channel = .Airport → r.endpoint = .airportArrival
  /-- Only a confirmation or a cancellation shows in the hotel channel. -/
  hotel : e.channel = .Hotel → r.endpoint = .hotelConfirm ∨ r.endpoint = .hotelCancel
  /-- Only the two beach endpoints show in the beach channel. -/
  beach : e.channel = .Beach → r.endpoint = .beachFull ∨ r.endpoint = .beachAvailable
  /-- Nothing shows in the parrot channel. -/
  parrot : e.channel ≠ .Parrot
  /-- The broadcast channel needs the admin passcode. -/
  broadcast : e.channel = .Broadcast →
    r.endpoint = .adminAnnouncement ∧ Authorized env r.passcode
  /-- A public announcement is resort-wide. -/
  publicAnnouncement : r.endpoint = .publicAnnouncement → e.channel = .ResortWide

/-- Every event of the sequence reaches the frontend, on a channel where its request may post. -/
def ChannelAuthenticity (env : Env) (requests : List (Request × Stamp)) : Prop :=
  ∀ p ∈ posted env requests, ∃ e,
    handleMessage (stringify p.2.object) = some e ∧ Authentic env p.1 e

/-- The `source` of the event to which a request leads. -/
def sourceOf (env : Env) (r : Request) : Option Value :=
  match r.endpoint with
  | .airportArrival => some (text "airport")
  | .hotelConfirm => some (text "hotel")
  | .hotelCancel => some (text "hotel")
  | .beachFull => some (text "beach")
  | .beachAvailable => some (text "beach")
  | .publicAnnouncement => guestName env r
  | .adminAnnouncement => some (text "broadcast")

/-- An admin announcement that goes out had the passcode. -/
theorem adminAnnouncement_event {env : Env} {passcode : Option String} {stamp : Stamp}
    {body : Value} {e : PostedEvent} (h : (adminAnnouncement env passcode stamp body).event = some e) :
    e = (resortEvent stamp body).posted ∧ Authorized env passcode := by
  unfold adminAnnouncement at h
  by_cases hauth : Authorized env passcode
  · rw [if_neg (not_not.2 hauth)] at h
    split_ifs at h with hmessage
    · cases h
    · cases h
      exact ⟨rfl, hauth⟩
  · rw [if_pos hauth] at h
    cases h

/-- The event of a request carries the source of its endpoint. -/
theorem serve_event {env : Env} {r : Request} {stamp : Stamp} {e : PostedEvent}
    (h : (serve env r stamp).event = some e) :
    e.source = sourceOf env r ∧ (r.endpoint = .adminAnnouncement → Authorized env r.passcode) := by
  obtain ⟨endpoint, passcode, t⟩ := r
  unfold serve at h
  split at h
  · cases h
  · rename_i body hbody
    cases endpoint with
    | airportArrival => cases h; exact ⟨rfl, nofun⟩
    | hotelConfirm => cases h; exact ⟨rfl, nofun⟩
    | hotelCancel => cases h; exact ⟨rfl, nofun⟩
    | beachFull => cases h; exact ⟨rfl, nofun⟩
    | beachAvailable => cases h; exact ⟨rfl, nofun⟩
    | publicAnnouncement =>
      cases h
      refine ⟨?_, nofun⟩
      show body.get "guestName" = (readBody env.bodyLimit t).bind _
      rw [hbody]
      rfl
    | adminAnnouncement =>
      obtain ⟨rfl, hauth⟩ := adminAnnouncement_event h
      exact ⟨rfl, fun _ => hauth⟩

theorem mem_posted {env : Env} {requests : List (Request × Stamp)} {r : Request} {e : PostedEvent} :
    (r, e) ∈ posted env requests ↔
      ∃ stamp, (r, stamp) ∈ requests ∧ (serve env r stamp).event = some e := by
  unfold posted
  rw [List.mem_filterMap]
  constructor
  · rintro ⟨⟨r', stamp⟩, hmem, hmap⟩
    obtain ⟨e', he, heq⟩ := Option.map_eq_some_iff.1 hmap
    cases heq
    exact ⟨stamp, hmem, he⟩
  · rintro ⟨stamp, hmem, he⟩
    exact ⟨(r, stamp), hmem, by rw [he]; rfl⟩

/-! ## Channels -/

/-- An event of a request that does not impersonate a service is on a channel where the request may
post. -/
theorem authentic_of_source {env : Env} {r : Request} {e : BroadcastEvent}
    (hchannel : e.channel = channelFromSource (sourceOf env r))
    (hauth : r.endpoint = .adminAnnouncement → Authorized env r.passcode)
    (hr : ¬Impersonates env r) : Authentic env r e := by
  obtain ⟨endpoint, passcode, t⟩ := r
  cases endpoint with
  | airportArrival =>
    have h : e.channel = .Airport := hchannel
    constructor <;> simp [h]
  | hotelConfirm =>
    have h : e.channel = .Hotel := hchannel
    constructor <;> simp [h]
  | hotelCancel =>
    have h : e.channel = .Hotel := hchannel
    constructor <;> simp [h]
  | beachFull =>
    have h : e.channel = .Beach := hchannel
    constructor <;> simp [h]
  | beachAvailable =>
    have h : e.channel = .Beach := hchannel
    constructor <;> simp [h]
  | publicAnnouncement =>
    have h : e.channel = .ResortWide := by
      rw [hchannel, channelFromSource_resortWide_iff]
      intro name hname hguest
      exact hr ⟨rfl, name, hname, hguest⟩
    constructor <;> simp [h]
  | adminAnnouncement =>
    have h : e.channel = .Broadcast := hchannel
    constructor <;> simp [h, hauth rfl]

/-- An announcement that impersonates a service is broadcast, and not placed on `ResortWide`. -/
theorem exists_event_of_impersonates (env : Env) {r : Request} (stamp : Stamp)
    (h : Impersonates env r) :
    ∃ e, (serve env r stamp).event = some e ∧ channelFromSource e.source ≠ .ResortWide := by
  obtain ⟨endpoint, passcode, t⟩ := r
  obtain ⟨hendpoint, name, hname, hguest⟩ := h
  obtain ⟨body, hbody, hget⟩ := Option.bind_eq_some_iff.1 hguest
  refine ⟨publicEvent stamp body, ?_, fun hchannel => ?_⟩
  · cases hendpoint
    rw [serve, show readBody env.bodyLimit t = some body from hbody]
    rfl
  · rw [channelFromSource_resortWide_iff] at hchannel
    exact hchannel name hname hget

/-- The channel of an event is read off its source. -/
theorem channel_of_handled {e : PostedEvent} {b : BroadcastEvent}
    (h : handleMessage (stringify e.object) = some b) : b.channel = channelFromSource e.source := by
  rw [handleMessage_object] at h
  cases h
  rw [islandEvent_channel, get_source]

/-- One impersonating request breaks the authenticity of the channels. -/
theorem not_authentic_of_impersonates {env : Env} {requests : List (Request × Stamp)} {r : Request}
    {stamp : Stamp} (hmem : (r, stamp) ∈ requests) (h : Impersonates env r) :
    ¬ChannelAuthenticity env requests := by
  intro hall
  obtain ⟨e, he, hsource⟩ := exists_event_of_impersonates env stamp h
  obtain ⟨b, hb, hauthentic⟩ := hall (r, e) (mem_posted.2 ⟨stamp, hmem, he⟩)
  have hchannel := hauthentic.publicAnnouncement h.1
  rw [channel_of_handled hb] at hchannel
  exact hsource hchannel

/-- **Channel authenticity**: it holds for a sequence of requests if and only if no announcement of
the sequence has the name of a service as its guest name. -/
theorem channel_authenticity_iff (env : Env) (requests : List (Request × Stamp)) :
    ChannelAuthenticity env requests ↔ ∀ p ∈ requests, ¬Impersonates env p.1 := by
  constructor
  · rintro h ⟨r, stamp⟩ hmem himp
    exact not_authentic_of_impersonates hmem himp h
  · rintro h ⟨r, e⟩ hmem
    obtain ⟨stamp, hr, he⟩ := mem_posted.1 hmem
    obtain ⟨hsource, hauth⟩ := serve_event he
    refine ⟨_, handleMessage_object e, authentic_of_source ?_ hauth (h (r, stamp) hr)⟩
    rw [islandEvent_channel, get_source, hsource]

/-- A guest announces under the name `airport`. -/
def forgedAnnouncement : Request where
  endpoint := .publicAnnouncement
  passcode := none
  body :=
    some (stringify (.obj [property "guestName" (text "airport"),
      property "message" (text "All gates are closed")]))

/-- The service without a passcode, with the default limit of `express.json`. -/
def plainEnv : Env := ⟨none, none, 102400⟩

theorem guestName_forgedAnnouncement :
    guestName plainEnv forgedAnnouncement = some (text "airport") := by
  unfold guestName
  rw [show readBody plainEnv.bodyLimit forgedAnnouncement.body = some _ from
    readBody_record (parse_stringify _) rfl (by decide)]
  rfl

/-- The forged announcement is placed on the channel of the airport. -/
theorem forged_announcement_not_authentic :
    ¬ChannelAuthenticity plainEnv [(forgedAnnouncement, ⟨[], []⟩)] := by
  have himp : Impersonates plainEnv forgedAnnouncement :=
    ⟨rfl, "airport", by decide, guestName_forgedAnnouncement⟩
  exact not_authentic_of_impersonates (List.mem_singleton_self _) himp

end Frontend
