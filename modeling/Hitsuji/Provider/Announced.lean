import Hitsuji.Client.ItemStreams
import Hitsuji.Rssl.Content

set_option autoImplicit false

/-! # What consumers know of the service

A consumer reads the source directory it is sent, and keeps a picture of the service for each of its
directory streams: a refresh draws the picture anew, an update amends it. Pictures are read from the
encoded messages, and compared with what the provider has to say of its service. Whatever a client
sends, the pictures of its peer show the service as it is, or as it was when nothing has been heard of
the change. -/

namespace Hitsuji

open ByteBuffer Bracket Transition

/-! ## The service in the provider's words -/

/-- What the provider says of its service under a filter. -/
def ProviderView.elementsOf (p : ProviderView) : FilterId → Elements
  | .info =>
      [(.name, .value (.asciiString p.serviceName)),
        (.capabilities, .array [.uint 6]),
        (.dictionariesUsed,
          .array [.asciiString kRdmFieldDictionaryName, .asciiString kEnumTypeDictionaryName]),
        (.qos, .array [.qosTickByTickRealtime]),
        (.suppsOobSnapshots, .value (.uint 0)),
        (.acceptingConsStatus, .value (.uint 0))]
  | .state =>
      [(.svcState, .value (.uint 1)),
        (.acceptingReqs, .value (.uint (if p.isAcceptingRequests then 1 else 0)))]
  | .load => [(.openWindow, .value (.uint openWindow))]

/-- The filters in a mask. -/
def FilterMask.asks (m : FilterMask) : FilterId → Bool
  | .info => m.info
  | .state => m.state
  | .load => m.load

/-- What the provider says of its service under the filters in a mask. -/
def ProviderView.service (p : ProviderView) (action : MapAction) (m : FilterMask) :
    ServiceEntry where
  action := action
  serviceId := p.serviceId.toUInt64
  filters := ([.info, .state, .load].filter m.asks).map fun id => (id, p.elementsOf id)

/-- **A source directory message is read as what the provider says of its service**, under the
    filters asked for. -/
theorem directoryOf_directorySteps (c : Channel) (p : ProviderView) (response : RsslMsg)
    (serviceName : Option CString) (m : FilterMask) (action : MapAction) :
    directoryOf (callsOf (directorySteps c p response serviceName m action))
      = some [p.service action m] := by
  obtain ⟨info, state, load, rest⟩ := m
  cases info <;> cases state <;> cases load <;> rfl

theorem lookup_service (p : ProviderView) (action : MapAction) (m : FilterMask) (id : FilterId) :
    (p.service action m).filters.lookup id
      = if m.asks id then some (p.elementsOf id) else none := by
  obtain ⟨info, state, load, rest⟩ := m
  cases info <;> cases state <;> cases load <;> cases id <;> rfl

/-- Two views in which the provider has the same to say. -/
structure ProviderView.SameService (p q : ProviderView) : Prop where
  serviceName : q.serviceName = p.serviceName
  serviceId : q.serviceId = p.serviceId
  isAcceptingRequests : q.isAcceptingRequests = p.isAcceptingRequests

theorem ProviderView.SameService.trans {p q r : ProviderView} (h : p.SameService q)
    (h' : q.SameService r) : p.SameService r :=
  ⟨h'.1.trans h.1, h'.2.trans h.2, h'.3.trans h.3⟩

/-- The provider before it stopped accepting requests. -/
def ProviderView.accepting (p : ProviderView) : ProviderView :=
  { p with isAcceptingRequests := true }

/-! ## Pictures -/

/-- What is known under the key of a service: the elements of its filters. -/
abbrev Picture := UInt64 → FilterId → Option Elements

/-- Take in an entry: it replaces what was known of the service, or amends it by filter. -/
def Picture.take (pic : Picture) (e : ServiceEntry) : Picture :=
  Function.update pic e.serviceId fun id =>
    (e.filters.lookup id).orElse fun _ =>
      match e.action with
      | .addEntry => none
      | .updateEntry => pic e.serviceId id

/-- A picture shows the service as it is in a view, under the filters it has. -/
def Picture.Shows (pic : Picture) (p : ProviderView) : Prop :=
  ∀ key id elements, pic key id = some elements →
    key = p.serviceId.toUInt64 ∧ elements = p.elementsOf id

theorem shows_congr (pic : Picture) (p q : ProviderView) (hsame : p.SameService q)
    (h : pic.Shows p) : pic.Shows q := by
  intro key id elements hpic
  obtain ⟨hkey, helements⟩ := h key id elements hpic
  refine ⟨hsame.serviceId ▸ hkey, helements.trans ?_⟩
  cases id with
  | info => rw [ProviderView.elementsOf, ProviderView.elementsOf, hsame.serviceName]
  | state => rw [ProviderView.elementsOf, ProviderView.elementsOf, hsame.isAcceptingRequests]
  | load => rfl

/-- An entry of which everything that it leaves alone is still so. -/
theorem shows_take (pic : Picture) (p : ProviderView) (action : MapAction) (m : FilterMask)
    (hkept : ∀ key id elements, pic key id = some elements → key = p.serviceId.toUInt64
      ∧ (m.asks id = false → action = .updateEntry → elements = p.elementsOf id)) :
    (pic.take (p.service action m)).Shows p := by
  intro key id elements hpic
  by_cases hkey : key = p.serviceId.toUInt64
  · subst hkey
    refine ⟨rfl, ?_⟩
    rw [Picture.take, show (p.service action m).serviceId = p.serviceId.toUInt64 from rfl,
      Function.update_self, lookup_service] at hpic
    cases hasks : m.asks id with
    | true =>
        simp only [hasks, if_true, Option.orElse_some, Option.some.injEq] at hpic
        exact hpic.symm
    | false =>
        simp only [hasks, Bool.false_eq_true, if_false, Option.orElse_none] at hpic
        cases action with
        | addEntry => exact absurd hpic (by simp [ProviderView.service])
        | updateEntry => exact (hkept _ id elements hpic).2 hasks rfl
  · rw [Picture.take, show (p.service action m).serviceId = p.serviceId.toUInt64 from rfl,
      Function.update_of_ne hkey] at hpic
    exact absurd (hkept key id elements hpic).1 hkey

/-- An update of the state brings a picture up to date. -/
theorem shows_update (pic : Picture) (p : ProviderView) (h : pic.Shows p ∨ pic.Shows p.accepting) :
    (pic.take (p.service .updateEntry { state := true })).Shows p := by
  refine shows_take pic p .updateEntry _ fun key id elements hpic => ?_
  rcases h with hp | hp
  · exact ⟨(hp key id elements hpic).1, fun _ _ => (hp key id elements hpic).2⟩
  · obtain ⟨hkey, helements⟩ := hp key id elements hpic
    refine ⟨hkey, fun hasks _ => helements.trans ?_⟩
    cases id with
    | state => exact Bool.noConfusion hasks
    | info | load => rfl

/-- A refresh draws a picture from nothing. -/
theorem shows_refresh (p : ProviderView) (m : FilterMask) :
    (Picture.take (fun _ _ => none) (p.service .addEntry m)).Shows p :=
  shows_take _ p .addEntry m fun _ _ _ hpic => absurd hpic (by simp)

/-! ## What a consumer knows -/

/-- The pictures of a consumer by stream. -/
structure Knowledge where
  pictures : Int32 → Option Picture
  /-- the streams on which the directory arrived since `Close` began -/
  told : Finset Int32

/-- The consumer knows nothing. -/
def Knowledge.nothing : Knowledge :=
  ⟨fun _ => none, ∅⟩

/-- What it makes of the directory that arrives on a stream. -/
def Knowledge.hears (known : Knowledge) (stream : Int32) (pic : Option Picture) : Knowledge :=
  ⟨Function.update known.pictures stream pic, insert stream known.told⟩

/-- What it makes of a message that arrives. -/
def Knowledge.learn (known : Knowledge) : Outgoing → Knowledge
  | .reply _ _ => known
  | .encoded response calls =>
      if response.domainType = .source then
        match response.msgClass, directoryOf calls with
        | .refresh, some entries =>
            known.hears response.streamId (some (entries.foldl Picture.take fun _ _ => none))
        | .update, some entries =>
            known.hears response.streamId
              ((known.pictures response.streamId).map fun pic => entries.foldl Picture.take pic)
        | _, _ => known
      else known

/-- Every picture shows the service as it is, unless the provider stopped accepting requests, and
    nothing arrived on its stream since then: then it shows the service as it was. -/
def Knowledge.Informed (known : Knowledge) (p : ProviderView) : Prop :=
  ∀ stream pic, known.pictures stream = some pic →
    pic.Shows p ∨ p.isAcceptingRequests = false ∧ stream ∉ known.told ∧ pic.Shows p.accepting

theorem informed_congr (known : Knowledge) (p q : ProviderView) (hsame : p.SameService q)
    (h : known.Informed p) : known.Informed q := by
  intro stream pic hpic
  rcases h stream pic hpic with hshows | ⟨hrefuses, htold, hshows⟩
  · exact .inl (shows_congr pic p q hsame hshows)
  · refine .inr ⟨hsame.isAcceptingRequests.trans hrefuses, htold, ?_⟩
    exact shows_congr pic p.accepting q.accepting ⟨hsame.serviceName, hsame.serviceId, rfl⟩ hshows

/-- When the provider stops accepting requests, pictures show the service as it was. -/
theorem informed_refuse (known : Knowledge) (p : ProviderView) (h : known.Informed p) :
    Knowledge.Informed { known with told := ∅ } { p with isAcceptingRequests := false } := by
  intro stream pic hpic
  rcases h stream pic hpic with hshows | ⟨-, -, hshows⟩
  · cases haccepting : p.isAcceptingRequests with
    | true =>
        refine .inr ⟨rfl, Finset.notMem_empty _, shows_congr pic p _ ⟨rfl, rfl, ?_⟩ hshows⟩
        exact haccepting.symm
    | false => exact .inl (shows_congr pic p _ ⟨rfl, rfl, haccepting.symm⟩ hshows)
  · exact .inr ⟨rfl, Finset.notMem_empty _, shows_congr pic p.accepting _ ⟨rfl, rfl, rfl⟩ hshows⟩

/-- The directory arrives on a stream, and the picture is up to date. -/
theorem informed_hears (known : Knowledge) (p : ProviderView) (stream : Int32)
    (pic : Option Picture) (hpic : ∀ after ∈ pic, after.Shows p) (h : known.Informed p) :
    (known.hears stream pic).Informed p := by
  intro other after hafter
  change Function.update known.pictures stream pic other = some after at hafter
  by_cases hother : other = stream
  · subst hother
    rw [Function.update_self] at hafter
    exact .inl (hpic after hafter)
  · rw [Function.update_of_ne hother] at hafter
    rcases h other after hafter with hshows | ⟨hrefuses, htold, hshows⟩
    · exact .inl hshows
    · refine .inr ⟨hrefuses, fun hmem => ?_, hshows⟩
      exact (Finset.mem_insert.mp hmem).elim hother htold

/-- **Whatever a call sends, the consumer stays informed.** -/
theorem informed_learn (e : Call) (c : Client) (out : Outgoing) (hsent : Sent e c out)
    (known : Knowledge) (h : known.Informed e.provider) :
    (known.learn out).Informed e.provider := by
  cases hsent with
  | directoryRefresh m serviceName =>
      simp only [Knowledge.learn, directoryRefreshResponse, if_true, directoryOf_directorySteps]
      refine informed_hears known _ _ _ (fun after hafter => ?_) h
      obtain rfl := Option.some.inj hafter
      exact shows_refresh e.provider m.msgKey.filter
  | directoryUpdate =>
      simp only [Knowledge.learn, directoryUpdateResponse, if_true, directoryOf_directorySteps]
      refine informed_hears known _ _ _ (fun after hafter => ?_) h
      obtain ⟨pic, hpic, rfl⟩ := Option.map_eq_some_iff.mp hafter
      exact shows_update pic e.provider ((h _ pic hpic).imp_right fun hstale => hstale.2.2)
  | acceptLogin | rejectLogin | sessionClose | reply => exact h
  | usageError m useAttribInfoInUpdates text =>
      -- also on the directory's own domain it is a status
      change Knowledge.Informed (if _ then known else known) _
      rwa [ite_self]

/-- An update that arrives is heard, with a picture of its stream or without. -/
theorem told_learn (known : Knowledge) (c : Channel) (p : ProviderView) (token : Int32)
    (serviceName : Option CString) (m : FilterMask) (action : MapAction) :
    (known.learn (.encoded (directoryUpdateResponse token)
      (callsOf (directorySteps c p (directoryUpdateResponse token) serviceName m action)))).told
      = insert token known.told := by
  simp only [Knowledge.learn, directoryUpdateResponse, if_true, directoryOf_directorySteps]
  rfl

/-- What arrives of the events of a call. -/
theorem informed_events (e : Call) (c : Client) (events : List Event)
    (hleaves : ∀ out direct rc, Event.writeEx out direct rc ∈ events → Sent e c out)
    (known : Knowledge) (h : known.Informed e.provider) :
    (events.foldl (Event.arrives Knowledge.learn) known).Informed e.provider := by
  induction events generalizing known with
  | nil => exact h
  | cons ev rest ih =>
      refine ih (fun out direct rc hev => hleaves out direct rc (List.mem_cons_of_mem _ hev)) _ ?_
      cases ev with
      | writeEx out direct rc =>
          change Knowledge.Informed (if rc.accepted then known.learn out else known) _
          split
          · exact informed_learn e c out (hleaves out direct rc List.mem_cons_self) known h
          · exact h
      | getBuffer | releaseBuffer | onRequest => exact h

/-! ## What the provider has to say stays the same -/

theorem sameService_submitOrRelease (env : Env) (s : Session) (out : Outgoing) :
    s.provider.SameService (s.submitOrRelease env out).session.provider := by
  rw [submitOrRelease_eq]
  cases env.writes.last <;> exact ⟨rfl, rfl, rfl⟩

theorem sameService_sendEncoded (env : Env) (s : Session) (response : RsslMsg)
    (steps : List EncodeStep) (d : Done) (h : s.sendEncoded env response steps = some d) :
    s.provider.SameService d.session.provider := by
  rcases sendEncoded_cases env s response steps d h with
    ⟨-, rfl⟩ | ⟨-, -, rfl⟩ | ⟨-, -, rfl⟩ | ⟨calls, -, -, rfl⟩
  · exact ⟨rfl, rfl, rfl⟩
  · exact ⟨rfl, rfl, rfl⟩
  · exact ⟨rfl, rfl, rfl⟩
  · exact sameService_submitOrRelease env s _

theorem sameService_onMsg (env : Env) (s : Session) (m : InMsg) (d : Done)
    (h : s.onMsg env m = some d) : s.provider.SameService d.session.provider := by
  rcases onMsg_cases env s m d h with ⟨-, -, hlogin⟩ | ⟨-, -, hdir⟩ | ⟨-, -, hitem⟩
    | ⟨-, -, -, text, htext⟩ | ⟨-, rfl⟩ | ⟨-, -, hclose⟩
  · rcases onLoginRequest_cases env s m d hlogin with ⟨-, d', hd', rfl⟩ | ⟨-, hreject⟩
    · have hsent := sameService_sendEncoded _ _ _ _ d' hd'
      cases d'.ret <;> exact hsent
    · exact sameService_sendEncoded _ _ _ _ d hreject
  · obtain ⟨serviceName, hsend⟩ := onDirectoryRequest_cases env s m d hdir
    exact sameService_sendEncoded _ (s.setDirectoryToken m.streamId) _ _ d hsend
  · rcases onItemRequest_cases env s m d hitem with ⟨-, hclose⟩ | ⟨-, -, rfl⟩ | ⟨-, -, -, rfl⟩
    · exact sameService_sendEncoded _ _ _ _ d hclose
    · exact ⟨rfl, rfl, rfl⟩
    · exact ⟨rfl, rfl, rfl⟩
  · exact sameService_sendEncoded _ _ _ _ d htext
  · unfold Session.onCloseMsg Session.onItemClose
    repeat' split
    all_goals exact ⟨rfl, rfl, rfl⟩
  · exact sameService_sendEncoded _ _ _ _ d hclose

/-- A method of a client changes nothing in the service. -/
theorem sameService_run (e : Call) (c : Client) (d : Done) (h : e.run c = some d) :
    e.provider.SameService d.session.provider := by
  unfold Call.run at h
  cases hinput : e.input with
  | msg m =>
      simp only [hinput] at h
      exact sameService_onMsg e.env _ m d h
  | reply token data =>
      simp only [hinput] at h
      rcases sendReply_cases e.env _ token data d h with ⟨-, rfl⟩ | ⟨-, -, rfl⟩ | ⟨-, -, rfl⟩
      · exact ⟨rfl, rfl, rfl⟩
      · exact sameService_submitOrRelease e.env ((e.session c).eraseToken token) _
      · exact ⟨rfl, rfl, rfl⟩
  | close =>
      simp only [hinput, Session.close] at h
      split at h
      · exact sameService_sendEncoded _ _ _ _ d h
      · obtain rfl := Option.some.inj h
        exact ⟨rfl, rfl, rfl⟩
  | sourceDirectoryUpdate =>
      simp only [hinput] at h
      exact sameService_sendEncoded _ _ _ _ d h

end Hitsuji
