import Hitsuji.Client.Send
import Hitsuji.Lib.Transition

set_option autoImplicit false

/-! # Handling a consumer's messages

`client_t::OnMsg` and the handlers under it, `client_t::Close` and
`client_t::OnSourceDirectoryUpdate`. Everything that can happen to a client is one `Call`; the
surroundings (channel, provider members, RSSL) may be different at every call, only the client's own
members persist. -/

namespace Hitsuji

open ByteBuffer

/-! ## Decoding loops -/

/-- The loop of `OnLoginAttribInfo`: elements are only logged. -/
def loginAttribLoop : List (Except RsslRet Element) → Bool
  | [] => true
  | .ok _ :: rest => loginAttribLoop rest
  | .error _ :: _ => false

/-- `client_t::OnLoginAttribInfo`. -/
def onLoginAttribInfo (l : ElementList) : Bool :=
  if l.init = .success then loginAttribLoop l.entries else false

/-- The loop of `ParseView`: the view type is decoded but no field id is ever collected. -/
def parseViewLoop : List (Except RsslRet Element) → Bool
  | [] => false
  | .error _ :: _ => false
  | .ok element :: rest =>
      if element.name = .viewType ∧ element.dataType = .uint then
        if element.decodeUInt = .success then parseViewLoop rest else false
      else parseViewLoop rest

/-- `client_t::ParseView`; `view_by_fid` stays empty. -/
def parseView (l : ElementList) : Bool :=
  if l.init = .success then parseViewLoop l.entries else false

/-! ## Login -/

/-- The RDM validation of `OnLoginRequest`, up to `goto invalid_login`. -/
def isValidLogin (loginMsg : InMsg) : Bool :=
  let isStreamingRequest := decide (loginMsg.flags = { streaming := true }
    ∨ loginMsg.flags = { streaming := true, pause := true })
  let isPauseRequest := decide (loginMsg.flags = { pause := true })
  (isStreamingRequest || isPauseRequest)
    && loginMsg.msgKey.flags.hasName && loginMsg.msgKey.flags.hasNameType
    && decide (loginMsg.decodeMsgKeyAttrib = .success)
    && (decide (loginMsg.msgKey.attribContainerType ≠ .elementList)
      || onLoginAttribInfo loginMsg.attrib)

/-- `is_logged_in_ = true; login_token_ = token`. -/
def Session.logIn (s : Session) (token : Int32) : Session :=
  { s with client := { s.client with isLoggedIn := true, loginToken := token } }

/-- `client_t::OnLoginRequest`. -/
def Session.onLoginRequest (env : Env) (s : Session) (loginMsg : InMsg) : Option Done :=
  if isValidLogin loginMsg then
    match s.acceptLogin env loginMsg loginMsg.streamId with
    | none => none
    | some d =>
        if d.ret then some { d with session := d.session.logIn loginMsg.streamId } else some d
  else s.rejectLogin env loginMsg.streamId

/-! ## Directory and dictionary -/

/-- `directory_token_ = token`. -/
def Session.setDirectoryToken (s : Session) (token : Int32) : Session :=
  { s with client := { s.client with directoryToken := token } }

/-- `client_t::OnDirectoryRequest`: falls over on multiple directory tokens. -/
def Session.onDirectoryRequest (env : Env) (s : Session) (m : InMsg) : Option Done :=
  let s := s.setDirectoryToken m.streamId
  -- a name that is not the provider's fails in `GetServiceDirectory`
  if m.msgKey.flags.hasName then
    s.sendDirectoryRefresh env m.streamId (some m.msgKey.nameData) m.msgKey.filter
  else if m.msgKey.flags.hasServiceId ∧ m.msgKey.serviceId ≠ 0 then
    if m.msgKey.serviceId = s.provider.serviceId then
      s.sendDirectoryRefresh env m.streamId (some (cStr s.provider.serviceName)) m.msgKey.filter
    else s.sendDirectoryRefresh env m.streamId none m.msgKey.filter
  else s.sendDirectoryRefresh env m.streamId none m.msgKey.filter

/-- `kErrorUnsupportedMsgClass` -/
def kErrorUnsupportedMsgClass : Bytes := ascii "Unsupported message class."

/-- `kErrorUnsupportedRequest` -/
def kErrorUnsupportedRequest : Bytes := ascii "Unsupported domain type in request."

/-- `kErrorUnsupportedDictionary` -/
def kErrorUnsupportedDictionary : Bytes := ascii "Unsupported dictionary request."

/-- `kErrorLoginRequired` -/
def kErrorLoginRequired : Bytes := ascii "Login required for request."

/-- The closes sent on a usage error: they differ in the text and the attribute flag. -/
def usageError (m : InMsg) (useAttribInfoInUpdates : Bool) (statusText : Bytes) : CloseArgs where
  requestToken := m.streamId
  serviceId := m.msgKey.serviceId
  modelType := m.domainType
  itemName := m.msgKey.name
  useAttribInfoInUpdates := useAttribInfoInUpdates
  streamState := .closed
  statusCode := .usageError
  statusText := statusText

/-- `client_t::OnDictionaryRequest`: unsupported, and declared so in the directory. -/
def Session.onDictionaryRequest (env : Env) (s : Session) (m : InMsg) : Option Done :=
  s.sendClose env (usageError m m.flags.msgKeyInUpdates kErrorUnsupportedDictionary)

/-! ## Items -/

/-- `tokens_.emplace (token)`. -/
def Session.emplaceToken (s : Session) (token : Int32) : Session :=
  { s with client := { s.client with tokens := insert token s.client.tokens } }

/-- The arguments of `delegate_->OnRequest`. -/
def itemRequest (s : Session) (m : InMsg) (viewByFid : Option (List Int)) : ItemRequest where
  handle := s.client.handle
  rwfVersion := s.channel.rwfVersion
  token := m.streamId
  serviceId := m.msgKey.serviceId
  itemName := m.msgKey.name
  useAttribInfoInUpdates := m.flags.msgKeyInUpdates
  viewByFid := viewByFid

/-- `client_t::OnItemRequest`. -/
def Session.onItemRequest (env : Env) (s : Session) (m : InMsg) : Option Done :=
  if s.client.isLoggedIn = false then
    s.sendClose env (usageError m m.flags.msgKeyInUpdates kErrorLoginRequired)
  -- filtered before entry, and checked again
  else if m.domainType ≠ .marketPrice then none
  -- a reissue does not alter response data
  else if m.streamId ∈ s.client.tokens then some ⟨true, s, []⟩
  else
    let s := s.emplaceToken m.streamId
    -- a view that cannot be parsed is ignored
    if m.flags.hasView ∧ m.containerType = .elementList ∧ parseView m.payload = true then
      some ⟨env.onRequest, s, [.onRequest (itemRequest s m (some []))]⟩
    else some ⟨env.onRequest, s, [.onRequest (itemRequest s m none)]⟩

/-- `client_t::OnItemClose`. -/
def Session.onItemClose (s : Session) (m : InMsg) : Done :=
  if s.client.isLoggedIn = false then ⟨true, s, []⟩
  else if m.domainType ≠ .marketPrice then ⟨true, s, []⟩
  else if m.streamId ∈ s.client.tokens then ⟨true, s.eraseToken m.streamId, []⟩
  else ⟨true, s, []⟩

/-! ## Messages -/

/-- `client_t::OnRequestMsg`. -/
def Session.onRequestMsg (env : Env) (s : Session) (m : InMsg) : Option Done :=
  match m.domainType with
  | .login => s.onLoginRequest env m
  | .source => s.onDirectoryRequest env m
  | .dictionary => s.onDictionaryRequest env m
  | .marketPrice => s.onItemRequest env m
  | _ => s.sendClose env (usageError m m.flags.msgKeyInUpdates kErrorUnsupportedRequest)

/-- `is_logged_in_ = false; login_token_ = 0`, nothing else. -/
def Session.logOut (s : Session) : Session :=
  { s with client := { s.client with isLoggedIn := false, loginToken := 0 } }

/-- `client_t::OnCloseMsg`. -/
def Session.onCloseMsg (s : Session) (m : InMsg) : Done :=
  match m.domainType with
  | .marketPrice => s.onItemClose m
  | .login => if s.client.isLoggedIn then ⟨true, s.logOut, []⟩ else ⟨true, s, []⟩
  | _ => ⟨true, s, []⟩

/-- `client_t::OnMsg`. -/
def Session.onMsg (env : Env) (s : Session) (m : InMsg) : Option Done :=
  match m.msgClass with
  | .request => s.onRequestMsg env m
  | .close => some (s.onCloseMsg m)
  | _ => s.sendClose env (usageError m true kErrorUnsupportedMsgClass)

/-! ## What a message comes to -/

theorem onLoginRequest_cases (env : Env) (s : Session) (m : InMsg) (d : Done)
    (h : s.onLoginRequest env m = some d) :
    (isValidLogin m = true ∧ ∃ d', s.acceptLogin env m m.streamId = some d'
        ∧ d = if d'.ret then { d' with session := d'.session.logIn m.streamId } else d')
      ∨ (isValidLogin m = false ∧ s.rejectLogin env m.streamId = some d) := by
  unfold Session.onLoginRequest at h
  split at h
  · next hvalid =>
      split at h
      · exact absurd h (by simp)
      · next d' hd' =>
          refine .inl ⟨hvalid, d', hd', ?_⟩
          split at h
          · next hret =>
              rw [if_pos hret]
              exact (Option.some.inj h).symm
          · next hret =>
              rw [if_neg hret]
              exact (Option.some.inj h).symm
  · next hinvalid =>
      rw [Bool.not_eq_true] at hinvalid
      exact .inr ⟨hinvalid, h⟩

/-- Whichever directory is asked for, it is sent after setting the directory token. -/
theorem onDirectoryRequest_cases (env : Env) (s : Session) (m : InMsg) (d : Done)
    (h : s.onDirectoryRequest env m = some d) :
    ∃ serviceName, (s.setDirectoryToken m.streamId).sendDirectoryRefresh env m.streamId serviceName
      m.msgKey.filter = some d := by
  unfold Session.onDirectoryRequest at h
  simp only at h
  split at h
  · exact ⟨_, h⟩
  split at h
  · split at h
    · exact ⟨_, h⟩
    · exact ⟨_, h⟩
  · exact ⟨_, h⟩

/-- Refused before login, ignored as a reissue, or accepted, whatever the view decodes to. -/
theorem onItemRequest_cases (env : Env) (s : Session) (m : InMsg) (d : Done)
    (h : s.onItemRequest env m = some d) :
    (s.client.isLoggedIn = false
        ∧ s.sendClose env (usageError m m.flags.msgKeyInUpdates kErrorLoginRequired) = some d)
      ∨ (s.client.isLoggedIn = true ∧ m.streamId ∈ s.client.tokens ∧ d = ⟨true, s, []⟩)
      ∨ (s.client.isLoggedIn = true ∧ m.streamId ∉ s.client.tokens
          ∧ ∃ viewByFid, d = ⟨env.onRequest, s.emplaceToken m.streamId,
            [.onRequest (itemRequest s m viewByFid)]⟩) := by
  unfold Session.onItemRequest at h
  split at h
  · next hout => exact .inl ⟨hout, h⟩
  · next hin =>
      rw [Bool.not_eq_false] at hin
      split at h
      · exact absurd h (by simp)
      split at h
      · next hmem => exact .inr (.inl ⟨hin, hmem, (Option.some.inj h).symm⟩)
      · next hnew =>
          refine .inr (.inr ⟨hin, hnew, ?_⟩)
          simp only at h
          split at h
          · exact ⟨some [], (Option.some.inj h).symm⟩
          · exact ⟨none, (Option.some.inj h).symm⟩

/-- The handler of a message. -/
theorem onMsg_cases (env : Env) (s : Session) (m : InMsg) (d : Done)
    (h : s.onMsg env m = some d) :
    (m.msgClass = .request ∧ m.domainType = .login ∧ s.onLoginRequest env m = some d)
      ∨ (m.msgClass = .request ∧ m.domainType = .source ∧ s.onDirectoryRequest env m = some d)
      ∨ (m.msgClass = .request ∧ m.domainType = .marketPrice ∧ s.onItemRequest env m = some d)
      ∨ (m.msgClass = .request ∧ m.domainType ≠ .login ∧ m.domainType ≠ .marketPrice
          ∧ ∃ text, s.sendClose env (usageError m m.flags.msgKeyInUpdates text) = some d)
      ∨ (m.msgClass = .close ∧ d = s.onCloseMsg m)
      ∨ (m.msgClass ≠ .request ∧ m.msgClass ≠ .close
          ∧ s.sendClose env (usageError m true kErrorUnsupportedMsgClass) = some d) := by
  unfold Session.onMsg at h
  cases hclass : m.msgClass with
  | request =>
      simp only [hclass, Session.onRequestMsg] at h
      cases hdom : m.domainType with
      | login =>
          simp only [hdom] at h
          exact .inl ⟨rfl, rfl, h⟩
      | source =>
          simp only [hdom] at h
          exact .inr (.inl ⟨rfl, rfl, h⟩)
      | marketPrice =>
          simp only [hdom] at h
          exact .inr (.inr (.inl ⟨rfl, rfl, h⟩))
      | dictionary | marketByOrder | marketByPrice | marketMaker | symbolList | yieldCurve
      | other _ =>
          simp only [hdom] at h
          exact .inr (.inr (.inr (.inl ⟨rfl, by simp, by simp, _, h⟩)))
  | close =>
      simp only [hclass] at h
      exact .inr (.inr (.inr (.inr (.inl ⟨rfl, (Option.some.inj h).symm⟩))))
  | refresh | status | update | ack | generic | post | other _ =>
      simp only [hclass] at h
      exact .inr (.inr (.inr (.inr (.inr ⟨by simp, by simp, h⟩))))

/-! ## Calls from the provider -/

/-- The close notification on the login stream; there is no AttribInfo in MMT_LOGIN. -/
def sessionClose (s : Session) : CloseArgs where
  requestToken := s.client.loginToken
  serviceId := s.provider.serviceId
  modelType := .login
  itemName := []
  useAttribInfoInUpdates := false
  streamState := .closed
  statusCode := .none
  statusText := []

/-- Reject new item requests and drop the active ones. -/
def Session.dropRequests (s : Session) : Session :=
  { s with client := { s.client with isLoggedIn := false, tokens := ∅ } }

/-- `client_t::Close`. -/
def Session.close (env : Env) (s : Session) : Option Done :=
  if s.client.isLoggedIn then s.dropRequests.sendClose env (sessionClose s)
  else some ⟨true, s, []⟩

/-- `client_t::OnSourceDirectoryUpdate`. -/
def Session.onSourceDirectoryUpdate (env : Env) (s : Session) : Option Done :=
  s.sendDirectoryUpdate env s.client.directoryToken (some (cStr s.provider.serviceName))

/-! ## Everything that can happen to a client -/

/-- What a client is called with. -/
inductive Input where
  | msg (m : InMsg)
  | reply (token : Int32) (data : Bytes)
  | close
  | sourceDirectoryUpdate

/-- The call delivers a worker's reply. -/
def Input.isReply : Input → Bool
  | .reply _ _ => true
  | _ => false

/-- The call delivers a message of the peer. -/
def Input.isMsg : Input → Bool
  | .msg _ => true
  | _ => false

/-- A call of a method, in surroundings of its own. -/
structure Call where
  env : Env
  channel : Channel
  provider : ProviderView
  input : Input

/-- The session a call works on. -/
def Call.session (e : Call) (c : Client) : Session :=
  ⟨c, e.channel, e.provider⟩

/-- The method called; `none` when an assertion ends the process. -/
def Call.run (e : Call) (c : Client) : Option Done :=
  match e.input with
  | .msg m => (e.session c).onMsg e.env m
  | .reply token data => (e.session c).sendReply e.env token data
  | .close => (e.session c).close e.env
  | .sourceDirectoryUpdate => (e.session c).onSourceDirectoryUpdate e.env

/-- The client after the call. -/
def Call.next (c : Client) (e : Call) : Option Client :=
  (e.run c).map fun d => d.session.client

/-- A client over its lifetime: any calls, in any order. -/
def clientSystem : Transition.System Client Call :=
  .ofFn (fun c => ∃ handle directoryToken channel now,
    c = .initial handle directoryToken channel now) Call.next

theorem next_eq_some (c c' : Client) (e : Call) :
    Call.next c e = some c' ↔ ∃ d, e.run c = some d ∧ d.session.client = c' :=
  Option.map_eq_some_iff

/-- A call with nothing pending on the socket and an RSSL that takes everything. -/
def willingCall (input : Input) : Call :=
  ⟨willingEnv, clearSession.channel, clearSession.provider, input⟩

theorem clearSession_init : clientSystem.init clearSession.client :=
  ⟨0x7f00, 0, ⟨1024, 14, 0, 60⟩, 0, rfl⟩

end Hitsuji
