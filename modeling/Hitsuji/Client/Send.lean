import Hitsuji.Provider.Directory

set_option autoImplicit false

/-! # The messages a session sends

`RejectLogin`, `AcceptLogin`, `SendDirectoryRefresh`, `SendDirectoryUpdate`, `SendReply` and
`SendClose` of `client_t`. Each encoding function is `Session.sendEncoded` applied to its response
and its steps; `SendReply` copies what a worker encoded. -/

namespace Hitsuji

open ByteBuffer

/-! ## Decoded messages -/

/-- What `rsslDecodeElementEntry` found: an element, with what `rsslDecodeUInt` makes of it. -/
structure Element where
  name : ElementName
  dataType : DataType
  decodeUInt : RsslRet
  uint : UInt64

/-- An element list as the decode iterator presents it: the code of `rsslDecodeElementList`, then
    one result for each `rsslDecodeElementEntry` up to the end of the container. -/
structure ElementList where
  init : RsslRet
  entries : List (Except RsslRet Element)

/-- The message key of a decoded message. Its name points into the message buffer: `nameTail` is
    what the memory holds behind it. -/
structure InKey where
  flags : KeyFlags
  serviceId : UInt16
  nameType : NameType
  name : Bytes
  nameTail : CString
  filter : FilterMask
  attribContainerType : DataType

/-- The name as a `const char*`. -/
def InKey.nameData (k : InKey) : CString :=
  fun i => (k.name[i]?).getD (k.nameTail (i - k.name.length))

/-- A decoded message, `RsslMsg`, together with what its decode iterator yields. -/
structure InMsg where
  msgClass : MsgClass
  domainType : DomainType
  streamId : Int32
  containerType : DataType
  flags : RequestFlags
  msgKey : InKey
  /-- the code of `rsslDecodeMsgKeyAttrib` -/
  decodeMsgKeyAttrib : RsslRet
  attrib : ElementList
  payload : ElementList

/-! ## Login responses -/

/-- The status message of `RejectLogin`. -/
def rejectLoginResponse (loginToken : Int32) : RsslMsg where
  msgClass := .status
  domainType := .login
  streamId := loginToken
  containerType := .noData
  flags := [.stmfHasState]
  state := { streamState := .closed, dataState := .suspect, code := .notEntitled }

/-- The encoding steps of `RejectLogin`. -/
def rejectLoginSteps (c : Channel) (loginToken : Int32) : List EncodeStep :=
  [.rssl (.setBuffer maxMsgSize),
    .rssl (.setRwfVersion c.majorVersion c.minorVersion),
    .rssl (.msg (rejectLoginResponse loginToken)),
    .rssl (.validateMsg (rejectLoginResponse loginToken))]

/-- `client_t::RejectLogin`. -/
def Session.rejectLogin (env : Env) (s : Session) (loginToken : Int32) : Option Done :=
  s.sendEncoded env (rejectLoginResponse loginToken) (rejectLoginSteps s.channel loginToken)

/-- The refresh message of `AcceptLogin`. -/
def acceptLoginResponse (loginMsg : InMsg) (loginToken : Int32) : RsslMsg where
  msgClass := .refresh
  domainType := .login
  streamId := loginToken
  containerType := .noData
  flags := [.rfmfSolicited, .rfmfRefreshComplete, .rfmfHasMsgKey]
  msgKey :=
    { flags := { hasNameType := true, hasName := true, hasAttrib := true }
      nameType := loginMsg.msgKey.nameType
      name := loginMsg.msgKey.name
      attribContainerType := .elementList }
  state := { streamState := .opened, dataState := .ok, code := .none }

/-- What `AcceptLogin` encodes before its first element. -/
def acceptLoginPrologue (c : Channel) (response : RsslMsg) : List EncodeStep :=
  [.rssl (.setBuffer maxMsgSize),
    .rssl (.setRwfVersion c.majorVersion c.minorVersion),
    .call (.msgInit response maxMsgSize) .encodeMsgKeyOpaque .cleanup,
    .rssl (.elementListInit 4)]

/-- The first element of the login response, the one step that returns without cleaning up. -/
def allowSuspectDataEntry : EncodeCall :=
  .elementEntry .allowSuspectData (.uint 0)

/-- What `AcceptLogin` encodes after its first element. -/
def acceptLoginEpilogue : List EncodeStep :=
  [.rssl (.elementEntry .provPermExp (.uint 1)),
    .rssl (.elementEntry .provPermProf (.uint 0)),
    .rssl (.elementEntry .singleOpen (.uint 0)),
    .rssl .elementListComplete,
    .rssl .msgKeyAttribComplete,
    .rssl .msgComplete]

/-- The encoding steps of `AcceptLogin`. -/
def acceptLoginSteps (c : Channel) (response : RsslMsg) : List EncodeStep :=
  acceptLoginPrologue c response
    ++ .call allowSuspectDataEntry .success .returnFalse :: acceptLoginEpilogue

/-- `client_t::AcceptLogin`. -/
def Session.acceptLogin (env : Env) (s : Session) (loginMsg : InMsg) (loginToken : Int32) :
    Option Done :=
  let response := acceptLoginResponse loginMsg loginToken
  s.sendEncoded env response (acceptLoginSteps s.channel response)

/-! ## Directory messages -/

/-- The refresh message of `SendDirectoryRefresh`. -/
def directoryRefreshResponse (requestToken : Int32) (filterMask : FilterMask) : RsslMsg where
  msgClass := .refresh
  domainType := .source
  streamId := requestToken
  containerType := .map
  flags := [.rfmfSolicited, .rfmfRefreshComplete, .rfmfHasMsgKey]
  msgKey := { flags := { hasFilter := true }, filter := { filterMask with rest := 0 } }
  state := { streamState := .opened, dataState := .ok, code := .none }

/-- The update message of `SendDirectoryUpdate`. -/
def directoryUpdateResponse (directoryToken : Int32) : RsslMsg where
  msgClass := .update
  domainType := .source
  streamId := directoryToken
  containerType := .map
  flags := [.upmfDoNotConflate, .rfmfHasMsgKey]
  msgKey := { flags := { hasFilter := true }, filter := { state := true } }

/-- The encoding steps the two directory messages share. -/
def directorySteps (c : Channel) (p : ProviderView) (response : RsslMsg)
    (serviceName : Option CString) (filterMask : FilterMask) (mapAction : MapAction) :
    List EncodeStep :=
  [.rssl (.setBuffer maxMsgSize),
    .rssl (.setRwfVersion c.majorVersion c.minorVersion),
    .call (.msgInit response maxMsgSize) .encodeContainer .cleanup]
  ++ getDirectoryMap p serviceName filterMask mapAction
  ++ [.rssl .msgComplete, .rssl (.validateMsg response)]

/-- `client_t::SendDirectoryRefresh`. -/
def Session.sendDirectoryRefresh (env : Env) (s : Session) (requestToken : Int32)
    (serviceName : Option CString) (filterMask : FilterMask) : Option Done :=
  let response := directoryRefreshResponse requestToken filterMask
  s.sendEncoded env response
    (directorySteps s.channel s.provider response serviceName filterMask .addEntry)

/-- `client_t::SendDirectoryUpdate`. -/
def Session.sendDirectoryUpdate (env : Env) (s : Session) (directoryToken : Int32)
    (serviceName : Option CString) : Option Done :=
  let response := directoryUpdateResponse directoryToken
  s.sendEncoded env response
    (directorySteps s.channel s.provider response serviceName { state := true } .updateEntry)

/-! ## Item messages -/

/-- `client_t::SendClose`. -/
def Session.sendClose (env : Env) (s : Session) (a : CloseArgs) : Option Done :=
  s.sendEncoded env a.response (writeRawClose env.dcheckIsOn s.channel.rwfVersion a maxMsgSize)

/-- `tokens_.erase (token)`. -/
def Session.eraseToken (s : Session) (token : Int32) : Session :=
  { s with client := { s.client with tokens := s.client.tokens.erase token } }

/-- `client_t::SendReply`: drops the response if the token is already cancelled. -/
def Session.sendReply (env : Env) (s : Session) (requestToken : Int32) (data : Bytes) :
    Option Done :=
  if env.dcheckIsOn && decide (maxMsgSize < data.length) then none
  else if requestToken ∉ s.client.tokens then some ⟨true, s, []⟩
  else if env.getBuffer then
    some ((s.eraseToken requestToken).submitOrRelease env (.reply requestToken data))
  else some ⟨false, s.eraseToken requestToken, [.getBuffer false]⟩

/-! ## What sending leaves alone -/

/-- Two sessions that differ at most in keepalive and flush state. -/
structure Session.SameStreams (s s' : Session) : Prop where
  handle : s'.client.handle = s.client.handle
  isLoggedIn : s'.client.isLoggedIn = s.client.isLoggedIn
  loginToken : s'.client.loginToken = s.client.loginToken
  directoryToken : s'.client.directoryToken = s.client.directoryToken
  tokens : s'.client.tokens = s.client.tokens
  channel : s'.channel = s.channel

theorem Session.SameStreams.refl (s : Session) : s.SameStreams s :=
  ⟨rfl, rfl, rfl, rfl, rfl, rfl⟩

/-- Submitting only marks the socket and schedules the next ping. -/
theorem afterSubmit_sameStreams (s : Session) (rc : RsslRet) :
    s.SameStreams (s.afterSubmit rc) := by
  cases rc <;> exact ⟨rfl, rfl, rfl, rfl, rfl, rfl⟩

theorem submitStatus_ne_zero (rc : RsslRet) :
    submitStatus rc ≠ 0 ↔ rc.accepted = true ∨ rc = .bufferNoBuffers := by
  cases rc <;> simp [submitStatus, RsslRet.accepted]

/-- What submitting a filled buffer returns and leaves behind. -/
theorem submitOrRelease_eq (env : Env) (s : Session) (out : Outgoing) :
    s.submitOrRelease env out =
      ⟨decide (submitStatus env.writes.last ≠ 0), s.afterSubmit env.writes.last,
        .getBuffer true
          :: writeCalls out (decide (s.channel.socketId ∉ s.provider.inWfds)) env.writes.last
            env.writes.again
          ++ if submitStatus env.writes.last ≠ 0 then [] else [.releaseBuffer]⟩ := by
  simp only [Session.submitOrRelease, Session.submit]
  by_cases h : submitStatus env.writes.last = 0
  · simp [h]
  · simp [h]

/-- The cases of sending an encoded message. -/
theorem sendEncoded_cases (env : Env) (s : Session) (response : RsslMsg) (steps : List EncodeStep)
    (d : Done) (h : s.sendEncoded env response steps = some d) :
    (env.getBuffer = false ∧ d = ⟨false, s, [.getBuffer false]⟩)
      ∨ (env.getBuffer = true ∧ encodeWith env.codec steps = .failed .cleanup
          ∧ d = ⟨false, s, [.getBuffer true, .releaseBuffer]⟩)
      ∨ (env.getBuffer = true ∧ encodeWith env.codec steps = .failed .returnFalse
          ∧ d = ⟨false, s, [.getBuffer true]⟩)
      ∨ ∃ calls, env.getBuffer = true ∧ encodeWith env.codec steps = .complete calls
          ∧ d = s.submitOrRelease env (.encoded response calls) := by
  unfold Session.sendEncoded at h
  split at h
  · next hbuf =>
      split at h
      · next calls henc =>
          exact .inr (.inr (.inr ⟨calls, hbuf, henc, (Option.some.inj h).symm⟩))
      · next henc => exact .inr (.inl ⟨hbuf, henc, (Option.some.inj h).symm⟩)
      · next henc => exact .inr (.inr (.inl ⟨hbuf, henc, (Option.some.inj h).symm⟩))
      · exact absurd h (by simp)
  · next hbuf =>
      exact .inl ⟨by simpa using hbuf, (Option.some.inj h).symm⟩

/-- Sending an encoded message changes no stream state. -/
theorem sendEncoded_sameStreams (env : Env) (s : Session) (response : RsslMsg)
    (steps : List EncodeStep) (d : Done) (h : s.sendEncoded env response steps = some d) :
    s.SameStreams d.session := by
  rcases sendEncoded_cases env s response steps d h with
    ⟨-, rfl⟩ | ⟨-, -, rfl⟩ | ⟨-, -, rfl⟩ | ⟨calls, -, -, rfl⟩
  · exact Session.SameStreams.refl s
  · exact Session.SameStreams.refl s
  · exact Session.SameStreams.refl s
  · rw [submitOrRelease_eq]
    exact afterSubmit_sameStreams s env.writes.last

/-- The cases of sending a reply. -/
theorem sendReply_cases (env : Env) (s : Session) (token : Int32) (data : Bytes) (d : Done)
    (h : s.sendReply env token data = some d) :
    (token ∉ s.client.tokens ∧ d = ⟨true, s, []⟩)
      ∨ (token ∈ s.client.tokens ∧ env.getBuffer = true
          ∧ d = (s.eraseToken token).submitOrRelease env (.reply token data))
      ∨ (token ∈ s.client.tokens ∧ env.getBuffer = false
          ∧ d = ⟨false, s.eraseToken token, [.getBuffer false]⟩) := by
  unfold Session.sendReply at h
  split at h
  · exact absurd h (by simp)
  split at h
  · next hnot => exact .inl ⟨hnot, (Option.some.inj h).symm⟩
  · next hin =>
      rw [not_not] at hin
      split at h
      · next hbuf => exact .inr (.inl ⟨hin, hbuf, (Option.some.inj h).symm⟩)
      · next hbuf =>
          rw [Bool.not_eq_true] at hbuf
          exact .inr (.inr ⟨hin, hbuf, (Option.some.inj h).symm⟩)

/-! ## A peer and an RSSL to compute with -/

/-- A session on a clear socket. -/
def clearSession : Session :=
  .accepted 0x7f00 0 ⟨1024, 14, 0, 60⟩ ⟨[86, 84, 65], 1, true, ∅, 0⟩

/-- A message without flags or payload, on the item "u". -/
def InMsg.plain (msgClass : MsgClass) (domainType : DomainType) (streamId : Int32) : InMsg where
  msgClass := msgClass
  domainType := domainType
  streamId := streamId
  containerType := .noData
  flags := {}
  msgKey := ⟨{}, 0, .other 0, [117], fun _ => 0, {}, .noData⟩
  decodeMsgKeyAttrib := .success
  attrib := ⟨.success, []⟩
  payload := ⟨.success, []⟩

/-- A login request by user name. -/
def loginByName (streamId : Int32) : InMsg :=
  { InMsg.plain .request .login streamId with
    flags := { streaming := true }
    msgKey := ⟨{ hasName := true, hasNameType := true }, 0, .other 1, [117], fun _ => 0, {},
      .noData⟩ }

/-- RSSL with the given encoder and last write code. -/
def Env.of (codec : Codec) (last : RsslRet) (h : last ≠ .writeCallAgain) : Env :=
  ⟨codec, true, ⟨0, last, h⟩, true, false⟩

/-- RSSL takes everything. -/
def willingEnv : Env :=
  .of (.refusing []) .success (by decide)

end Hitsuji
