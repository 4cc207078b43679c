import Hitsuji.Client.Writes

set_option autoImplicit false

/-! # What a call can send

Six functions of `client_t` fill a buffer, and each call of a method reaches one of them at most.
`Sent` lists with what: what has to hold of everything a session sends is checked against that list
once. -/

namespace Hitsuji

open ByteBuffer

/-- The calls an encoding function makes on its iterator when all succeed. -/
def callsOf (steps : List EncodeStep) : List EncodeCall :=
  steps.filterMap EncodeStep.made

/-- A call of a method may fill a buffer with -/
inductive Sent (e : Call) (c : Client) : Outgoing → Prop where
  /-- the answer to a login request, -/
  | acceptLogin (m : InMsg) (hinput : e.input = .msg m) (hclass : m.msgClass = .request)
      (hdomain : m.domainType = .login) :
      Sent e c (.encoded (acceptLoginResponse m m.streamId)
        (callsOf (acceptLoginSteps e.channel (acceptLoginResponse m m.streamId))))
  | rejectLogin (m : InMsg) (hinput : e.input = .msg m) (hclass : m.msgClass = .request)
      (hdomain : m.domainType = .login) :
      Sent e c (.encoded (rejectLoginResponse m.streamId)
        (callsOf (rejectLoginSteps e.channel m.streamId)))
  /-- a directory, -/
  | directoryRefresh (m : InMsg) (serviceName : Option CString) (hinput : e.input = .msg m)
      (hclass : m.msgClass = .request) (hdomain : m.domainType = .source) :
      Sent e c (.encoded (directoryRefreshResponse m.streamId m.msgKey.filter)
        (callsOf (directorySteps e.channel e.provider
          (directoryRefreshResponse m.streamId m.msgKey.filter) serviceName m.msgKey.filter
          .addEntry)))
  | directoryUpdate (hinput : e.input = .sourceDirectoryUpdate) :
      Sent e c (.encoded (directoryUpdateResponse c.directoryToken)
        (callsOf (directorySteps e.channel e.provider (directoryUpdateResponse c.directoryToken)
          (some (cStr e.provider.serviceName)) { state := true } .updateEntry)))
  /-- a usage error, -/
  | usageError (m : InMsg) (useAttribInfoInUpdates : Bool) (text : Bytes)
      (hinput : e.input = .msg m) (hclass : m.msgClass ≠ .close) :
      Sent e c (.encoded (usageError m useAttribInfoInUpdates text).response
        (callsOf (writeRawClose e.env.dcheckIsOn e.channel.rwfVersion
          (usageError m useAttribInfoInUpdates text) maxMsgSize)))
  /-- the close of the session, -/
  | sessionClose (hinput : e.input = .close) (hlogged : c.isLoggedIn = true) :
      Sent e c (.encoded (sessionClose (e.session c)).response
        (callsOf (writeRawClose e.env.dcheckIsOn e.channel.rwfVersion
          (sessionClose (e.session c)) maxMsgSize)))
  /-- or a worker's reply. -/
  | reply (token : Int32) (data : Bytes) (hinput : e.input = .reply token data)
      (htoken : token ∈ c.tokens) : Sent e c (.reply token data)

/-! ## Submitting -/

theorem onRequest_writeCalls (request : ItemRequest) (out : Outgoing) (direct : Bool)
    (last : RsslRet) (n : Nat) : Event.onRequest request ∉ writeCalls out direct last n := by
  induction n with
  | zero => simp [writeCalls]
  | succ n ih => simp [writeCalls, ih]

/-- Submitting sends the buffer that was filled, and nothing else. -/
theorem events_submitOrRelease (env : Env) (s : Session) (out : Outgoing) :
    (∀ request, Event.onRequest request ∉ (s.submitOrRelease env out).events)
      ∧ ∀ out' direct rc, Event.writeEx out' direct rc ∈ (s.submitOrRelease env out).events →
        out' = out := by
  rw [submitOrRelease_eq]
  have hrelease : ∀ ev ∈ (if submitStatus env.writes.last ≠ 0 then []
      else [Event.releaseBuffer]), ev = .releaseBuffer := by
    intro ev hev
    split at hev
    · exact absurd hev List.not_mem_nil
    · exact List.mem_singleton.mp hev
  refine ⟨fun request hev => ?_, fun out' direct rc hev => ?_⟩
  · rcases List.mem_append.mp hev with hsent | hreleased
    · rcases List.mem_cons.mp hsent with hget | hwrite
      · exact absurd hget (by simp)
      · exact onRequest_writeCalls request out _ _ _ hwrite
    · exact absurd (hrelease _ hreleased) (by simp)
  · rcases List.mem_append.mp hev with hsent | hreleased
    · rcases List.mem_cons.mp hsent with hget | hwrite
      · exact absurd hget (by simp)
      · exact ((mem_writeCalls _ _ _ _ _ _ _).mp hwrite).1
    · exact absurd (hrelease _ hreleased) (by simp)

/-- Encoding functions send the message they encode. -/
theorem events_sendEncoded (env : Env) (s : Session) (response : RsslMsg)
    (steps : List EncodeStep) (d : Done) (h : s.sendEncoded env response steps = some d) :
    (∀ request, Event.onRequest request ∉ d.events)
      ∧ ∀ out direct rc, Event.writeEx out direct rc ∈ d.events →
        out = .encoded response (callsOf steps) := by
  rcases sendEncoded_cases env s response steps d h with
    ⟨-, rfl⟩ | ⟨-, -, rfl⟩ | ⟨-, -, rfl⟩ | ⟨calls, -, hencoded, rfl⟩
  · exact ⟨by simp, by simp⟩
  · exact ⟨by simp, by simp⟩
  · exact ⟨by simp, by simp⟩
  · obtain rfl := runSteps_complete env.codec [] calls steps hencoded
    exact events_submitOrRelease env s _

/-! ## Methods -/

/-- What a call did leaves the program as listed. -/
structure Call.Leaves (e : Call) (c : Client) (events : List Event) : Prop where
  sent : ∀ out direct rc, Event.writeEx out direct rc ∈ events → Sent e c out
  requested : ∀ request, Event.onRequest request ∈ events → ∃ m viewByFid, e.input = .msg m
    ∧ m.msgClass = .request ∧ m.domainType = .marketPrice ∧ m.streamId ∉ c.tokens
    ∧ request = itemRequest (e.session c) m viewByFid

theorem leaves_nothing (e : Call) (c : Client) : e.Leaves c [] :=
  ⟨fun _ _ _ h => absurd h List.not_mem_nil, fun _ h => absurd h List.not_mem_nil⟩

/-- An encoding function that sends something listed. -/
theorem leaves_sendEncoded (e : Call) (c : Client) (env : Env) (s : Session) (response : RsslMsg)
    (steps : List EncodeStep) (d : Done) (h : s.sendEncoded env response steps = some d)
    (hsent : Sent e c (.encoded response (callsOf steps))) : e.Leaves c d.events := by
  obtain ⟨hnone, hwrites⟩ := events_sendEncoded env s response steps d h
  refine ⟨fun out direct rc hev => ?_, fun request hev => absurd hev (hnone request)⟩
  rw [hwrites out direct rc hev]
  exact hsent

theorem leaves_onMsg (e : Call) (c : Client) (m : InMsg) (d : Done) (hinput : e.input = .msg m)
    (h : (e.session c).onMsg e.env m = some d) : e.Leaves c d.events := by
  rcases onMsg_cases e.env _ m d h with ⟨hclass, hdomain, hlogin⟩ | ⟨hclass, hdomain, hdirectory⟩
    | ⟨hclass, hdomain, hitem⟩ | ⟨hclass, -, -, text, hclose⟩ | ⟨hclass, rfl⟩
    | ⟨-, hclass, hclose⟩
  · rcases onLoginRequest_cases e.env _ m d hlogin with ⟨-, d', hd', rfl⟩ | ⟨-, hreject⟩
    · have hleaves := leaves_sendEncoded e c _ _ _ _ d' hd' (.acceptLogin m hinput hclass hdomain)
      split <;> exact hleaves
    · exact leaves_sendEncoded e c _ _ _ _ d hreject (.rejectLogin m hinput hclass hdomain)
  · obtain ⟨serviceName, hsend⟩ := onDirectoryRequest_cases e.env _ m d hdirectory
    exact leaves_sendEncoded e c _ _ _ _ d hsend
      (.directoryRefresh m serviceName hinput hclass hdomain)
  · rcases onItemRequest_cases e.env _ m d hitem with ⟨-, hclose⟩ | ⟨-, -, rfl⟩
      | ⟨-, hnew, viewByFid, rfl⟩
    · exact leaves_sendEncoded e c _ _ _ _ d hclose (.usageError m _ _ hinput (by simp [hclass]))
    · exact leaves_nothing e c
    · refine ⟨fun out direct rc hev => absurd hev (by simp), fun request hev => ?_⟩
      obtain rfl := Event.onRequest.inj (List.mem_singleton.mp hev)
      exact ⟨m, viewByFid, hinput, hclass, hdomain, hnew, rfl⟩
  · exact leaves_sendEncoded e c _ _ _ _ d hclose (.usageError m _ _ hinput (by simp [hclass]))
  · -- a close message is never answered
    have hsilent : ((e.session c).onCloseMsg m).events = [] := by
      unfold Session.onCloseMsg Session.onItemClose
      repeat' split
      all_goals rfl
    rw [hsilent]
    exact leaves_nothing e c
  · exact leaves_sendEncoded e c _ _ _ _ d hclose (.usageError m _ _ hinput hclass)

/-- **Everything a call sends is listed.** -/
theorem leaves_run (e : Call) (c : Client) (d : Done) (hrun : e.run c = some d) :
    e.Leaves c d.events := by
  unfold Call.run at hrun
  cases hinput : e.input with
  | msg m =>
      simp only [hinput] at hrun
      exact leaves_onMsg e c m d hinput hrun
  | reply token data =>
      simp only [hinput] at hrun
      rcases sendReply_cases e.env _ token data d hrun with ⟨-, rfl⟩ | ⟨htoken, -, rfl⟩
        | ⟨-, -, rfl⟩
      · exact leaves_nothing e c
      · obtain ⟨hnone, hwrites⟩ := events_submitOrRelease e.env
          ((e.session c).eraseToken token) (.reply token data)
        refine ⟨fun out direct rc hev => ?_, fun request hev => absurd hev (hnone request)⟩
        rw [hwrites out direct rc hev]
        exact .reply token data hinput htoken
      · exact ⟨by simp, by simp⟩
  | close =>
      simp only [hinput] at hrun
      unfold Session.close at hrun
      split at hrun
      · next hlogged => exact leaves_sendEncoded e c _ _ _ _ d hrun (.sessionClose hinput hlogged)
      · obtain rfl := Option.some.inj hrun
        exact leaves_nothing e c
  | sourceDirectoryUpdate =>
      simp only [hinput] at hrun
      exact leaves_sendEncoded e c _ _ _ _ d hrun (.directoryUpdate hinput)

end Hitsuji
