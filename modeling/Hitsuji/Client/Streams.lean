import Hitsuji.Client.Dispatch

set_option autoImplicit false

/-! # The stream automaton of a session

Seen from its streams a session is small: whether it is logged in, on which stream, and the tokens
of its open item requests. Six actions change it. `run_streams` connects the two: a call of any
method of `client_t` performs exactly the action that `Call.action` reads off the call and the state
before it. What holds over whole runs is proved on the automaton and carried over by that
theorem. -/

namespace Hitsuji

/-! ## The automaton -/

/-- Login state and watchlist of a session on a channel. -/
structure Streams where
  handle : UInt64
  isLoggedIn : Bool
  loginToken : Int32
  tokens : Finset Int32

/-- What can happen to them. -/
inductive Action where
  | idle
  | logIn (token : Int32)
  | logOut
  | request (token : Int32)
  | cancel (token : Int32)
  | drop

namespace Streams

/-- The effect of an action. -/
def apply (s : Streams) : Action → Streams
  | .idle => s
  | .logIn token => { s with isLoggedIn := true, loginToken := token }
  | .logOut => { s with isLoggedIn := false, loginToken := 0 }
  | .request token => { s with tokens := insert token s.tokens }
  | .cancel token => { s with tokens := s.tokens.erase token }
  | .drop => { s with isLoggedIn := false, tokens := ∅ }

/-- Only a logged in session takes requests or logs out, and a request is for a new token. -/
def Enabled (s : Streams) : Action → Prop
  | .logOut | .drop => s.isLoggedIn = true
  | .request token => s.isLoggedIn = true ∧ token ∉ s.tokens
  | _ => True

end Streams

/-- The streams of a client. -/
def Client.streams (c : Client) : Streams :=
  ⟨c.handle, c.isLoggedIn, c.loginToken, c.tokens⟩

/-! ## What a call does to it -/

/-- A buffer is obtained and every encode call returns the code expected of it. -/
def Env.fills (env : Env) (steps : List EncodeStep) : Bool :=
  env.getBuffer && (encodeWith env.codec steps).isComplete

/-- `Submit` returns a non-zero value for the filled buffer. -/
def Env.submits (env : Env) (steps : List EncodeStep) : Bool :=
  env.fills steps && (env.writes.last.accepted || decide (env.writes.last = .bufferNoBuffers))

/-- RSSL takes the filled buffer over: the message is sent. -/
def Env.delivers (env : Env) (steps : List EncodeStep) : Bool :=
  env.fills steps && env.writes.last.accepted

/-- The steps by which a call answers the login request `m`. -/
def Call.acceptLoginSteps (e : Call) (m : InMsg) : List EncodeStep :=
  Hitsuji.acceptLoginSteps e.channel (acceptLoginResponse m m.streamId)

/-- The action of a message. -/
def Call.msgAction (e : Call) (c : Client) (m : InMsg) : Action :=
  match m.msgClass, m.domainType with
  | .request, .login =>
      if isValidLogin m && e.env.submits (e.acceptLoginSteps m) then .logIn m.streamId else .idle
  | .request, .marketPrice =>
      if c.isLoggedIn = true ∧ m.streamId ∉ c.tokens then .request m.streamId else .idle
  | .close, .login => if c.isLoggedIn then .logOut else .idle
  | .close, .marketPrice => if c.isLoggedIn then .cancel m.streamId else .idle
  | _, _ => .idle

/-- The action of a call. -/
def Call.action (e : Call) (c : Client) : Action :=
  match e.input with
  | .msg m => e.msgAction c m
  | .reply token _ => .cancel token
  | .close => if c.isLoggedIn then .drop else .idle
  | .sourceDirectoryUpdate => .idle

theorem msgAction_eq_request (e : Call) (c : Client) (m : InMsg) (token : Int32) :
    e.msgAction c m = .request token ↔
      m.msgClass = .request ∧ m.domainType = .marketPrice ∧ c.isLoggedIn = true
        ∧ m.streamId ∉ c.tokens ∧ m.streamId = token := by
  constructor
  · intro h
    unfold Call.msgAction at h
    split at h
    · split at h <;> exact absurd h (by simp)
    · next hclass hdom =>
        split at h
        · next hacc => exact ⟨hclass, hdom, hacc.1, hacc.2, Action.request.inj h⟩
        · exact absurd h (by simp)
    · split at h <;> exact absurd h (by simp)
    · split at h <;> exact absurd h (by simp)
    · exact absurd h (by simp)
  · rintro ⟨hclass, hdom, hlog, hnew, rfl⟩
    simp only [Call.msgAction, hclass, hdom]
    exact if_pos ⟨hlog, hnew⟩

theorem msgAction_eq_logOut (e : Call) (c : Client) (m : InMsg) :
    e.msgAction c m = .logOut ↔
      m.msgClass = .close ∧ m.domainType = .login ∧ c.isLoggedIn = true := by
  constructor
  · intro h
    unfold Call.msgAction at h
    split at h
    · split at h <;> exact absurd h (by simp)
    · split at h <;> exact absurd h (by simp)
    · next hclass hdom =>
        split at h
        · next hlog => exact ⟨hclass, hdom, hlog⟩
        · exact absurd h (by simp)
    · split at h <;> exact absurd h (by simp)
    · exact absurd h (by simp)
  · rintro ⟨hclass, hdom, hlog⟩
    simp only [Call.msgAction, hclass, hdom, hlog, if_true]

/-! ## Refinement -/

theorem streams_of_sameStreams (s s' : Session) (h : s.SameStreams s') :
    s'.client.streams = s.client.streams := by
  simp only [Client.streams, h.handle, h.isLoggedIn, h.loginToken, h.tokens]

theorem sendEncoded_streams (env : Env) (s : Session) (response : RsslMsg)
    (steps : List EncodeStep) (d : Done) (h : s.sendEncoded env response steps = some d) :
    d.session.client.streams = s.client.streams :=
  streams_of_sameStreams s d.session (sendEncoded_sameStreams env s response steps d h)

/-- What an encoding function returns. -/
theorem sendEncoded_ret (env : Env) (s : Session) (response : RsslMsg) (steps : List EncodeStep)
    (d : Done) (h : s.sendEncoded env response steps = some d) : d.ret = env.submits steps := by
  rcases sendEncoded_cases env s response steps d h with
    ⟨hbuf, rfl⟩ | ⟨hbuf, henc, rfl⟩ | ⟨hbuf, henc, rfl⟩ | ⟨calls, hbuf, henc, rfl⟩
  · simp [Env.submits, Env.fills, hbuf]
  · simp [Env.submits, Env.fills, henc, Encoded.isComplete]
  · simp [Env.submits, Env.fills, henc, Encoded.isComplete]
  · rw [submitOrRelease_eq]
    have hstatus := submitStatus_ne_zero env.writes.last
    simp only [Env.submits, Env.fills, hbuf, henc, Encoded.isComplete, Bool.and_self,
      Bool.true_and]
    rw [Bool.eq_iff_iff, decide_eq_true_iff, hstatus]
    simp

theorem onLoginRequest_streams (e : Call) (c : Client) (m : InMsg) (d : Done)
    (h : (e.session c).onLoginRequest e.env m = some d) :
    d.session.client.streams = c.streams.apply
      (if isValidLogin m && e.env.submits (e.acceptLoginSteps m) then .logIn m.streamId
        else .idle) := by
  rcases onLoginRequest_cases e.env _ m d h with ⟨hvalid, d', hd', rfl⟩ | ⟨hinvalid, hreject⟩
  · have hret := sendEncoded_ret _ _ _ _ d' hd'
    have hsame := sendEncoded_sameStreams _ _ _ _ d' hd'
    change d'.ret = e.env.submits (e.acceptLoginSteps m) at hret
    rw [hvalid, Bool.true_and, ← hret]
    cases d'.ret with
    | true =>
        simp only [Client.streams, Session.logIn, Streams.apply, if_true, hsame.handle,
          hsame.tokens]
        rfl
    | false => exact streams_of_sameStreams _ _ hsame
  · rw [hinvalid]
    exact sendEncoded_streams _ _ _ _ d hreject

theorem onDirectoryRequest_streams (env : Env) (s : Session) (m : InMsg) (d : Done)
    (h : s.onDirectoryRequest env m = some d) : d.session.client.streams = s.client.streams := by
  obtain ⟨serviceName, hsend⟩ := onDirectoryRequest_cases env s m d h
  exact sendEncoded_streams env (s.setDirectoryToken m.streamId) _ _ d hsend

theorem onItemRequest_streams (env : Env) (s : Session) (m : InMsg) (d : Done)
    (h : s.onItemRequest env m = some d) :
    d.session.client.streams = s.client.streams.apply
      (if s.client.isLoggedIn = true ∧ m.streamId ∉ s.client.tokens then .request m.streamId
        else .idle) := by
  rcases onItemRequest_cases env s m d h with
    ⟨hout, hsend⟩ | ⟨-, hmem, rfl⟩ | ⟨hin, hnew, viewByFid, rfl⟩
  · rw [if_neg (by simp [hout])]
    exact sendEncoded_streams _ _ _ _ d hsend
  · rw [if_neg (by simp [hmem])]
    rfl
  · rw [if_pos ⟨hin, hnew⟩]
    rfl

theorem onItemClose_streams (s : Session) (m : InMsg) (hm : m.domainType = .marketPrice) :
    (s.onItemClose m).session.client.streams = s.client.streams.apply
      (if s.client.isLoggedIn then .cancel m.streamId else .idle) := by
  unfold Session.onItemClose
  split
  · next hout =>
      rw [hout]
      rfl
  · next hin =>
      rw [Bool.not_eq_false] at hin
      rw [if_neg (by simp [hm]), hin]
      split
      · rfl
      · next hnot => simp [Streams.apply, Client.streams, Finset.erase_eq_of_notMem hnot]

theorem onCloseMsg_streams (e : Call) (c : Client) (m : InMsg) (hm : m.msgClass = .close) :
    ((e.session c).onCloseMsg m).session.client.streams = c.streams.apply (e.msgAction c m) := by
  unfold Session.onCloseMsg Call.msgAction
  cases hdom : m.domainType with
  | login =>
      simp only [hm]
      cases hin : c.isLoggedIn with
      | true => simp [Call.session, hin, Session.logOut, Streams.apply, Client.streams]
      | false => simp [Call.session, hin, Streams.apply, Client.streams]
  | marketPrice =>
      simp only [hm]
      exact onItemClose_streams (e.session c) m hdom
  | source | dictionary | marketByOrder | marketByPrice | marketMaker | symbolList | yieldCurve
  | other _ =>
      simp only [hm]
      rfl

theorem onMsg_streams (e : Call) (c : Client) (m : InMsg) (d : Done)
    (h : (e.session c).onMsg e.env m = some d) :
    d.session.client.streams = c.streams.apply (e.msgAction c m) := by
  rcases onMsg_cases e.env _ m d h with ⟨hclass, hdom, hd⟩ | ⟨hclass, hdom, hd⟩
    | ⟨hclass, hdom, hd⟩ | ⟨hclass, hlogin, hitem, text, hd⟩ | ⟨hclass, rfl⟩ | ⟨hreq, hclose, hd⟩
  · simp only [Call.msgAction, hclass, hdom]
    exact onLoginRequest_streams e c m d hd
  · simp only [Call.msgAction, hclass, hdom]
    exact onDirectoryRequest_streams e.env _ m d hd
  · simp only [Call.msgAction, hclass, hdom]
    exact onItemRequest_streams e.env _ m d hd
  · have hidle : e.msgAction c m = .idle := by
      simp only [Call.msgAction, hclass]
      split <;> simp_all
    rw [hidle]
    exact sendEncoded_streams _ _ _ _ d hd
  · exact onCloseMsg_streams e c m hclass
  · have hidle : e.msgAction c m = .idle := by
      unfold Call.msgAction
      split <;> simp_all
    rw [hidle]
    exact sendEncoded_streams _ _ _ _ d hd

theorem sendReply_streams (env : Env) (s : Session) (token : Int32) (data : ByteBuffer.Bytes)
    (d : Done) (h : s.sendReply env token data = some d) :
    d.session.client.streams = s.client.streams.apply (.cancel token) := by
  rcases sendReply_cases env s token data d h with ⟨hnot, rfl⟩ | ⟨-, -, rfl⟩ | ⟨-, -, rfl⟩
  · simp [Streams.apply, Client.streams, Finset.erase_eq_of_notMem hnot]
  · rw [submitOrRelease_eq]
    exact streams_of_sameStreams _ _ (afterSubmit_sameStreams _ _)
  · rfl

/-- **Every call of a method performs its action on the stream automaton.** -/
theorem run_streams (e : Call) (c : Client) (d : Done) (h : e.run c = some d) :
    d.session.client.streams = c.streams.apply (e.action c) := by
  unfold Call.run at h
  unfold Call.action
  cases hin : e.input with
  | msg m =>
      simp only [hin] at h
      exact onMsg_streams e c m d h
  | reply token data =>
      simp only [hin] at h
      exact sendReply_streams e.env _ token data d h
  | close =>
      simp only [hin] at h
      unfold Session.close at h
      split at h
      · next hlogged =>
          change c.isLoggedIn = true at hlogged
          rw [sendEncoded_streams _ _ _ _ d h, if_pos hlogged]
          rfl
      · next hout =>
          change ¬ c.isLoggedIn = true at hout
          obtain rfl := Option.some.inj h
          rw [if_neg hout]
          rfl
  | sourceDirectoryUpdate =>
      simp only [hin] at h
      exact sendEncoded_streams _ _ _ _ d h

/-- A call only ever performs an action that is enabled. -/
theorem action_enabled (e : Call) (c : Client) : c.streams.Enabled (e.action c) := by
  unfold Call.action Call.msgAction
  repeat' split
  all_goals simp_all [Streams.Enabled, Client.streams]

/-- No method moves a client to another channel. -/
theorem run_handle (e : Call) (c : Client) (d : Done) (h : e.run c = some d) :
    d.session.client.handle = c.handle := by
  have hstreams := congrArg Streams.handle (run_streams e c d h)
  refine hstreams.trans ?_
  cases e.action c <;> rfl

end Hitsuji
