import Hitsuji.Client.Watchlist

set_option autoImplicit false

/-! # The login stream as the peer sees it

The peer decides which login streams are open from the messages it receives: the OPEN refresh of
`AcceptLogin` opens the stream it is sent on, a status message with a closed stream state closes it,
and so does the peer's own close message. `is_logged_in_` and `login_token_` are meant to describe
the one stream that is open. They are set by four functions that do not consult each other, and the
condition under which a call keeps the agreement is spelled out as `Call.LoginOk`. -/

namespace Hitsuji

open ByteBuffer Transition

/-! ## Open login streams -/

/-- What a received message does to the peer's open login streams. -/
def RsslMsg.loginEffect (r : RsslMsg) (opened : Finset Int32) : Finset Int32 :=
  if r.domainType = .login then
    match r.state.streamState with
    | .opened => insert r.streamId opened
    | .closed | .closedRecover => opened.erase r.streamId
    | _ => opened
  else opened

/-- Workers answer item requests only. -/
def Outgoing.loginEffect (opened : Finset Int32) : Outgoing → Finset Int32
  | .encoded response _ => response.loginEffect opened
  | .reply _ _ => opened

/-- A message reaches the peer once RSSL has accepted it. -/
def Event.loginEffect (opened : Finset Int32) : Event → Finset Int32
  | .writeEx out _ rc => if rc.accepted then out.loginEffect opened else opened
  | _ => opened

/-- The peer's own close message closes the stream it is sent on. -/
def Input.loginEffect (opened : Finset Int32) : Input → Finset Int32
  | .msg m =>
      if m.msgClass = .close ∧ m.domainType = .login then opened.erase m.streamId else opened
  | _ => opened

/-- The open login streams after a call. -/
def Call.openLogins (c : Client) (e : Call) (opened : Finset Int32) : Finset Int32 :=
  match e.run c with
  | some d => d.events.foldl Event.loginEffect (e.input.loginEffect opened)
  | none => opened

/-- A client together with the login streams its peer has open. -/
abbrev LoginView := Client × Finset Int32

/-- Login kept in step: the flag is set exactly when one stream is open, that stream is the token,
    and no other is open. -/
def Agree (s : LoginView) : Prop :=
  s.2 = if s.1.isLoggedIn then {s.1.loginToken} else ∅

instance (s : LoginView) : Decidable (Agree s) :=
  inferInstanceAs (Decidable (_ = _))

/-- One call, as client and peer see it. -/
def loginStep (s : LoginView) (e : Call) : Option LoginView :=
  (Call.next s.1 e).map fun c' => (c', Call.openLogins s.1 e s.2)

/-- A session over its lifetime; no stream is open at first. -/
def loginSystem : System LoginView Call :=
  .ofFn (fun s => clientSystem.init s.1 ∧ s.2 = ∅) loginStep

/-! ## Effect of sending -/

theorem foldl_writeCalls (out : Outgoing) (direct : Bool) (last : RsslRet) (n : Nat)
    (opened : Finset Int32) :
    (writeCalls out direct last n).foldl Event.loginEffect opened
      = if last.accepted then out.loginEffect opened else opened := by
  induction n with
  | zero => rfl
  | succ n ih => exact ih

theorem submitOrRelease_loginEffect (env : Env) (s : Session) (out : Outgoing)
    (opened : Finset Int32) :
    (s.submitOrRelease env out).events.foldl Event.loginEffect opened
      = if env.writes.last.accepted then out.loginEffect opened else opened := by
  have hrelease : ∀ o, (if submitStatus env.writes.last ≠ 0 then []
      else [Event.releaseBuffer]).foldl Event.loginEffect o = o := by
    intro o
    split <;> rfl
  rw [submitOrRelease_eq]
  simp only [List.cons_append, List.foldl_cons, List.foldl_append, Event.loginEffect,
    foldl_writeCalls, hrelease]

/-- The peer sees an encoded message exactly when it is delivered. -/
theorem sendEncoded_loginEffect (env : Env) (s : Session) (response : RsslMsg)
    (steps : List EncodeStep) (d : Done) (opened : Finset Int32)
    (h : s.sendEncoded env response steps = some d) :
    d.events.foldl Event.loginEffect opened
      = if env.delivers steps then response.loginEffect opened else opened := by
  rcases sendEncoded_cases env s response steps d h with
    ⟨hbuf, rfl⟩ | ⟨hbuf, henc, rfl⟩ | ⟨hbuf, henc, rfl⟩ | ⟨calls, hbuf, henc, rfl⟩
  · simp [Env.delivers, Env.fills, hbuf, Event.loginEffect]
  · simp [Env.delivers, Env.fills, henc, Encoded.isComplete, Event.loginEffect]
  · simp [Env.delivers, Env.fills, henc, Encoded.isComplete, Event.loginEffect]
  · rw [submitOrRelease_loginEffect]
    simp only [Env.delivers, Env.fills, hbuf, henc, Encoded.isComplete, Bool.and_self,
      Bool.true_and, Outgoing.loginEffect]

/-! ## The login messages among all calls -/

/-- The encoding steps of the reject. -/
def Call.rejectLoginSteps (e : Call) (m : InMsg) : List EncodeStep :=
  Hitsuji.rejectLoginSteps e.channel m.streamId

/-- The encoding steps of the close sent for an unsupported message class. -/
def Call.unsupportedSteps (e : Call) (m : InMsg) : List EncodeStep :=
  writeRawClose e.env.dcheckIsOn e.channel.rwfVersion
    (usageError m true kErrorUnsupportedMsgClass) maxMsgSize

/-- The encoding steps of the session close. -/
def Call.sessionCloseSteps (e : Call) (c : Client) : List EncodeStep :=
  writeRawClose e.env.dcheckIsOn e.channel.rwfVersion (sessionClose (e.session c)) maxMsgSize

/-- What a call keeps the agreement under.

    - A login that is accepted and delivered is for the stream already logged in, if there is one.
    - `AcceptLogin` that gets `NO_BUFFERS` for its refresh was logged in on that stream before.
    - A reject, or the close for an unsupported message class on the login domain, is not delivered
      on the stream that is logged in.
    - A login close received while logged in is for the stream that is logged in.
    - The close notification of `Close` is delivered. -/
def Call.LoginOk (c : Client) (e : Call) : Prop :=
  match e.input with
  | .msg m =>
      m.domainType = .login →
        match m.msgClass with
        | .request =>
            if isValidLogin m then
              (e.env.delivers (e.acceptLoginSteps m) = true → c.isLoggedIn = true →
                m.streamId = c.loginToken)
              ∧ (e.env.fills (e.acceptLoginSteps m) = true →
                e.env.writes.last = .bufferNoBuffers →
                c.isLoggedIn = true ∧ m.streamId = c.loginToken)
            else e.env.delivers (e.rejectLoginSteps m) = true → c.isLoggedIn = true →
              m.streamId ≠ c.loginToken
        | .close => c.isLoggedIn = true → m.streamId = c.loginToken
        | _ => e.env.delivers (e.unsupportedSteps m) = true → c.isLoggedIn = true →
            m.streamId ≠ c.loginToken
  | .close => c.isLoggedIn = true → e.env.delivers (e.sessionCloseSteps c) = true
  | _ => True

/-! ## What the peer sees of a call -/

/-- An encoded message that is not a login message leaves the login streams alone. -/
theorem sendEncoded_notLogin (env : Env) (s : Session) (response : RsslMsg)
    (steps : List EncodeStep) (d : Done) (opened : Finset Int32)
    (hdom : response.domainType ≠ .login) (h : s.sendEncoded env response steps = some d) :
    d.events.foldl Event.loginEffect opened = opened := by
  rw [sendEncoded_loginEffect env s response steps d opened h, RsslMsg.loginEffect, if_neg hdom,
    ite_self]

/-- A login request opens its stream when it is accepted, closes it when it is rejected. -/
theorem onLoginRequest_loginEffect (e : Call) (c : Client) (m : InMsg) (d : Done)
    (opened : Finset Int32) (h : (e.session c).onLoginRequest e.env m = some d) :
    d.events.foldl Event.loginEffect opened =
      if isValidLogin m then
        if e.env.delivers (e.acceptLoginSteps m) then insert m.streamId opened else opened
      else if e.env.delivers (e.rejectLoginSteps m) then opened.erase m.streamId else opened := by
  rcases onLoginRequest_cases e.env _ m d h with ⟨hvalid, d', hd', rfl⟩ | ⟨hinvalid, hreject⟩
  · have heffect := sendEncoded_loginEffect _ _ _ _ d' opened hd'
    rw [if_pos hvalid]
    cases d'.ret <;> exact heffect
  · rw [if_neg (by simp [hinvalid])]
    exact sendEncoded_loginEffect _ _ _ _ d opened hreject

theorem onDirectoryRequest_loginEffect (env : Env) (s : Session) (m : InMsg) (d : Done)
    (opened : Finset Int32) (h : s.onDirectoryRequest env m = some d) :
    d.events.foldl Event.loginEffect opened = opened := by
  obtain ⟨serviceName, hsend⟩ := onDirectoryRequest_cases env s m d h
  exact sendEncoded_notLogin _ _ _ _ d opened DomainType.noConfusion hsend

theorem onItemRequest_loginEffect (env : Env) (s : Session) (m : InMsg) (d : Done)
    (opened : Finset Int32) (hdom : m.domainType ≠ .login) (h : s.onItemRequest env m = some d) :
    d.events.foldl Event.loginEffect opened = opened := by
  rcases onItemRequest_cases env s m d h with ⟨-, hsend⟩ | ⟨-, -, rfl⟩ | ⟨-, -, viewByFid, rfl⟩
  · exact sendEncoded_notLogin _ _ _ _ d opened hdom hsend
  · rfl
  · rfl

/-- Messages of other domains leave the login streams alone. -/
theorem onMsg_notLogin (env : Env) (s : Session) (m : InMsg) (d : Done) (opened : Finset Int32)
    (hdom : m.domainType ≠ .login) (h : s.onMsg env m = some d) :
    d.events.foldl Event.loginEffect opened = opened := by
  rcases onMsg_cases env s m d h with ⟨-, hlogin, -⟩ | ⟨-, -, hd⟩ | ⟨-, -, hd⟩
    | ⟨-, -, -, text, hd⟩ | ⟨-, rfl⟩ | ⟨-, -, hd⟩
  · exact absurd hlogin hdom
  · exact onDirectoryRequest_loginEffect env s m d opened hd
  · exact onItemRequest_loginEffect env s m d opened hdom hd
  · exact sendEncoded_notLogin _ _ _ _ d opened hdom hd
  · unfold Session.onCloseMsg Session.onItemClose
    repeat' split
    all_goals rfl
  · exact sendEncoded_notLogin _ _ _ _ d opened hdom hd

theorem sendReply_loginEffect (env : Env) (s : Session) (token : Int32) (data : Bytes) (d : Done)
    (opened : Finset Int32) (h : s.sendReply env token data = some d) :
    d.events.foldl Event.loginEffect opened = opened := by
  rcases sendReply_cases env s token data d h with ⟨-, rfl⟩ | ⟨-, -, rfl⟩ | ⟨-, -, rfl⟩
  · rfl
  · rw [submitOrRelease_loginEffect]
    exact ite_self opened
  · rfl

/-! ## One call -/

/-- The state after a step, taken apart. -/
theorem loginStep_eq_some (s s' : LoginView) (e : Call) :
    loginStep s e = some s' ↔ ∃ d, e.run s.1 = some d ∧ s'.1 = d.session.client
      ∧ s'.2 = d.events.foldl Event.loginEffect (e.input.loginEffect s.2) := by
  obtain ⟨c', o'⟩ := s'
  unfold loginStep
  constructor
  · intro h
    obtain ⟨c₁, hc₁, hpair⟩ := Option.map_eq_some_iff.mp h
    obtain ⟨d, hd, rfl⟩ := (next_eq_some s.1 c₁ e).mp hc₁
    obtain ⟨rfl, rfl⟩ := Prod.mk.inj hpair
    refine ⟨d, hd, rfl, ?_⟩
    simp only [Call.openLogins, hd]
  · rintro ⟨d, hd, hclient, hopen⟩
    simp only at hclient hopen
    simp only [Call.next, Call.openLogins, hd, Option.map_some, ← hclient, ← hopen]

/-- A call that changes neither side keeps the agreement. -/
theorem agree_of_unchanged (s s' : LoginView) (hs : Agree s) (hopen : s'.2 = s.2)
    (hlog : s'.1.isLoggedIn = s.1.isLoggedIn) (htoken : s'.1.loginToken = s.1.loginToken) :
    Agree s' := by
  unfold Agree at hs ⊢
  rw [hopen, hlog, htoken, hs]

/-- Erasing a stream the session is not logged in on. -/
theorem agree_erase (s : LoginView) (hs : Agree s) (token : Int32) :
    (s.2.erase token = if s.1.isLoggedIn then {s.1.loginToken} else ∅)
      ↔ (s.1.isLoggedIn = true → token ≠ s.1.loginToken) := by
  unfold Agree at hs
  rw [hs]
  cases s.1.isLoggedIn with
  | false => simp
  | true =>
      by_cases heq : token = s.1.loginToken
      · subst heq
        simp [Finset.ext_iff]
      · simp [heq]

theorem agree_insert (s : LoginView) (hs : Agree s) (token : Int32) :
    insert token s.2 = {token} ↔ (s.1.isLoggedIn = true → token = s.1.loginToken) := by
  unfold Agree at hs
  rw [hs]
  cases s.1.isLoggedIn with
  | false => simp
  | true =>
      constructor
      · intro h _
        have hmem : s.1.loginToken ∈ ({token} : Finset Int32) := by
          rw [← h]
          simp
        exact (Finset.mem_singleton.mp hmem).symm
      · intro h
        rw [h rfl]
        simp

theorem agree_singleton (s : LoginView) (hs : Agree s) (token : Int32) :
    s.2 = {token} ↔ s.1.isLoggedIn = true ∧ token = s.1.loginToken := by
  unfold Agree at hs
  rw [hs]
  cases s.1.isLoggedIn with
  | false => simp
  | true => simp [Finset.singleton_inj, eq_comm]

/-- An accepted login. -/
theorem agree_acceptLogin (s s' : LoginView) (e : Call) (m : InMsg) (d : Done) (hs : Agree s)
    (hvalid : isValidLogin m = true)
    (hd : (e.session s.1).onLoginRequest e.env m = some d) (hclient : s'.1 = d.session.client)
    (hopen : s'.2 = d.events.foldl Event.loginEffect s.2) :
    Agree s' ↔
      (e.env.delivers (e.acceptLoginSteps m) = true → s.1.isLoggedIn = true →
        m.streamId = s.1.loginToken)
      ∧ (e.env.fills (e.acceptLoginSteps m) = true → e.env.writes.last = .bufferNoBuffers →
        s.1.isLoggedIn = true ∧ m.streamId = s.1.loginToken) := by
  have hstreams := onLoginRequest_streams e s.1 m d hd
  rw [onLoginRequest_loginEffect e s.1 m d s.2 hd, if_pos hvalid] at hopen
  rw [hvalid, Bool.true_and, ← hclient] at hstreams
  have hlog : s'.1.isLoggedIn = _ := congrArg Streams.isLoggedIn hstreams
  have htoken : s'.1.loginToken = _ := congrArg Streams.loginToken hstreams
  unfold Env.delivers at hopen ⊢
  unfold Env.submits at hlog htoken
  cases hfill : e.env.fills (e.acceptLoginSteps m) with
  | false =>
      -- nothing was sent, and `AcceptLogin` returned false
      simp only [hfill, Bool.false_and, Bool.false_eq_true, if_false] at hlog htoken hopen
      simp only [Bool.false_and, Bool.false_eq_true, false_implies, and_self, iff_true]
      exact agree_of_unchanged s s' hs hopen hlog htoken
  | true =>
      simp only [hfill, Bool.true_and] at hlog htoken hopen
      simp only [Bool.true_and, true_implies]
      cases hacc : e.env.writes.last.accepted with
      | true =>
          simp only [hacc, Bool.true_or, if_true] at hlog htoken hopen
          have hne : e.env.writes.last ≠ .bufferNoBuffers := by
            intro h
            simp [h, RsslRet.accepted] at hacc
          simp only [true_implies, hne, false_implies, and_true]
          rw [← agree_insert s hs m.streamId, Agree, hopen, hlog, htoken]
          rfl
      | false =>
          simp only [hacc, Bool.false_or, Bool.false_eq_true, if_false] at hlog htoken hopen
          simp only [Bool.false_eq_true, false_implies, true_and]
          by_cases hnone : e.env.writes.last = .bufferNoBuffers
          -- `Submit` returns -1: the flag is set although the peer was sent nothing
          · simp only [hnone, decide_true, if_true] at hlog htoken
            simp only [hnone, true_implies]
            rw [← agree_singleton s hs m.streamId, Agree, hopen, hlog, htoken]
            rfl
          · simp only [hnone, decide_false, Bool.false_eq_true, if_false] at hlog htoken
            simp only [hnone, false_implies, iff_true]
            exact agree_of_unchanged s s' hs hopen hlog htoken

/-- A status message that closes a stream: a reject, or the close for an unsupported class. -/
theorem agree_statusClose (s s' : LoginView) (delivered : Bool) (token : Int32) (hs : Agree s)
    (hstreams : s'.1.streams = s.1.streams)
    (hopen : s'.2 = if delivered then s.2.erase token else s.2) :
    Agree s' ↔ (delivered = true → s.1.isLoggedIn = true → token ≠ s.1.loginToken) := by
  have hlog : s'.1.isLoggedIn = s.1.isLoggedIn := congrArg Streams.isLoggedIn hstreams
  have htoken : s'.1.loginToken = s.1.loginToken := congrArg Streams.loginToken hstreams
  cases delivered with
  | false =>
      simp only [Bool.false_eq_true, false_implies, iff_true]
      exact agree_of_unchanged s s' hs hopen hlog htoken
  | true =>
      simp only [if_true] at hopen
      simp only [true_implies]
      rw [← agree_erase s hs token, Agree, hopen, hlog, htoken]

/-- A login close received from the peer. -/
theorem agree_loginClose (s s' : LoginView) (token : Int32) (hs : Agree s)
    (hstreams : s'.1.streams
      = s.1.streams.apply (if s.1.isLoggedIn then .logOut else .idle))
    (hopen : s'.2 = s.2.erase token) :
    Agree s' ↔ (s.1.isLoggedIn = true → token = s.1.loginToken) := by
  have hlog : s'.1.isLoggedIn = _ := congrArg Streams.isLoggedIn hstreams
  have hs' := hs
  unfold Agree at hs
  cases hin : s.1.isLoggedIn with
  | false =>
      simp only [hin, Bool.false_eq_true, if_false] at hs hlog
      simp only [Bool.false_eq_true, false_implies, iff_true]
      have hout : s'.1.isLoggedIn = false := hlog.trans hin
      rw [Agree, hopen, hs, hout]
      rfl
  | true =>
      -- the flag goes whichever stream is closed, so that stream has to be the token
      simp only [hin, if_true] at hs hlog
      simp only [true_implies]
      have hout : s'.1.isLoggedIn = false := hlog
      rw [Agree, hopen, hs, hout]
      simp only [Bool.false_eq_true, if_false]
      rw [Finset.erase_eq_empty_iff]
      simp [eq_comm]

/-- The close notification of `Close`. -/
theorem agree_sessionClose (s s' : LoginView) (e : Call) (d : Done) (hs : Agree s)
    (hd : (e.session s.1).close e.env = some d) (hclient : s'.1 = d.session.client)
    (hopen : s'.2 = d.events.foldl Event.loginEffect s.2) :
    Agree s' ↔ (s.1.isLoggedIn = true → e.env.delivers (e.sessionCloseSteps s.1) = true) := by
  unfold Session.close at hd
  unfold Agree at hs
  split at hd
  · next hin =>
      change s.1.isLoggedIn = true at hin
      have hstreams := sendEncoded_streams _ _ _ _ d hd
      rw [← hclient] at hstreams
      have hout : s'.1.isLoggedIn = false := congrArg Streams.isLoggedIn hstreams
      rw [sendEncoded_loginEffect _ _ _ _ d s.2 hd] at hopen
      change s'.2 = if e.env.delivers (e.sessionCloseSteps s.1) then s.2.erase s.1.loginToken
        else s.2 at hopen
      rw [if_pos hin] at hs
      rw [Agree, hopen, hs, hout, hin]
      cases e.env.delivers (e.sessionCloseSteps s.1) with
      | true => simp
      | false => simp
  · next hout =>
      change ¬ s.1.isLoggedIn = true at hout
      obtain rfl := Option.some.inj hd
      exact ⟨fun _ hin => absurd hin hout, fun _ =>
        agree_of_unchanged s s' hs hopen (by rw [hclient]; rfl) (by rw [hclient]; rfl)⟩

/-- Only login messages, a login close and `Close` move login state. -/
theorem login_unchanged (e : Call) (c : Client) (m : InMsg) (hdom : m.domainType ≠ .login) :
    (c.streams.apply (e.msgAction c m)).isLoggedIn = c.isLoggedIn
      ∧ (c.streams.apply (e.msgAction c m)).loginToken = c.loginToken := by
  unfold Call.msgAction
  split
  · next hlogin => exact absurd hlogin hdom
  · split <;> exact ⟨rfl, rfl⟩
  · next hlogin => exact absurd hlogin hdom
  · split <;> exact ⟨rfl, rfl⟩
  · exact ⟨rfl, rfl⟩

/-- A message on the login domain. -/
theorem agree_loginMsg (s s' : LoginView) (e : Call) (m : InMsg) (d : Done) (hs : Agree s)
    (hin : e.input = .msg m) (hdom : m.domainType = .login)
    (hd : (e.session s.1).onMsg e.env m = some d) (hclient : s'.1 = d.session.client)
    (hopen : s'.2 = d.events.foldl Event.loginEffect (e.input.loginEffect s.2)) :
    Agree s' ↔ Call.LoginOk s.1 e := by
  have hstreams := onMsg_streams e s.1 m d hd
  rw [← hclient] at hstreams
  simp only [Call.LoginOk, hin, hdom, true_implies]
  simp only [hin, Input.loginEffect, hdom, and_true] at hopen
  unfold Session.onMsg at hd
  cases hclass : m.msgClass with
  | request =>
      simp only [hclass, Session.onRequestMsg, hdom] at hd
      simp only [hclass, reduceCtorEq, if_false] at hopen ⊢
      by_cases hvalid : isValidLogin m = true
      · rw [if_pos hvalid]
        exact agree_acceptLogin s s' e m d hs hvalid hd hclient hopen
      · rw [if_neg hvalid]
        rw [onLoginRequest_loginEffect e s.1 m d s.2 hd, if_neg hvalid] at hopen
        simp only [Call.msgAction, hclass, hdom, hvalid, Bool.false_and, Bool.false_eq_true,
          if_false, Streams.apply] at hstreams
        exact agree_statusClose s s' _ m.streamId hs hstreams hopen
  | close =>
      simp only [hclass] at hd
      obtain rfl := Option.some.inj hd
      simp only [hclass, if_true] at hopen ⊢
      simp only [Call.msgAction, hclass, hdom] at hstreams
      refine agree_loginClose s s' m.streamId hs hstreams ?_
      rw [hopen]
      unfold Session.onCloseMsg
      rw [hdom]
      simp only
      split <;> rfl
  | refresh | status | update | ack | generic | post | other _ =>
      simp only [hclass] at hd
      simp only [hclass, reduceCtorEq, if_false] at hopen ⊢
      simp only [Call.msgAction, hclass, Streams.apply] at hstreams
      rw [sendEncoded_loginEffect _ _ _ _ d s.2 hd] at hopen
      have heffect : (usageError m true kErrorUnsupportedMsgClass).response.loginEffect s.2
          = s.2.erase m.streamId := by
        simp [RsslMsg.loginEffect, CloseArgs.response, usageError, hdom]
      rw [heffect] at hopen
      exact agree_statusClose s s' _ m.streamId hs hstreams hopen

/-- From a state in which they agree, one call keeps the agreement exactly under `LoginOk`. -/
theorem agree_loginStep (s : LoginView) (e : Call) (s' : LoginView) (hs : Agree s)
    (h : loginStep s e = some s') : Agree s' ↔ Call.LoginOk s.1 e := by
  obtain ⟨d, hd, hclient, hopen⟩ := (loginStep_eq_some s s' e).mp h
  have hstreams := run_streams e s.1 d hd
  rw [← hclient] at hstreams
  have hlog : s'.1.isLoggedIn = _ := congrArg Streams.isLoggedIn hstreams
  have htoken : s'.1.loginToken = _ := congrArg Streams.loginToken hstreams
  unfold Call.run at hd
  cases hin : e.input with
  | msg m =>
      simp only [hin] at hd
      by_cases hdom : m.domainType = .login
      · exact agree_loginMsg s s' e m d hs hin hdom hd hclient hopen
      · have hother := login_unchanged e s.1 m hdom
        simp only [Call.action, hin, hother] at hlog htoken
        simp only [hin, Input.loginEffect, hdom, and_false, if_false] at hopen
        rw [onMsg_notLogin _ _ _ d s.2 hdom hd] at hopen
        simp only [Call.LoginOk, hin, hdom, false_implies, iff_true]
        exact agree_of_unchanged s s' hs hopen hlog htoken
  | reply token data =>
      simp only [hin, Input.loginEffect] at hd hopen
      rw [sendReply_loginEffect _ _ _ _ d s.2 hd] at hopen
      simp only [Call.action, hin] at hlog htoken
      simp only [Call.LoginOk, hin, iff_true]
      exact agree_of_unchanged s s' hs hopen hlog htoken
  | close =>
      simp only [hin, Input.loginEffect] at hd hopen
      simp only [Call.LoginOk, hin]
      exact agree_sessionClose s s' e d hs hd hclient hopen
  | sourceDirectoryUpdate =>
      simp only [hin, Input.loginEffect] at hd hopen
      rw [sendEncoded_notLogin _ _ _ _ d s.2 DomainType.noConfusion hd] at hopen
      simp only [Call.action, hin] at hlog htoken
      simp only [Call.LoginOk, hin, iff_true]
      exact agree_of_unchanged s s' hs hopen hlog htoken

/-- **The session's idea of its login agrees with the peer's throughout a run exactly when every
    call of the run meets `LoginOk`.** -/
theorem agree_iff (s₀ : LoginView) (p : Steps LoginView Call) (hrun : loginSystem.Run s₀ p) :
    Along (fun _ _ s' => Agree s') s₀ p ↔ Along (fun s e _ => Call.LoginOk s.1 e) s₀ p := by
  obtain ⟨⟨⟨handle, directoryToken, channel, now, hclient⟩, hopen⟩, hsteps⟩ := hrun
  have hinit : Agree s₀ := by
    rw [Agree, hopen, hclient]
    rfl
  exact along_iff _ (fun _ => True) Agree (fun s e => Call.LoginOk s.1 e)
    (fun _ _ _ _ _ => trivial) (fun s e s' _ hs h => agree_loginStep s e s' hs h) s₀ p trivial
    hinit hsteps

/-- Login and logout on one stream. -/
def plainSession : List Call :=
  [willingCall (.msg (loginByName 1)), willingCall (.msg (.plain .close .login 1))]

theorem plainSession_agree :
    ∃ p, replay loginStep (clearSession.client, ∅) plainSession = some p
      ∧ Along (fun _ _ s' => Agree s') (clearSession.client, ∅) p := by
  refine ⟨_, rfl, ?_⟩
  refine (agree_iff (clearSession.client, ∅) _ (run_replay _ loginStep
    (clearSession.client, ∅) plainSession _ ⟨clearSession_init, rfl⟩ rfl)).mpr ⟨?_, ?_, trivial⟩
  · exact fun _ => ⟨fun _ hin => absurd hin (by decide), fun _ hnone => absurd hnone (by decide)⟩
  · exact fun _ _ => rfl

/-- A second login request on the stream that is logged in, but without a user name. -/
def rejectedReissue : List Call :=
  [willingCall (.msg (loginByName 1)), willingCall (.msg (.plain .request .login 1))]

/-- The reject closes stream 1 at the peer, and the session still believes it is logged in on it. -/
theorem rejectedReissue_disagree :
    ∃ p, loginSystem.Run (clearSession.client, ∅) p
      ∧ replay loginStep (clearSession.client, ∅) rejectedReissue = some p
      ∧ (last (clearSession.client, ∅) p).1.isLoggedIn = true
      ∧ (last (clearSession.client, ∅) p).2 = ∅
      ∧ ¬ Agree (last (clearSession.client, ∅) p) :=
  ⟨_, run_replay _ loginStep (clearSession.client, ∅) rejectedReissue _
    ⟨clearSession_init, rfl⟩ rfl, rfl, rfl, by decide, by decide⟩

end Hitsuji
