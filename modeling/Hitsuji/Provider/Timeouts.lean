import Hitsuji.Provider.Removals

set_option autoImplicit false

/-! # What moves a deadline

A client is to be heard from before its `NextPong ()`. `Timeouts` is all this depends on: the
deadlines of the clients, the timeouts negotiated for their channels, and `last_activity_`. The
methods of a client leave it alone; `timing_exec` lists what the steps of the provider do to it.
Only a ping and a buffer that is not null move a deadline. -/

namespace Hitsuji

open ByteBuffer

/-! ## Methods -/

/-- The deadline of the client and the provider's clock are as they were. -/
structure Session.SameTimeouts (s s' : Session) : Prop where
  nextPong : s'.client.nextPong = s.client.nextPong
  lastActivity : s'.provider.lastActivity = s.provider.lastActivity

theorem sameTimeouts_submitOrRelease (env : Env) (s : Session) (out : Outgoing) :
    s.SameTimeouts (s.submitOrRelease env out).session := by
  rw [submitOrRelease_eq]
  cases env.writes.last <;> exact ⟨rfl, rfl⟩

theorem sameTimeouts_sendEncoded (env : Env) (s : Session) (response : RsslMsg)
    (steps : List EncodeStep) (d : Done) (h : s.sendEncoded env response steps = some d) :
    s.SameTimeouts d.session := by
  rcases sendEncoded_cases env s response steps d h with
    ⟨-, rfl⟩ | ⟨-, -, rfl⟩ | ⟨-, -, rfl⟩ | ⟨calls, -, -, rfl⟩
  · exact ⟨rfl, rfl⟩
  · exact ⟨rfl, rfl⟩
  · exact ⟨rfl, rfl⟩
  · exact sameTimeouts_submitOrRelease env s _

theorem sameTimeouts_onLoginRequest (env : Env) (s : Session) (m : InMsg) (d : Done)
    (h : s.onLoginRequest env m = some d) : s.SameTimeouts d.session := by
  rcases onLoginRequest_cases env s m d h with ⟨-, d', hd', rfl⟩ | ⟨-, hreject⟩
  · have hsent := sameTimeouts_sendEncoded _ _ _ _ d' hd'
    split
    · exact ⟨hsent.nextPong, hsent.lastActivity⟩
    · exact hsent
  · exact sameTimeouts_sendEncoded _ _ _ _ d hreject

theorem sameTimeouts_onCloseMsg (s : Session) (m : InMsg) :
    s.SameTimeouts (s.onCloseMsg m).session := by
  simp only [Session.onCloseMsg, Session.onItemClose]
  repeat' split
  all_goals exact ⟨rfl, rfl⟩

theorem sameTimeouts_onMsg (env : Env) (s : Session) (m : InMsg) (d : Done)
    (h : s.onMsg env m = some d) : s.SameTimeouts d.session := by
  rcases onMsg_cases env s m d h with ⟨-, -, hlogin⟩ | ⟨-, -, hdir⟩ | ⟨-, -, hitem⟩
    | ⟨-, -, -, text, htext⟩ | ⟨-, rfl⟩ | ⟨-, -, hclose⟩
  · exact sameTimeouts_onLoginRequest env s m d hlogin
  · obtain ⟨serviceName, hsend⟩ := onDirectoryRequest_cases env s m d hdir
    have hsent := sameTimeouts_sendEncoded _ _ _ _ d hsend
    exact ⟨hsent.nextPong, hsent.lastActivity⟩
  · rcases onItemRequest_cases env s m d hitem with ⟨-, hclose⟩ | ⟨-, -, rfl⟩ | ⟨-, -, -, rfl⟩
    · exact sameTimeouts_sendEncoded _ _ _ _ d hclose
    · exact ⟨rfl, rfl⟩
    · exact ⟨rfl, rfl⟩
  · exact sameTimeouts_sendEncoded _ _ _ _ d htext
  · exact sameTimeouts_onCloseMsg s m
  · exact sameTimeouts_sendEncoded _ _ _ _ d hclose

theorem sameTimeouts_sendReply (env : Env) (s : Session) (token : Int32) (data : Bytes) (d : Done)
    (h : s.sendReply env token data = some d) : s.SameTimeouts d.session := by
  rcases sendReply_cases env s token data d h with ⟨-, rfl⟩ | ⟨-, -, rfl⟩ | ⟨-, -, rfl⟩
  · exact ⟨rfl, rfl⟩
  · have hsent := sameTimeouts_submitOrRelease env (s.eraseToken token) (.reply token data)
    exact ⟨hsent.nextPong, hsent.lastActivity⟩
  · exact ⟨rfl, rfl⟩

theorem sameTimeouts_close (env : Env) (s : Session) (d : Done) (h : s.close env = some d) :
    s.SameTimeouts d.session := by
  unfold Session.close at h
  split at h
  · have hsent := sameTimeouts_sendEncoded _ _ _ _ d h
    exact ⟨hsent.nextPong, hsent.lastActivity⟩
  · obtain rfl := Option.some.inj h
    exact ⟨rfl, rfl⟩

/-! ## Deadlines -/

/-- `rsslReadEx` returned a ping or a buffer. -/
def ReadEx.defers : ReadEx → Bool
  | .ping | .data _ (some _) _ => true
  | _ => false

/-- What timeouts depend on. -/
structure Timeouts where
  /-- of the channels -/
  pingTimeout : UInt64 → Nat
  /-- of the clients that are stored -/
  nextPong : UInt64 → Option Nat
  lastActivity : Nat

namespace Pump

/-- The timeouts of a provider. -/
def timeouts (p : Pump) : Timeouts where
  pingTimeout c := (p.channels c).pingTimeout
  nextPong k := (p.clients k).map Client.nextPong
  lastActivity := p.view.lastActivity

/-- The channel that is read where `SetNextPong` comes next. -/
def defers (p : Pump) : Op → Option UInt64
  | .read i (.readEx ret _) => if ret.defers then p.reads i .active else none
  | _ => none

/-- The timeouts with another deadline. -/
def deferring (p : Pump) (c k : UInt64) : Timeouts :=
  { p.timeouts with
    nextPong := Function.update p.timeouts.nextPong k
      (some (p.view.lastActivity + (p.channels c).pingTimeout)) }

/-- The timeouts with another negotiated timeout. -/
def negotiated (p : Pump) (c : UInt64) (pingTimeout : Nat) (nextPong : Option Nat) : Timeouts :=
  { p.timeouts with
    pingTimeout := Function.update p.timeouts.pingTimeout c pingTimeout
    nextPong := Function.update p.timeouts.nextPong c nextPong }

/-- A step may do to the timeouts: -/
inductive Timing (p : Pump) (op : Op) (p' : Pump) : Prop where
  /-- nothing, -/
  | kept (hnobody : (p.defers op).bind p.pointee = none) (h : p'.timeouts = p.timeouts)
  /-- move the clock, -/
  | clock (now : Nat) (hop : op = .doWork now)
      (h : p'.timeouts = { p.timeouts with lastActivity := now })
  /-- add a channel, -/
  | accepted (a : Accepted) (hadmits : p.admits op.accepted = some a)
      (h : p'.timeouts = { p.timeouts with
        pingTimeout := Function.update p.timeouts.pingTimeout a.handle a.channel.pingTimeout })
  /-- activate a channel, with or without a client, -/
  | activated (c : UInt64) (pingTimeout : Nat) (nextPong : Option Nat)
      (hquiet : p.defers op = none) (hstate : (p.links c).state = .initializing)
      (h : p'.timeouts = p.negotiated c pingTimeout nextPong)
  /-- set a deadline, -/
  | deferred (c k : UInt64) (hdefers : p.defers op = some c) (hpointee : p.pointee c = some k)
      (h : p'.timeouts = p.deferring c k)
  /-- or remove clients. -/
  | removed (gone : UInt64 → Bool) (hquiet : p.defers op = none)
      (h : p'.timeouts = { p.timeouts with
        nextPong := fun k => if gone k then none else p.timeouts.nextPong k })

/-! ### What leaves them alone -/

theorem timeouts_leave (p : Pump) (c : UInt64) (left : Option Down) :
    (p.leave c left).timeouts = p.timeouts := by
  rw [leave_eq]
  rfl

/-- Writing a client. -/
theorem timeouts_setClient (p : Pump) (k : UInt64) (client : Option Client) :
    timeouts { p with clients := Function.update p.clients k client }
      = { p.timeouts with
        nextPong := Function.update p.timeouts.nextPong k (client.map Client.nextPong) } := by
  simp only [timeouts, Timeouts.mk.injEq, true_and, and_true]
  funext j
  exact Function.apply_update (fun _ => Option.map Client.nextPong) p.clients k client j

/-- Writing a member of a channel. -/
theorem timeouts_setChannel (p : Pump) (c : UInt64) (ch : Channel) :
    (p.setChannel c ch).timeouts
      = { p.timeouts with
        pingTimeout := Function.update p.timeouts.pingTimeout c ch.pingTimeout } := by
  simp only [timeouts, setChannel, Timeouts.mk.injEq, and_true]
  funext j
  exact Function.apply_update (fun _ => Channel.pingTimeout) p.channels c ch j

/-- A client that is written with the deadline it had. -/
theorem timeouts_rewrite (p : Pump) (k : UInt64) (client client' : Client)
    (hclient : p.clients k = some client) (hsame : client'.nextPong = client.nextPong) :
    timeouts { p with clients := Function.update p.clients k (some client') } = p.timeouts := by
  have hstored : p.timeouts.nextPong k = some client'.nextPong := by
    simp only [timeouts, hclient, hsame, Option.map_some]
  rw [timeouts_setClient, Option.map_some, ← hstored, Function.update_eq_self]

theorem timeouts_modifyClient (p p' : Pump) (c : UInt64) (f : Client → Client)
    (h : p.modifyClient c f = some p') (hf : ∀ client, (f client).nextPong = client.nextPong) :
    p'.timeouts = p.timeouts := by
  unfold modifyClient at h
  split at h
  · obtain rfl := Option.some.inj h
    rfl
  · obtain ⟨k, -, hk⟩ := Option.bind_eq_some_iff.mp h
    obtain ⟨client, hclient, rfl⟩ := Option.map_eq_some_iff.mp hk
    exact timeouts_rewrite p k client (f client) hclient (hf client)

theorem timeouts_afterMethod (p : Pump) (k : UInt64) (client : Client) (d : Done)
    (left : Option Down) (hclient : p.clients k = some client)
    (hd : (p.session k client).SameTimeouts d.session) :
    (p.afterMethod k d left).timeouts = p.timeouts := by
  have hstored := timeouts_rewrite p k client d.session.client hclient hd.nextPong
  rw [afterMethod, timeouts_leave]
  simp only [timeouts, Provider.absorb, Timeouts.mk.injEq, true_and]
  exact ⟨congrArg Timeouts.nextPong hstored, hd.lastActivity⟩

theorem timeouts_onMsg (p : Pump) (c : UInt64) (msg : Option InMsg) (env : Env)
    (left : Option Down) (h : Handled) (hrun : p.onMsg c msg env left = some h) :
    h.pump.timeouts = p.timeouts := by
  cases msg with
  | none =>
      obtain rfl := Option.some.inj hrun
      rfl
  | some m =>
      obtain ⟨k, -, hk⟩ := Option.bind_eq_some_iff.mp hrun
      obtain ⟨client, hclient, hmethod⟩ := Option.bind_eq_some_iff.mp hk
      obtain ⟨d, hd, rfl⟩ := Option.map_eq_some_iff.mp hmethod
      have hsame := timeouts_afterMethod p k client d left hclient (sameTimeouts_onMsg _ _ _ d hd)
      simp only
      split <;> exact hsame

theorem timeouts_ping (p : Pump) (c : UInt64) (rc : RsslRet) (left : Option Down) (h : Handled)
    (hrun : p.ping c rc left = some h) : h.pump.timeouts = p.timeouts := by
  unfold ping at hrun
  split at hrun
  · obtain ⟨p', hp', rfl⟩ := Option.map_eq_some_iff.mp hrun
    exact timeouts_modifyClient p p' c _ hp' fun _ => rfl
  all_goals
    obtain rfl := Option.some.inj hrun
    exact timeouts_leave _ c left

theorem timeouts_keepalive (p : Pump) (c : UInt64) (rc : RsslRet) (left : Option Down) (h : Handled)
    (hrun : p.keepalive c rc left = some h) : h.pump.timeouts = p.timeouts := by
  unfold keepalive at hrun
  split at hrun
  · obtain ⟨client, -, hclient⟩ := Option.bind_eq_some_iff.mp hrun
    obtain ⟨h₁, hping, rfl⟩ := Option.map_eq_some_iff.mp hclient
    have hsame : h₁.pump.timeouts = p.timeouts := by
      split at hping
      · exact timeouts_ping p c rc left h₁ hping
      · obtain rfl := Option.some.inj hping
        rfl
    split <;> exact hsame
  · obtain rfl := Option.some.inj hrun
    rfl

theorem timeouts_onCanWrite (p : Pump) (c : UInt64) (rc : RsslRet) (left : Option Down)
    (h : Handled) (hrun : p.onCanWrite c rc left = some h) : h.pump.timeouts = p.timeouts := by
  unfold onCanWrite at hrun
  split at hrun
  · obtain ⟨p', hp', rfl⟩ := Option.map_eq_some_iff.mp hrun
    exact timeouts_modifyClient (p.clearPending c) p' c _ hp' fun _ => rfl
  · obtain rfl := Option.some.inj hrun
    exact timeouts_leave p c left

theorem timeouts_onReplySocket (p : Pump) (env : Env) (z : ReadEnv) (msg : Bytes)
    (left : Option Down) (h : Handled) (hrun : p.onReplySocket env z msg left = some h) :
    h.pump.timeouts = p.timeouts := by
  obtain ⟨⟨q, events⟩, hread, rfl⟩ := Option.map_eq_some_iff.mp hrun
  refine (timeouts_leave _ _ _).trans ?_
  obtain ⟨out, ⟨rfl, -⟩ | ⟨view, client, d, -, -, hclient, hd, rfl, -⟩⟩ :=
    onReplySocket_cases env z p.toProvider q msg events hread
  · rfl
  · exact timeouts_afterMethod p view.handle client d none hclient
      (sameTimeouts_sendReply _ _ _ _ d hd)

theorem timeouts_directoryUpdate (p : Pump) (c : UInt64) (env : Env) (left : Option Down)
    (h : Handled) (hrun : p.directoryUpdate c env left = some h) :
    h.pump.timeouts = p.timeouts := by
  obtain ⟨client, hclient, hupdate⟩ := Option.bind_eq_some_iff.mp hrun
  obtain ⟨d, hd, rfl⟩ := Option.map_eq_some_iff.mp hupdate
  exact timeouts_afterMethod p c client d left hclient (sameTimeouts_sendEncoded _ _ _ _ d hd)

theorem timeouts_flushStream (p : Pump) (c : UInt64) (loop : FlushLoop) (left : Option Down) :
    (p.flushStream c loop left).pump.timeouts = p.timeouts := by
  unfold flushStream
  split
  · split
    · refine (timeouts_setClient (p.clearPending c) c _).trans ?_
      rw [Option.map_map]
      exact congrArg (Timeouts.mk _ · _) (Function.update_eq_self c _)
    · exact timeouts_leave p c left
  · rfl

theorem timeouts_notify (p : Pump) (c : UInt64) (env : Env) (left : Option Down) (loop : FlushLoop)
    (leftByFlush : Option Down) (h : Handled)
    (hrun : p.notify c env left loop leftByFlush = some h) : h.pump.timeouts = p.timeouts := by
  obtain ⟨client, hclient, hclose⟩ := Option.bind_eq_some_iff.mp hrun
  obtain ⟨d, hd, rfl⟩ := Option.map_eq_some_iff.mp hclose
  exact (timeouts_flushStream _ c loop leftByFlush).trans
    (timeouts_afterMethod p c client d left hclient (sameTimeouts_close _ _ d hd))

/-! ### What changes them -/

theorem timeouts_setNextPong (p p' : Pump) (c : UInt64) (h : p.setNextPong c = some p') :
    p.pointee c = none ∧ p'.timeouts = p.timeouts
      ∨ ∃ k, p.pointee c = some k ∧ p'.timeouts = p.deferring c k := by
  unfold setNextPong modifyClient at h
  split at h
  · next hnull =>
      obtain rfl := Option.some.inj h
      exact .inl ⟨by rw [pointee, hnull, Option.bind_none], rfl⟩
  · obtain ⟨k, hpointee, hk⟩ := Option.bind_eq_some_iff.mp h
    obtain ⟨client, -, rfl⟩ := Option.map_eq_some_iff.mp hk
    refine .inr ⟨k, hpointee, ?_⟩
    exact timeouts_setClient p k _

/-- What does not touch the timeouts defers the same. -/
theorem deferring_congr (p q : Pump) (c k : UInt64) (h : q.timeouts = p.timeouts) :
    q.deferring c k = p.deferring c k := by
  have hlast : q.view.lastActivity = p.view.lastActivity := congrArg Timeouts.lastActivity h
  have htimeout : (q.channels c).pingTimeout = (p.channels c).pingTimeout :=
    congrFun (congrArg Timeouts.pingTimeout h) c
  rw [deferring, deferring, h, hlast, htimeout]

theorem timeouts_onReadEx (p : Pump) (c : UInt64) (ret : ReadEx) (h : Handled)
    (hrun : p.onReadEx c ret = some h) :
    (ret.defers = false ∨ p.pointee c = none) ∧ h.pump.timeouts = p.timeouts
      ∨ ret.defers = true ∧ ∃ k, p.pointee c = some k ∧ h.pump.timeouts = p.deferring c k := by
  cases ret with
  | congestionDetected | slowReader | packetGapDetected =>
      obtain rfl := Option.some.inj hrun
      refine .inl ⟨.inl rfl, ?_⟩
      unfold checkClosedState
      split <;> rfl
  | fdChange newSocket =>
      obtain rfl := Option.some.inj hrun
      refine .inl ⟨.inl rfl, (timeouts_setChannel _ c _).trans ?_⟩
      exact congrArg (Timeouts.mk · _ _) (Function.update_eq_self c _)
  | failure =>
      obtain rfl := Option.some.inj hrun
      exact .inl ⟨.inl rfl, rfl⟩
  | ping =>
      obtain ⟨p', hp', rfl⟩ := Option.map_eq_some_iff.mp hrun
      rcases timeouts_setNextPong p p' c hp' with ⟨hnobody, hsame⟩ | hdeferred
      · exact .inl ⟨.inr hnobody, hsame⟩
      · exact .inr ⟨rfl, hdeferred⟩
  | data positive buf left =>
      obtain ⟨h₁, hbuf, rfl⟩ := Option.map_eq_some_iff.mp hrun
      have hagain : (if positive then { h₁ with pump := h₁.pump.readAgain c } else h₁).pump.timeouts
          = h₁.pump.timeouts := by
        cases positive <;> rfl
      rw [hagain]
      cases buf with
      | none =>
          obtain rfl := Option.some.inj hbuf
          exact .inl ⟨.inl rfl, rfl⟩
      | some buf =>
          obtain ⟨h₂, hmsg, hpong⟩ := Option.bind_eq_some_iff.mp hbuf
          obtain ⟨p', hp', rfl⟩ := Option.map_eq_some_iff.mp hpong
          have hsame := timeouts_onMsg p c buf.1 buf.2 left h₂ hmsg
          have hpointee := pointee_of_books (serves_onMsg p c buf.1 buf.2 left h₂ hmsg).books c
          rw [← hsame, ← hpointee]
          rcases timeouts_setNextPong h₂.pump p' c hp' with ⟨hnobody, hkept⟩ | ⟨k, hk, hdeferred⟩
          · exact .inl ⟨.inr hnobody, hkept⟩
          · exact .inr ⟨rfl, k, hk, hdeferred.trans (deferring_congr p h₂.pump c k hsame)⟩

theorem timeouts_activate (p : Pump) (c : UInt64) (majorVersion minorVersion : UInt8)
    (pingTimeout : Nat) :
    (p.activate c majorVersion minorVersion pingTimeout).timeouts
      = p.negotiated c pingTimeout (p.timeouts.nextPong c) := by
  rw [negotiated, Function.update_eq_self]
  exact timeouts_setChannel p c _

theorem timeouts_acceptClientSession (p : Pump) (c : UInt64) (address : Nat)
    (directoryToken : Int32) :
    ∃ nextPong, (p.acceptClientSession c address directoryToken).timeouts
      = { p.timeouts with nextPong := Function.update p.timeouts.nextPong c nextPong } := by
  let client := (p.clients c).getD
    (.initial c directoryToken (p.channels c) p.view.lastActivity)
  refine ⟨client.nextPong, ?_⟩
  rw [acceptClientSession, Provider.acceptClientSession, Function.update_eq_self]
  exact timeouts_setClient p c (some client)

theorem timeouts_onActiveClientSession (p : Pump) (c : UInt64) (session : NewSession) (left : Down)
    (h : Handled) (hrun : p.onActiveClientSession c session left = some h) :
    ∃ nextPong, h.pump.timeouts
      = { p.timeouts with nextPong := Function.update p.timeouts.nextPong c nextPong } := by
  have hsame : h.pump.timeouts = p.timeouts → ∃ nextPong, h.pump.timeouts
      = { p.timeouts with nextPong := Function.update p.timeouts.nextPong c nextPong } := by
    intro hsame
    exact ⟨p.timeouts.nextPong c, by rw [hsame, Function.update_eq_self]⟩
  unfold onActiveClientSession at hrun
  split at hrun
  · obtain rfl := Option.some.inj hrun
    exact hsame (timeouts_leave p c (some left))
  · cases session with
    | thrown =>
        obtain rfl := Option.some.inj hrun
        exact hsame rfl
    | uninitialized =>
        obtain rfl := Option.some.inj hrun
        exact hsame (timeouts_leave p c (some left))
    | initialized address directoryToken emplaced =>
        obtain ⟨-, hrun⟩ := Option.ite_none_left_eq_some.mp hrun
        obtain rfl := Option.some.inj hrun
        cases emplaced with
        | false => exact hsame rfl
        | true => exact timeouts_acceptClientSession _ c address directoryToken

theorem timeouts_onInitializingState (p : Pump) (c : UInt64) (ret : InitChannel)
    (session : NewSession) (left : Down) (h : Handled)
    (hrun : p.onInitializingState c ret session left = some h) :
    ∃ pingTimeout nextPong, h.pump.timeouts = p.negotiated c pingTimeout nextPong := by
  have hsame : h.pump.timeouts = p.timeouts →
      ∃ pingTimeout nextPong, h.pump.timeouts = p.negotiated c pingTimeout nextPong := by
    intro hsame
    refine ⟨p.timeouts.pingTimeout c, p.timeouts.nextPong c, ?_⟩
    rw [hsame, negotiated, Function.update_eq_self, Function.update_eq_self]
  cases ret with
  | inProgress newSocket =>
      cases newSocket with
      | none =>
          obtain rfl := Option.some.inj hrun
          exact hsame rfl
      | some newSocket =>
          obtain rfl := Option.some.inj hrun
          refine hsame ((timeouts_setChannel p c _).trans ?_)
          exact congrArg (Timeouts.mk · _ _) (Function.update_eq_self c _)
  | failure left =>
      obtain rfl := Option.some.inj hrun
      exact hsame (timeouts_leave p c left)
  | success majorVersion minorVersion pingTimeout =>
      obtain ⟨h₁, hsession, rfl⟩ := Option.map_eq_some_iff.mp hrun
      obtain ⟨nextPong, hpong⟩ := timeouts_onActiveClientSession _ c session left h₁ hsession
      refine ⟨pingTimeout, nextPong, ?_⟩
      change h₁.pump.timeouts = _
      rw [hpong, timeouts_activate, negotiated, negotiated, Function.update_eq_self]

/-! ### Every step -/

/-- Nothing is read from a channel that is not ready or not in that state. -/
theorem reads_eq_none (p : Pump) (i : Nat) (state : ChannelState) (c : UInt64)
    (hc : p.connections[i]? = some c)
    (hnot : p.socketId c ∈ p.outRfds → (p.links c).state ≠ state) : p.reads i state = none := by
  rw [reads, hc]
  refine Option.filter_eq_none_iff.mpr fun d hd => ?_
  obtain rfl := Option.some.inj hd
  rw [decide_eq_true_eq]
  exact fun h => hnot h.1 h.2

theorem timing_of_quiet (p : Pump) (op : Op) (p' : Pump) (hquiet : p.defers op = none)
    (h : p'.timeouts = p.timeouts) : p.Timing op p' :=
  .kept (by rw [hquiet, Option.bind_none]) h

theorem timing_read (p : Pump) (i : Nat) (answer : ReadAnswer) (h : Handled)
    (hrun : p.exec (.read i answer) = some h) : p.Timing (.read i answer) h.pump := by
  obtain ⟨c, hc, hread⟩ := Option.bind_eq_some_iff.mp hrun
  have hidle : (p.socketId c ∈ p.outRfds → (p.links c).state ≠ .active) →
      p.defers (.read i answer) = none := by
    intro hnot
    cases answer with
    | readEx ret left => simp [defers, p.reads_eq_none i .active c hc hnot]
    | nothing | initChannel => rfl
  split at hread
  · next hready =>
      unfold onCanRead at hread
      split at hread
      case h_1 hstate =>
        obtain rfl := Option.some.inj hread
        exact timing_of_quiet p _ _ (hidle fun _ => hstate ▸ nofun) rfl
      case h_2 ret session left hstate =>
        obtain ⟨pingTimeout, nextPong, htimes⟩ :=
          timeouts_onInitializingState _ c ret session left h hread
        exact .activated c pingTimeout nextPong rfl hstate htimes
      case h_3 ret left hstate =>
        let q := (p.clearRead (p.socketId c)).leave c left
        have hq : q.timeouts = p.timeouts := timeouts_leave _ c left
        have hpointee : q.pointee c = p.pointee c := pointee_of_books (books_leave _ c left) c
        have hreads : p.reads i .active = some c :=
          (p.reads_eq_some i .active c).mpr ⟨⟨hc, hready⟩, hstate⟩
        rcases timeouts_onReadEx q c ret h hread with ⟨hnobody, hkept⟩ | ⟨hdefers, k, hk, hdeferred⟩
        · refine .kept ?_ (hkept.trans hq)
          rw [defers, hreads]
          rcases hnobody with hquiet | hnull
          · rw [hquiet]
            rfl
          · split
            · rw [Option.bind_some, ← hpointee, hnull]
            · rfl
        · refine .deferred c k ?_ (hpointee ▸ hk) (hdeferred.trans (deferring_congr p q c k hq))
          rw [defers, if_pos hdefers, hreads]
      case h_4 hstate =>
        obtain rfl := Option.some.inj hread
        exact timing_of_quiet p _ _ (hidle fun _ => hstate ▸ nofun) rfl
      case h_5 code hstate =>
        obtain rfl := Option.some.inj hread
        exact timing_of_quiet p _ _ (hidle fun _ => hstate ▸ nofun) rfl
      case h_6 => exact absurd hread (by simp)
  · next hready =>
      obtain rfl := Option.some.inj hread
      exact timing_of_quiet p _ _ (hidle fun h => absurd h hready) rfl

theorem timing_connection (p : Pump) (accepted : Option Accepted) (h : Handled)
    (hrun : p.exec (.connection accepted) = some h) : p.Timing (.connection accepted) h.pump := by
  obtain ⟨listening, hsock, rfl⟩ := Option.map_eq_some_iff.mp hrun
  split
  · next hready =>
      unfold onConnection
      split
      · exact timing_of_quiet p _ _ rfl rfl
      · next hroom =>
          rw [not_or, Bool.not_eq_false] at hroom
          cases accepted with
          | none => exact timing_of_quiet p _ _ rfl rfl
          | some a =>
              have hserver : p.serverReady = true := by simp [serverReady, hsock, hready]
              refine .accepted a (if_pos ⟨hserver, hroom⟩) ?_
              exact timeouts_setChannel (p.clearRead listening) a.handle a.channel
  · exact timing_of_quiet p _ _ rfl rfl

theorem timing_disconnect (p : Pump) (i : Nat) (left : Down) (h : Handled)
    (hrun : p.exec (.disconnect i left) = some h) : p.Timing (.disconnect i left) h.pump := by
  obtain ⟨c, -, hdisconnect⟩ := Option.bind_eq_some_iff.mp hrun
  obtain rfl := Option.some.inj hdisconnect
  split
  · refine .removed (fun k => decide (k = c)) rfl ?_
    rw [disconnect_eq]
    simp only [timeouts, Timeouts.mk.injEq]
    refine ⟨rfl, ?_, rfl⟩
    funext k
    by_cases hk : k = c
    · subst hk
      simp [remove, unwatch, Provider.disconnect]
    · simp [remove, unwatch, Provider.disconnect, hk]
  · exact timing_of_quiet p _ _ rfl rfl

/-- **What a step does to the deadlines.** -/
theorem timing_exec (p : Pump) (op : Op) (h : Handled) (hrun : p.exec op = some h) :
    p.Timing op h.pump := by
  cases op with
  | start =>
      obtain ⟨listening, -, rfl⟩ := Option.map_eq_some_iff.mp hrun
      exact timing_of_quiet p _ _ rfl rfl
  | doWork now =>
      obtain rfl := Option.some.inj hrun
      exact .clock now rfl rfl
  | reply env z msg left =>
      simp only [exec] at hrun
      split at hrun
      · exact timing_of_quiet p _ _ rfl (timeouts_onReplySocket p env z msg left h hrun)
      · obtain rfl := Option.some.inj hrun
        exact timing_of_quiet p _ _ rfl rfl
  | connection accepted => exact timing_connection p accepted h hrun
  | read i answer => exact timing_read p i answer h hrun
  | write i rc left =>
      obtain ⟨c, -, hwrite⟩ := Option.bind_eq_some_iff.mp hrun
      split at hwrite
      · exact timing_of_quiet p _ _ rfl (timeouts_onCanWrite
          { p with outWfds := p.outWfds.erase (p.socketId c) } c rc left h hwrite)
      · obtain rfl := Option.some.inj hwrite
        exact timing_of_quiet p _ _ rfl rfl
  | keepalive i rc left =>
      obtain ⟨c, -, hkeep⟩ := Option.bind_eq_some_iff.mp hrun
      exact timing_of_quiet p _ _ rfl (timeouts_keepalive p c rc left h hkeep)
  | disconnect i left => exact timing_disconnect p i left h hrun
  | returns | throw | close =>
      obtain rfl := Option.some.inj hrun
      exact timing_of_quiet p _ _ rfl rfl
  | select n rfds wfds efds =>
      obtain ⟨-, hselect⟩ := Option.ite_none_right_eq_some.mp hrun
      obtain rfl := Option.some.inj hselect
      exact timing_of_quiet p _ _ rfl rfl
  | directoryUpdate c env left =>
      exact timing_of_quiet p _ _ rfl (timeouts_directoryUpdate p c env left h hrun)
  | drain =>
      simp only [exec] at hrun
      split at hrun
      · obtain ⟨listening, -, rfl⟩ := Option.map_eq_some_iff.mp hrun
        exact timing_of_quiet p _ _ rfl rfl
      · obtain rfl := Option.some.inj hrun
        exact timing_of_quiet p _ _ rfl rfl
  | notify c env left loop leftByFlush =>
      exact timing_of_quiet p _ _ rfl (timeouts_notify p c env left loop leftByFlush h hrun)
  | teardown left =>
      obtain rfl := Option.some.inj hrun
      refine .removed (fun _ => true) rfl ?_
      simp only [teardown]
      rw [closeConnections_eq]
      rfl

end Pump

end Hitsuji
