import Hitsuji.Provider.Books

set_option autoImplicit false

/-! # Everything a step can do

`exec_cases`: a step serves a session, or it is one of the changes to the books listed in
`Change`. -/

namespace Hitsuji

open ByteBuffer

namespace Pump

/-- A channel was flushed: it is no longer marked as pending. -/
structure Flushes (p : Pump) (c : UInt64) (p' : Pump) : Prop where
  books : p'.books = p.books
  state : StateKept p p'
  wfds : p'.view.inWfds = p.view.inWfds.erase (p.socketId c)

/-- The channel `c` at position `i` is being read. -/
structure Reading (p : Pump) (i : Nat) (c : UInt64) : Prop where
  position : p.connections[i]? = some c
  ready : p.socketId c ∈ p.outRfds

/-- The provider takes no new session. -/
def Refuses (p : Pump) : Prop :=
  p.isAcceptingConnections = false ∨ p.sessions.length = p.sessionCapacity

instance (p : Pump) : Decidable p.Refuses :=
  inferInstanceAs (Decidable (_ ∨ _))

/-- A handler may do to the books: -/
inductive Change (p : Pump) : Op → Handled → Prop where
  /-- nothing, -/
  | serves (op : Op) (h : Handled) (hserves : p.Serves h) : Change p op h
  /-- start the interest sets afresh, -/
  | reset (op : Op) (listening : Nat) (hop : op = .start ∨ op = .drain ∧ p.mustDrain = true)
      (hsock : p.rsslSock = some listening) : Change p op ⟨p.resetInterest listening, []⟩
  /-- add a connection, -/
  | accepted (a : Accepted) (listening : Nat) (hsock : p.rsslSock = some listening)
      (hready : listening ∈ p.outRfds) (haccepting : p.isAcceptingConnections = true)
      (hroom : p.connections.length ≠ p.sessionCapacity) :
      Change p (.connection (some a)) ((p.clearRead listening).acceptConnection (some a))
  /-- move an initialising channel to another socket, -/
  | downgraded (i : Nat) (c : UInt64) (newSocket : Nat) (session : NewSession) (left : Down)
      (hreading : p.Reading i c) (hstate : (p.links c).state = .initializing) :
      Change p (.read i (.initChannel (.inProgress (some newSocket)) session left))
        ⟨(((p.clearRead (p.socketId c)).downgrade c newSocket).unwatch (p.socketId c)).watch
          newSocket, []⟩
  /-- activate a channel and reject its session, -/
  | rejected (i : Nat) (c : UInt64) (majorVersion minorVersion : UInt8) (pingTimeout : Nat)
      (session : NewSession) (left : Down) (hreading : p.Reading i c)
      (hstate : (p.links c).state = .initializing)
      (hreject : p.Refuses ∨ session = .uninitialized) :
      Change p
        (.read i (.initChannel (.success majorVersion minorVersion pingTimeout) session left))
        ⟨(((p.clearRead (p.socketId c)).activate c majorVersion minorVersion pingTimeout).leave c
          (some left)).watch (p.socketId c), [.closeChannel c]⟩
  /-- or be interrupted by an exception, -/
  | threw (i : Nat) (c : UInt64) (majorVersion minorVersion : UInt8) (pingTimeout : Nat)
      (left : Down) (hreading : p.Reading i c) (hstate : (p.links c).state = .initializing)
      (haccept : ¬ p.Refuses) :
      Change p
        (.read i (.initChannel (.success majorVersion minorVersion pingTimeout) .thrown left))
        ⟨((p.clearRead (p.socketId c)).activate c majorVersion minorVersion pingTimeout).watch
          (p.socketId c), []⟩
  /-- or make the session, -/
  | opened (i : Nat) (c : UInt64) (majorVersion minorVersion : UInt8) (pingTimeout : Nat)
      (address : Nat) (directoryToken : Int32) (emplaced : Bool) (left : Down) (q : Pump)
      (hreading : p.Reading i c) (hstate : (p.links c).state = .initializing)
      (haccept : ¬ p.Refuses) (hfresh : address ∉ p.sessions.map Prod.snd)
      (hq : q = ((p.clearRead (p.socketId c)).activate c majorVersion minorVersion
        pingTimeout).setLink c ⟨.active, (p.links c).oldSocketId, some address⟩) :
      Change p (.read i (.initChannel (.success majorVersion minorVersion pingTimeout)
          (.initialized address directoryToken emplaced) left))
        ⟨(if emplaced then q.acceptClientSession c address directoryToken else q).watch
          (p.socketId c), []⟩
  /-- move an active channel to another socket, -/
  | reconnected (i : Nat) (c : UInt64) (newSocket : Nat) (left : Option Down)
      (hreading : p.Reading i c) (hstate : (p.links c).state = .active) :
      Change p (.read i (.readEx (.fdChange newSocket) left))
        ⟨(((p.clearRead (p.socketId c)).leave c left).reconnect c newSocket).onFdChange c, []⟩
  /-- treat a closed channel as if it had moved, -/
  | fellThrough (i : Nat) (c : UInt64) (ret : ReadEx) (left : Option Down)
      (hreading : p.Reading i c) (hstate : (p.links c).state = .active) :
      Change p (.read i (.readEx ret left))
        ⟨((p.clearRead (p.socketId c)).leave c left).onFdChange c, []⟩
  /-- flush a channel, -/
  | flushed (i : Nat) (c : UInt64) (left : Option Down) (p' : Pump)
      (hc : p.connections[i]? = some c) (hready : p.socketId c ∈ p.outWfds)
      (hflushes : p.Flushes c p') :
      Change p (.write i .success left) ⟨p', [.flush c .success]⟩
  /-- remove a connection, -/
  | disconnected (i : Nat) (c : UInt64) (left : Down) (hc : p.connections[i]? = some c)
      (hefds : p.socketId c ∈ p.outEfds) :
      Change p (.disconnect i left) (p.disconnect i c left)
  /-- stop accepting, -/
  | closing : Change p .close ⟨{ p with
      isAcceptingConnections := false
      view := { p.view with isAcceptingRequests := false } }, []⟩
  /-- serve a session its close and flush it, -/
  | notified (c : UInt64) (env : Env) (left leftByFlush : Option Down) (loop : FlushLoop)
      (h : Handled) (p' : Pump) (hclient : (p.clients c).isSome = true) (hserves : p.Serves h)
      (hflushed : loop.flushed = true) (hflushes : h.pump.Flushes c p') :
      Change p (.notify c env left loop leftByFlush) ⟨p', h.calls ++ flushCalls c loop⟩
  /-- or close everything. -/
  | tornDown (left : UInt64 → Down) : Change p (.teardown left) (p.teardown left)

/-! ## Sockets and sessions -/

/-- Activating a channel moves no socket. -/
theorem socketId_activate (p : Pump) (c : UInt64) (majorVersion minorVersion : UInt8)
    (pingTimeout : Nat) (k : UInt64) :
    (p.activate c majorVersion minorVersion pingTimeout).socketId k = p.socketId k := by
  by_cases hk : k = c
  · subst hk
    simp only [socketId, activate, setLink, setChannel, Function.update_self]
  · simp only [socketId, activate, setLink, setChannel, Function.update_of_ne hk]

/-- Nor does making a session. -/
theorem socketId_acceptClientSession (p : Pump) (c : UInt64) (address : Nat)
    (directoryToken : Int32) (k : UInt64) :
    (p.acceptClientSession c address directoryToken).socketId k = p.socketId k := by
  simp only [socketId, acceptClientSession, Provider.acceptClientSession, Function.update_eq_self]

/-! ## One handler at a time -/

/-- What reading the connection at the iterator comes to. -/
theorem exec_reading (p : Pump) (i : Nat) (c : UInt64) (answer : ReadAnswer) (h : Handled)
    (hreading : p.Reading i c) (hrun : p.exec (.read i answer) = some h) :
    (p.clearRead (p.socketId c)).onCanRead c answer = some h := by
  obtain ⟨d, hd, hread⟩ := Option.bind_eq_some_iff.mp hrun
  obtain rfl := Option.some.inj (hreading.position.symm.trans hd)
  rwa [if_pos hreading.ready] at hread

/-- `rsslInitChannel` makes the channel being read active: its session comes next. -/
theorem exec_activates (p : Pump) (i : Nat) (c : UInt64) (majorVersion minorVersion : UInt8)
    (pingTimeout : Nat) (session : NewSession) (left : Down) (h : Handled)
    (hreading : p.Reading i c) (hstate : (p.links c).state = .initializing)
    (hrun : p.exec (.read i
      (.initChannel (.success majorVersion minorVersion pingTimeout) session left)) = some h) :
    ∃ h₁, ((p.clearRead (p.socketId c)).activate c majorVersion minorVersion
        pingTimeout).onActiveClientSession c session left = some h₁
      ∧ h = { h₁ with pump := h₁.pump.watch (h₁.pump.socketId c) } := by
  have hread := p.exec_reading i c _ h hreading hrun
  have hinit : ((p.clearRead (p.socketId c)).links c).state = .initializing := hstate
  unfold onCanRead at hread
  simp only [hinit] at hread
  obtain ⟨h₁, hsession, rfl⟩ := Option.map_eq_some_iff.mp hread
  exact ⟨h₁, hsession, rfl⟩

theorem onConnection_cases (p : Pump) (listening : Nat) (accepted : Option Accepted)
    (hsock : p.rsslSock = some listening) (hready : listening ∈ p.outRfds) :
    Change p (.connection accepted) ((p.clearRead listening).onConnection accepted) := by
  unfold onConnection
  split
  · cases accepted with
    | none => exact .serves _ _ (serves_clearRead p listening)
    | some a => exact .serves _ _ (serves_call p _ _ (serves_clearRead p listening) trivial)
  · next hroom =>
      rw [not_or, Bool.not_eq_false] at hroom
      cases accepted with
      | none => exact .serves _ _ (serves_clearRead p listening)
      | some a => exact .accepted a listening hsock hready hroom.1 hroom.2

theorem onInitializingState_cases (p : Pump) (i : Nat) (c : UInt64) (ret : InitChannel)
    (session : NewSession) (left : Down) (hreading : p.Reading i c)
    (hstate : (p.links c).state = .initializing) (h : Handled)
    (hrun : (p.clearRead (p.socketId c)).onInitializingState c ret session left = some h) :
    Change p (.read i (.initChannel ret session left)) h := by
  cases ret with
  | inProgress newSocket =>
      cases newSocket with
      | none =>
          obtain rfl := Option.some.inj hrun
          exact .serves _ _ (serves_clearRead p _)
      | some newSocket =>
          obtain rfl := Option.some.inj hrun
          exact .downgraded i c newSocket session left hreading hstate
  | failure l =>
      obtain rfl := Option.some.inj hrun
      exact .serves _ _ (serves_before p _ _ (serves_clearRead p _) (serves_leave _ c l))
  | success majorVersion minorVersion pingTimeout =>
      obtain ⟨h₁, hsession, rfl⟩ := Option.map_eq_some_iff.mp hrun
      let q := (p.clearRead (p.socketId c)).activate c majorVersion minorVersion pingTimeout
      have hsocket : q.socketId c = p.socketId c := socketId_activate _ c _ _ _ c
      have hwatch : ∀ q' : Pump, q'.socketId c = p.socketId c →
          q'.watch (q'.socketId c) = q'.watch (p.socketId c) := fun q' h => by rw [h]
      unfold onActiveClientSession at hsession
      split at hsession
      · next hrefuse =>
          obtain rfl := Option.some.inj hsession
          rw [hwatch (q.closeChannel c left).pump hsocket]
          exact .rejected i c _ _ _ session left hreading hstate (.inl hrefuse)
      · next haccept =>
          cases session with
          | thrown =>
              obtain rfl := Option.some.inj hsession
              rw [hwatch _ hsocket]
              exact .threw i c _ _ _ left hreading hstate haccept
          | uninitialized =>
              obtain rfl := Option.some.inj hsession
              rw [hwatch (q.closeChannel c left).pump hsocket]
              exact .rejected i c _ _ _ _ left hreading hstate (.inr rfl)
          | initialized address directoryToken emplaced =>
              obtain ⟨hfresh, hsession⟩ := Option.ite_none_left_eq_some.mp hsession
              obtain rfl := Option.some.inj hsession
              have hlink : { q.links c with userSpecPtr := some address }
                  = (⟨.active, (p.links c).oldSocketId, some address⟩ : Link) := by
                simp only [q, activate, setLink, Function.update_self]
                rfl
              rw [hlink, hwatch]
              · exact .opened i c _ _ _ address directoryToken emplaced left _ hreading hstate
                  haccept hfresh rfl
              · split
                · rw [socketId_acceptClientSession]
                  exact hsocket
                · exact hsocket

theorem onReadEx_cases (p : Pump) (i : Nat) (c : UInt64) (ret : ReadEx) (left : Option Down)
    (hreading : p.Reading i c) (hstate : (p.links c).state = .active) (h : Handled)
    (hrun : ((p.clearRead (p.socketId c)).leave c left).onReadEx c ret = some h) :
    Change p (.read i (.readEx ret left)) h := by
  have hleave : p.Serves ⟨(p.clearRead (p.socketId c)).leave c left, []⟩ :=
    serves_before p _ _ (serves_clearRead p _) (serves_leave _ c left)
  cases ret with
  | congestionDetected | slowReader | packetGapDetected =>
      obtain rfl := Option.some.inj hrun
      unfold checkClosedState
      split
      · exact .fellThrough i c _ left hreading hstate
      · exact .serves _ _ hleave
  | fdChange newSocket =>
      obtain rfl := Option.some.inj hrun
      exact .reconnected i c newSocket left hreading hstate
  | ping =>
      obtain ⟨p', hp', rfl⟩ := Option.map_eq_some_iff.mp hrun
      exact .serves _ _ (serves_before p _ _ hleave (serves_setNextPong _ p' c hp'))
  | failure =>
      obtain rfl := Option.some.inj hrun
      exact .serves _ _ hleave
  | data positive buf left =>
      obtain ⟨h₁, hbuf, rfl⟩ := Option.map_eq_some_iff.mp hrun
      have hserves := serves_before p _ _ hleave (serves_onBuffer _ c buf left h₁ hbuf)
      split
      · exact .serves _ _ (serves_after p _ h₁ hserves (serves_of_eq _ _ rfl rfl rfl))
      · exact .serves _ _ hserves

theorem read_cases (p : Pump) (i : Nat) (answer : ReadAnswer) (h : Handled)
    (hrun : p.exec (.read i answer) = some h) : Change p (.read i answer) h := by
  obtain ⟨c, hc, hread⟩ := Option.bind_eq_some_iff.mp hrun
  split at hread
  · next hready =>
      have hreading : p.Reading i c := ⟨hc, hready⟩
      unfold onCanRead at hread
      split at hread
      · obtain rfl := Option.some.inj hread
        exact .serves _ _ (serves_before p _ _ (serves_clearRead p _) (serves_abort _ c))
      · next hstate =>
          exact onInitializingState_cases p i c _ _ _ hreading hstate h hread
      · next hstate => exact onReadEx_cases p i c _ _ hreading hstate h hread
      · obtain rfl := Option.some.inj hread
        exact .serves _ _ (serves_clearRead p _)
      · obtain rfl := Option.some.inj hread
        exact .serves _ _ (serves_clearRead p _)
      · exact absurd hread (by simp)
  · obtain rfl := Option.some.inj hread
    exact .serves _ _ (serves_refl p)

theorem write_cases (p : Pump) (i : Nat) (rc : RsslRet) (left : Option Down) (h : Handled)
    (hrun : p.exec (.write i rc left) = some h) : Change p (.write i rc left) h := by
  obtain ⟨c, hc, hwrite⟩ := Option.bind_eq_some_iff.mp hrun
  split at hwrite
  · next hready =>
    unfold onCanWrite at hwrite
    split at hwrite
    · next hrc =>
        subst hrc
        obtain ⟨p', hp', rfl⟩ := Option.map_eq_some_iff.mp hwrite
        -- what follows the flush changes no mark
        have hbooks := (serves_modifyClient _ p' c _ hp').books
        have hlinks : p'.links = p.links ∧ p'.view = (p.clearPending c).view := by
          unfold modifyClient at hp'
          split at hp'
          · obtain rfl := Option.some.inj hp'
            exact ⟨rfl, rfl⟩
          · obtain ⟨k, -, hk⟩ := Option.bind_eq_some_iff.mp hp'
            obtain ⟨client, -, rfl⟩ := Option.map_eq_some_iff.mp hk
            exact ⟨rfl, rfl⟩
        exact .flushed i c left p' hc hready
          ⟨hbooks, fun k => .inl (by rw [hlinks.1]), by rw [hlinks.2]; rfl⟩
    · next hrc =>
        obtain rfl := Option.some.inj hwrite
        refine .serves _ _ (serves_call p _ _ (serves_before p _ _ ?_ (serves_leave _ c left)) hrc)
        exact serves_of_eq p _ rfl rfl rfl
  · obtain rfl := Option.some.inj hwrite
    exact .serves _ _ (serves_refl p)

/-- The calls of a loop that failed. -/
theorem harmless_flushCalls (p : Pump) (wfds : Finset Nat) (c : UInt64) (loop : FlushLoop)
    (hloop : loop.flushed = false) (call : RsslCall) (hmem : call ∈ flushCalls c loop) :
    p.Harmless wfds call := by
  simp only [flushCalls, hloop, List.mem_append, List.mem_replicate, List.mem_singleton] at hmem
  rcases hmem with ⟨-, rfl⟩ | rfl
  · exact RsslRet.noConfusion
  · exact RsslRet.noConfusion

/-- The flush of `Close` fails, finds nothing pending, or flushes the channel. -/
theorem flushStream_cases (p : Pump) (c : UInt64) (loop : FlushLoop) (left : Option Down)
    (hclient : (p.clients c).isSome = true) :
    p.Serves (p.flushStream c loop left)
      ∨ loop.flushed = true ∧ (p.flushStream c loop left).calls = flushCalls c loop
        ∧ p.Flushes c (p.flushStream c loop left).pump := by
  unfold flushStream
  split
  · split
    · next hflushed =>
        refine .inr ⟨hflushed, rfl, ?_, fun _ => .inl rfl, rfl⟩
        obtain ⟨client, hc⟩ := Option.isSome_iff_exists.mp hclient
        simp only [books, hc, Option.map_some, hasClient_update p c client _ hc]
        rfl
    · next hfailed =>
        rw [Bool.not_eq_true] at hfailed
        exact .inl { serves_leave p c left with
          calls := fun call hmem => harmless_flushCalls p _ c loop hfailed call hmem }
  · exact .inl (serves_refl p)

theorem notify_cases (p : Pump) (c : UInt64) (env : Env) (left : Option Down) (loop : FlushLoop)
    (leftByFlush : Option Down) (h : Handled)
    (hrun : p.notify c env left loop leftByFlush = some h) :
    Change p (.notify c env left loop leftByFlush) h := by
  obtain ⟨client, hclient, hclose⟩ := Option.bind_eq_some_iff.mp hrun
  obtain ⟨d, hd, rfl⟩ := Option.map_eq_some_iff.mp hclose
  have hserves := serves_afterMethod p c client d left hclient (writes_close _ _ d hd)
  have hsome : (p.clients c).isSome = true := by
    rw [hclient]
    rfl
  have hsome' : ((p.afterMethod c d left).clients c).isSome = true := by
    rw [hasClient_of_books hserves.books]
    exact hsome
  rcases flushStream_cases (p.afterMethod c d left) c loop leftByFlush hsome' with
    hflush | ⟨hflushed, hcalls, hflushes⟩
  · exact .serves _ _ (serves_trans p _ _ hserves hflush)
  · simp only [hcalls]
    exact .notified c env left leftByFlush loop _ _ hsome hserves hflushed hflushes

/-- **Everything a step can do.** -/
theorem exec_cases (p : Pump) (op : Op) (h : Handled) (hrun : p.exec op = some h) :
    Change p op h := by
  cases op with
  | start =>
      obtain ⟨listening, hsock, rfl⟩ := Option.map_eq_some_iff.mp hrun
      exact .reset _ listening (.inl rfl) hsock
  | doWork now =>
      obtain rfl := Option.some.inj hrun
      exact .serves _ _ (serves_of_eq p _ rfl rfl rfl)
  | reply env z msg left =>
      simp only [exec] at hrun
      split at hrun
      · exact .serves _ _ (serves_onReplySocket p env z msg left h hrun)
      · obtain rfl := Option.some.inj hrun
        exact .serves _ _ (serves_refl p)
  | connection accepted =>
      obtain ⟨listening, hsock, rfl⟩ := Option.map_eq_some_iff.mp hrun
      split
      · next hready => exact onConnection_cases p listening accepted hsock hready
      · exact .serves _ _ (serves_refl p)
  | read i answer => exact read_cases p i answer h hrun
  | write i rc left => exact write_cases p i rc left h hrun
  | keepalive i rc left =>
      obtain ⟨c, -, hkeep⟩ := Option.bind_eq_some_iff.mp hrun
      exact .serves _ _ (serves_keepalive p c rc left h hkeep)
  | disconnect i left =>
      obtain ⟨c, hc, hdisconnect⟩ := Option.bind_eq_some_iff.mp hrun
      obtain rfl := Option.some.inj hdisconnect
      split
      · next hefds => exact .disconnected i c left hc hefds
      · exact .serves _ _ (serves_refl p)
  | returns quit =>
      obtain rfl := Option.some.inj hrun
      exact .serves _ _ (serves_refl p)
  | throw =>
      obtain rfl := Option.some.inj hrun
      exact .serves _ _ (serves_refl p)
  | select n rfds wfds efds =>
      obtain ⟨-, hselect⟩ := Option.ite_none_right_eq_some.mp hrun
      obtain rfl := Option.some.inj hselect
      exact .serves _ _ (serves_of_eq p _ rfl rfl rfl)
  | close =>
      obtain rfl := Option.some.inj hrun
      exact .closing
  | directoryUpdate c env left =>
      exact .serves _ _ (serves_directoryUpdate p c env left h hrun)
  | drain =>
      simp only [exec] at hrun
      split at hrun
      · next hdrain =>
          obtain ⟨listening, hsock, rfl⟩ := Option.map_eq_some_iff.mp hrun
          exact .reset _ listening (.inr ⟨rfl, hdrain⟩) hsock
      · obtain rfl := Option.some.inj hrun
        exact .serves _ _ (serves_refl p)
  | notify c env left loop leftByFlush => exact notify_cases p c env left loop leftByFlush h hrun
  | teardown left =>
      obtain rfl := Option.some.inj hrun
      exact .tornDown left

end Pump

end Hitsuji
