import Hitsuji.Pipeline.Host
import Hitsuji.Provider.Connections

set_option autoImplicit false

/-! # Whom a step reaches

A step of the provider calls a method of one client at most. `Reaches` says which method that is,
and that everybody else keeps their streams; the watchlists follow from what the method does. -/

namespace Hitsuji

open ByteBuffer

namespace Pump

/-! ## Streams -/

/-- The streams of the client under a channel. -/
def streamsOf (p : Pump) (k : UInt64) : Option Streams :=
  (p.clients k).map Client.streams

/-- The clients keep their streams, are gone, or are new. -/
def StreamsKept (p p' : Pump) : Prop :=
  ∀ k, p'.streamsOf k = p.streamsOf k ∨ p'.streamsOf k = none
    ∨ p.streamsOf k = none ∧ ∃ s, p'.streamsOf k = some s ∧ s.handle = k ∧ s.tokens = ∅

/-- A method of the client `k` was called. -/
structure Called (p : Pump) (k : UInt64) (e : Call) (client : Client) (d : Done) (h : Handled) :
    Prop where
  stored : p.clients k = some client
  run : e.run client = some d
  streams : h.pump.streamsOf = Function.update p.streamsOf k (some d.session.client.streams)
  asked : askedOf h.calls = requests d.events

/-- A step reaches: -/
inductive Reaches (p : Pump) : Op → Handled → Prop where
  /-- nobody, -/
  | nobody (op : Op) (h : Handled) (hkept : p.StreamsKept h.pump) (hasked : askedOf h.calls = []) :
      Reaches p op h
  /-- the client that a message is for, -/
  | message (op : Op) (h : Handled) (k : UInt64) (m : InMsg) (env : Env) (client : Client)
      (d : Done) (hmessage : p.message op = some (k, m, env))
      (hcalled : p.Called k ⟨env, p.channels k, p.view, .msg m⟩ client d h) : Reaches p op h
  /-- the client that a reply is for, -/
  | reply (env : Env) (z : ReadEnv) (msg : Bytes) (left : Option Down) (h : Handled)
      (view : ReplyView) (client : Client) (d : Done) (hready : p.replyReady = true)
      (hreceives : z.receives = true)
      (hview : decodeReply .lengthFirst msg = .ok view)
      (hcalled : p.Called view.handle
        ⟨env, p.channels view.handle, p.view, .reply view.token (view.payload msg)⟩ client d h)
      (hcalls : h.calls = d.events.map (.session view.handle)) :
      Reaches p (.reply env z msg left) h
  /-- or one that `Close` notifies. -/
  | notify (c : UInt64) (env : Env) (left : Option Down) (loop : FlushLoop)
      (leftByFlush : Option Down) (h : Handled) (client : Client) (d : Done)
      (hcalled : p.Called c ⟨env, p.channels c, p.view, .close⟩ client d h) :
      Reaches p (.notify c env left loop leftByFlush) h

/-! ## Requests among the calls -/

theorem askedOf_session (k : UInt64) (events : List Event) :
    askedOf (events.map (.session k)) = requests events := by
  rw [askedOf, requests, List.filterMap_map]
  congr 1
  funext e
  cases e <;> rfl

theorem askedOf_append (calls calls' : List RsslCall) :
    askedOf (calls ++ calls') = askedOf calls ++ askedOf calls' :=
  List.filterMap_append

theorem askedOf_flushCalls (c : UInt64) (loop : FlushLoop) : askedOf (flushCalls c loop) = [] := by
  simp [askedOf, flushCalls]

/-! ## Handlers and streams -/

theorem streamsKept_of_eq (p p' : Pump) (h : p'.streamsOf = p.streamsOf) : p.StreamsKept p' :=
  fun k => .inl (by rw [h])

theorem streamsOf_leave (p : Pump) (c : UInt64) (left : Option Down) :
    (p.leave c left).streamsOf = p.streamsOf := by
  rw [leave_eq]
  rfl

/-- Keepalive and flush state is not part of the streams. -/
theorem streamsOf_modifyClient (p p' : Pump) (c : UInt64) (f : Client → Client)
    (h : p.modifyClient c f = some p') (hf : ∀ client, (f client).streams = client.streams) :
    p'.streamsOf = p.streamsOf := by
  unfold modifyClient at h
  split at h
  · obtain rfl := Option.some.inj h
    rfl
  · obtain ⟨k, -, hk⟩ := Option.bind_eq_some_iff.mp h
    obtain ⟨client, hclient, rfl⟩ := Option.map_eq_some_iff.mp hk
    funext j
    by_cases hj : j = k
    · subst hj
      simp [streamsOf, hclient, hf]
    · simp [streamsOf, hj]

theorem streamsOf_afterMethod (p : Pump) (k : UInt64) (d : Done) (left : Option Down) :
    (p.afterMethod k d left).streamsOf
      = Function.update p.streamsOf k (some d.session.client.streams) := by
  rw [afterMethod, streamsOf_leave]
  funext j
  by_cases hj : j = k
  · subst hj
    simp [streamsOf, Provider.absorb]
  · simp [streamsOf, Provider.absorb, hj]

/-- A method that writes nothing to the streams reaches nobody. -/
theorem streamsKept_update (p p' : Pump) (k : UInt64) (client : Client) (s : Streams)
    (hclient : p.clients k = some client) (hs : s = client.streams)
    (h : p'.streamsOf = Function.update p.streamsOf k (some s)) : p.StreamsKept p' := by
  refine streamsKept_of_eq p p' ?_
  rw [h, hs]
  refine Function.update_eq_self_iff.mpr ?_
  rw [streamsOf, hclient]
  rfl

/-- The method that answers a message. -/
theorem called_onMsg (p : Pump) (c : UInt64) (m : InMsg) (env : Env) (left : Option Down)
    (h : Handled) (hrun : p.onMsg c (some m) env left = some h) :
    ∃ k client d, p.pointee c = some k
      ∧ p.Called k ⟨env, p.channels k, p.view, .msg m⟩ client d h := by
  obtain ⟨k, hpointee, hk⟩ := Option.bind_eq_some_iff.mp hrun
  obtain ⟨client, hclient, hmethod⟩ := Option.bind_eq_some_iff.mp hk
  obtain ⟨d, hd, rfl⟩ := Option.map_eq_some_iff.mp hmethod
  refine ⟨k, client, d, hpointee, hclient, hd, ?_, askedOf_session k d.events⟩
  rw [← streamsOf_afterMethod p k d left]
  simp only
  split <;> rfl

/-- What follows a method and leaves the streams alone. -/
theorem called_congr (p q : Pump) (k : UInt64) (e : Call) (client : Client) (d : Done)
    (h : Handled) (hq : q.streamsOf = h.pump.streamsOf) (hcalled : p.Called k e client d h) :
    p.Called k e client d ⟨q, h.calls⟩ :=
  { hcalled with streams := hq.trans hcalled.streams }

/-- What came before it and left the clients alone. -/
theorem called_before (p q : Pump) (k : UInt64) (e : Call) (client : Client) (d : Done)
    (h : Handled) (hclients : q.clients = p.clients) (hcalled : q.Called k e client d h) :
    p.Called k e client d h where
  stored := hclients ▸ hcalled.stored
  run := hcalled.run
  streams := by
    have hstreams : p.streamsOf = q.streamsOf := by
      funext j
      rw [streamsOf, streamsOf, hclients]
    rw [hstreams]
    exact hcalled.streams
  asked := hcalled.asked

/-- A handler that calls no method. -/
def Idle (p : Pump) (h : Handled) : Prop :=
  p.StreamsKept h.pump ∧ askedOf h.calls = []

theorem idle_of_eq (p : Pump) (h : Handled) (hstreams : h.pump.streamsOf = p.streamsOf)
    (hasked : askedOf h.calls = []) : p.Idle h :=
  ⟨streamsKept_of_eq p h.pump hstreams, hasked⟩

theorem idle_onInitializingState (p : Pump) (c : UInt64) (ret : InitChannel) (session : NewSession)
    (left : Down) (h : Handled) (hrun : p.onInitializingState c ret session left = some h) :
    p.Idle h := by
  cases ret with
  | inProgress newSocket =>
      cases newSocket with
      | none | some =>
          obtain rfl := Option.some.inj hrun
          exact idle_of_eq p _ rfl rfl
  | failure left =>
      obtain rfl := Option.some.inj hrun
      exact idle_of_eq p _ (streamsOf_leave p c left) rfl
  | success majorVersion minorVersion pingTimeout =>
      obtain ⟨h₁, hsession, rfl⟩ := Option.map_eq_some_iff.mp hrun
      unfold onActiveClientSession at hsession
      split at hsession
      · obtain rfl := Option.some.inj hsession
        exact idle_of_eq p _ rfl rfl
      · split at hsession
        · obtain rfl := Option.some.inj hsession
          exact idle_of_eq p _ rfl rfl
        · obtain rfl := Option.some.inj hsession
          exact idle_of_eq p _ rfl rfl
        · obtain ⟨-, hsession⟩ := Option.ite_none_left_eq_some.mp hsession
          obtain rfl := Option.some.inj hsession
          refine ⟨fun k => ?_, rfl⟩
          simp only
          split
          · by_cases hk : k = c
            · subst hk
              cases hclient : p.clients k with
              | none =>
                  refine .inr (.inr ⟨by rw [streamsOf, hclient]; rfl, ?_⟩)
                  simp [streamsOf, watch, acceptClientSession, Provider.acceptClientSession,
                    setLink, activate, setChannel, hclient, Client.initial, Client.streams]
              | some client =>
                  refine .inl ?_
                  simp [streamsOf, watch, acceptClientSession, Provider.acceptClientSession,
                    setLink, activate, setChannel, hclient]
            · refine .inl ?_
              simp [streamsOf, watch, acceptClientSession, Provider.acceptClientSession, setLink,
                activate, setChannel, hk]
          · exact .inl rfl

theorem idle_ping (p : Pump) (c : UInt64) (rc : RsslRet) (left : Option Down) (h : Handled)
    (hrun : p.ping c rc left = some h) : p.Idle h := by
  unfold ping at hrun
  split at hrun
  · obtain ⟨p', hp', rfl⟩ := Option.map_eq_some_iff.mp hrun
    exact idle_of_eq p _ (streamsOf_modifyClient p p' c _ hp' fun _ => rfl) rfl
  all_goals
    obtain rfl := Option.some.inj hrun
    exact idle_of_eq p _ (streamsOf_leave _ c left) rfl

theorem idle_keepalive (p : Pump) (c : UInt64) (rc : RsslRet) (left : Option Down) (h : Handled)
    (hrun : p.keepalive c rc left = some h) : p.Idle h := by
  unfold keepalive at hrun
  split at hrun
  · obtain ⟨client, -, hclient⟩ := Option.bind_eq_some_iff.mp hrun
    obtain ⟨h₁, hping, rfl⟩ := Option.map_eq_some_iff.mp hclient
    have hidle : p.Idle h₁ := by
      split at hping
      · exact idle_ping p c rc left h₁ hping
      · obtain rfl := Option.some.inj hping
        exact idle_of_eq p _ rfl rfl
    split <;> exact hidle
  · obtain rfl := Option.some.inj hrun
    exact idle_of_eq p _ rfl rfl

theorem idle_onCanWrite (p : Pump) (c : UInt64) (rc : RsslRet) (left : Option Down) (h : Handled)
    (hrun : p.onCanWrite c rc left = some h) : p.Idle h := by
  unfold onCanWrite at hrun
  split at hrun
  · obtain ⟨p', hp', rfl⟩ := Option.map_eq_some_iff.mp hrun
    exact idle_of_eq p _ (streamsOf_modifyClient (p.clearPending c) p' c _ hp' fun _ => rfl) rfl
  · obtain rfl := Option.some.inj hrun
    exact idle_of_eq p _ (streamsOf_leave p c left) rfl

theorem streamsOf_none (p : Pump) (k : UInt64) (h : p.clients k = none) : p.streamsOf k = none := by
  rw [streamsOf, h]
  rfl

theorem idle_disconnect (p : Pump) (i : Nat) (c : UInt64) (left : Down) :
    p.Idle (p.disconnect i c left) := by
  refine ⟨fun k => ?_, ?_⟩
  · have hclients : (p.disconnect i c left).pump.clients
        = Function.update p.clients c none := by
      rw [disconnect_eq]
      rfl
    by_cases hk : k = c
    · subst hk
      refine .inr (.inl (streamsOf_none _ k ?_))
      rw [hclients, Function.update_self]
    · refine .inl ?_
      rw [streamsOf, hclients, Function.update_of_ne hk]
      rfl
  · unfold disconnect
    split <;> rfl

theorem idle_directoryUpdate (p : Pump) (c : UInt64) (env : Env) (left : Option Down) (h : Handled)
    (hrun : p.directoryUpdate c env left = some h) : p.Idle h := by
  obtain ⟨client, hclient, hupdate⟩ := Option.bind_eq_some_iff.mp hrun
  obtain ⟨d, hd, rfl⟩ := Option.map_eq_some_iff.mp hupdate
  refine ⟨streamsKept_update p _ c client d.session.client.streams hclient ?_
    (streamsOf_afterMethod p c d left), ?_⟩
  · exact streams_of_sameStreams _ _ (sendEncoded_sameStreams _ _ _ _ d hd)
  · rw [askedOf_session]
    exact (sendEncoded_quiet _ _ _ _ d hd).1

/-! ## Every step -/

theorem reaches_of_idle (p : Pump) (op : Op) (h : Handled) (hidle : p.Idle h) : p.Reaches op h :=
  .nobody op h hidle.1 hidle.2

theorem pointee_leave (p : Pump) (c : UInt64) (left : Option Down) (k : UInt64) :
    (p.leave c left).pointee k = p.pointee k :=
  pointee_of_books (books_leave p c left) k

/-- The message that a read delivers. -/
theorem message_eq (p : Pump) (i : Nat) (c k : UInt64) (positive : Bool) (m : InMsg) (env : Env)
    (left left' : Option Down) (hc : p.connections[i]? = some c) (hready : p.socketId c ∈ p.outRfds)
    (hstate : (p.links c).state = .active) (hpointee : p.pointee c = some k) :
    p.message (.read i (.readEx (.data positive (some (some m, env)) left) left'))
      = some (k, m, env) := by
  simp [message, hc, Option.filter, hready, hstate, hpointee]

theorem reaches_read (p : Pump) (i : Nat) (answer : ReadAnswer) (h : Handled)
    (hrun : p.exec (.read i answer) = some h) : p.Reaches (.read i answer) h := by
  obtain ⟨c, hc, hread⟩ := Option.bind_eq_some_iff.mp hrun
  split at hread
  · next hready =>
      unfold onCanRead at hread
      split at hread
      · obtain rfl := Option.some.inj hread
        exact reaches_of_idle p _ _ (idle_of_eq p _ rfl rfl)
      · exact reaches_of_idle p _ h
          (idle_onInitializingState (p.clearRead (p.socketId c)) c _ _ _ h hread)
      · next ret left hstate =>
          let q := (p.clearRead (p.socketId c)).leave c left
          have hq : q.streamsOf = p.streamsOf := streamsOf_leave _ c left
          have hsame : q.clients = p.clients ∧ q.channels = p.channels ∧ q.view = p.view := by
            simp only [q]
            rw [leave_eq]
            exact ⟨rfl, rfl, rfl⟩
          obtain ⟨hclients, hchannels, hview⟩ := hsame
          cases ret with
          | congestionDetected | slowReader | packetGapDetected =>
              obtain rfl := Option.some.inj hread
              refine reaches_of_idle p _ _ (idle_of_eq p _ ?_ rfl)
              simp only [checkClosedState]
              split <;> exact hq
          | fdChange newSocket =>
              obtain rfl := Option.some.inj hread
              exact reaches_of_idle p _ _ (idle_of_eq p _ hq rfl)
          | failure =>
              obtain rfl := Option.some.inj hread
              exact reaches_of_idle p _ _ (idle_of_eq p _ hq rfl)
          | ping =>
              obtain ⟨p', hp', rfl⟩ := Option.map_eq_some_iff.mp hread
              exact reaches_of_idle p _ _ (idle_of_eq p _
                ((streamsOf_modifyClient q p' c _ hp' fun _ => rfl).trans hq) rfl)
          | data positive buf left' =>
              obtain ⟨h₁, hbuf, rfl⟩ := Option.map_eq_some_iff.mp hread
              unfold onBuffer at hbuf
              split at hbuf
              · obtain rfl := Option.some.inj hbuf
                refine reaches_of_idle p _ _ (idle_of_eq p _ ?_ ?_)
                · split <;> exact hq
                · split <;> rfl
              · next msg env =>
                  obtain ⟨h₂, hmsg, hpong⟩ := Option.bind_eq_some_iff.mp hbuf
                  obtain ⟨p', hp', rfl⟩ := Option.map_eq_some_iff.mp hpong
                  have hpong' := streamsOf_modifyClient h₂.pump p' c _ hp' fun _ => rfl
                  cases msg with
                  | none =>
                      obtain rfl := Option.some.inj hmsg
                      refine reaches_of_idle p _ _ (idle_of_eq p _ ?_ ?_)
                      · split <;> exact hpong'.trans hq
                      · split <;> rfl
                  | some m =>
                      obtain ⟨k, client, d, hpointee, hcalled⟩ :=
                        called_onMsg q c m env left' h₂ hmsg
                      rw [hchannels, hview] at hcalled
                      have hmessage := message_eq p i c k positive m env left' left hc hready hstate
                        (pointee_leave (p.clearRead (p.socketId c)) c left c ▸ hpointee)
                      have hcalled' := called_before p q k _ client d _ hclients
                        (called_congr q p' k _ client d h₂ hpong' hcalled)
                      refine .message _ _ k m env client d hmessage ?_
                      split
                      · exact called_congr p _ k _ client d ⟨p', h₂.calls⟩ rfl hcalled'
                      · exact hcalled'
      · obtain rfl := Option.some.inj hread
        exact reaches_of_idle p _ _ (idle_of_eq p _ rfl rfl)
      · obtain rfl := Option.some.inj hread
        exact reaches_of_idle p _ _ (idle_of_eq p _ rfl rfl)
      · exact absurd hread (by simp)
  · obtain rfl := Option.some.inj hread
    exact reaches_of_idle p _ _ (idle_of_eq p _ rfl rfl)

theorem reaches_reply (p : Pump) (env : Env) (z : ReadEnv) (msg : Bytes) (left : Option Down)
    (h : Handled) (hready : p.replyReady = true)
    (hrun : p.onReplySocket env z msg left = some h) : p.Reaches (.reply env z msg left) h := by
  obtain ⟨⟨q, events⟩, hread, rfl⟩ := Option.map_eq_some_iff.mp hrun
  obtain ⟨out, ⟨rfl, rfl⟩ | ⟨view, client, d, hreceives, hview, hclient, hd, rfl, rfl⟩⟩ :=
    onReplySocket_cases env z p.toProvider q msg events hread
  · exact reaches_of_idle p _ _ (idle_of_eq p _ rfl rfl)
  · rw [replyHandle_eq msg view hview]
    refine .reply env z msg left _ view client d hready hreceives hview
      ⟨hclient, hd, ?_, askedOf_session _ _⟩ rfl
    rw [← streamsOf_afterMethod p view.handle d none]
    exact streamsOf_leave _ _ _

theorem idle_teardown (p : Pump) (left : UInt64 → Down) : p.Idle (p.teardown left) := by
  refine ⟨fun k => .inr (.inl (streamsOf_none _ k ?_)), ?_⟩
  · simp only [teardown]
    rw [closeConnections_eq]
  · simp only [teardown, closeConnections_calls]
    simp [askedOf]

/-- A flush in `Close` counts the client's pending messages as sent. -/
theorem streamsOf_drained (p : Pump) (c : UInt64) :
    streamsOf { p.clearPending c with
      clients := Function.update p.clients c
        ((p.clients c).map fun client => { client with pendingCount := 0 }) } = p.streamsOf := by
  funext k
  by_cases hk : k = c
  · subst hk
    simp only [streamsOf, Function.update_self, Option.map_map]
    rfl
  · simp only [streamsOf, Function.update_of_ne hk]

theorem reaches_notify (p : Pump) (c : UInt64) (env : Env) (left : Option Down) (loop : FlushLoop)
    (leftByFlush : Option Down) (h : Handled)
    (hrun : p.notify c env left loop leftByFlush = some h) :
    p.Reaches (.notify c env left loop leftByFlush) h := by
  obtain ⟨client, hclient, hclose⟩ := Option.bind_eq_some_iff.mp hrun
  obtain ⟨d, hd, rfl⟩ := Option.map_eq_some_iff.mp hclose
  refine .notify c env left loop leftByFlush _ client d ⟨hclient, hd, ?_, ?_⟩
  · rw [← streamsOf_afterMethod p c d left]
    simp only [flushStream]
    split
    · split
      · exact streamsOf_drained _ c
      · exact streamsOf_leave _ c leftByFlush
    · rfl
  · simp only
    rw [askedOf_append, askedOf_session]
    unfold flushStream
    split
    · split
      · rw [askedOf_flushCalls, List.append_nil]
      · rw [askedOf_flushCalls, List.append_nil]
    · exact List.append_nil _

/-- **Whom a step reaches.** -/
theorem exec_reaches (p : Pump) (op : Op) (h : Handled) (hrun : p.exec op = some h) :
    p.Reaches op h := by
  cases op with
  | start =>
      obtain ⟨listening, -, rfl⟩ := Option.map_eq_some_iff.mp hrun
      exact reaches_of_idle p _ _ (idle_of_eq p _ rfl rfl)
  | doWork now =>
      obtain rfl := Option.some.inj hrun
      exact reaches_of_idle p _ _ (idle_of_eq p _ rfl rfl)
  | reply env z msg left =>
      simp only [exec] at hrun
      split at hrun
      · next hready => exact reaches_reply p env z msg left h hready hrun
      · obtain rfl := Option.some.inj hrun
        exact reaches_of_idle p _ _ (idle_of_eq p _ rfl rfl)
  | connection accepted =>
      obtain ⟨listening, -, rfl⟩ := Option.map_eq_some_iff.mp hrun
      refine reaches_of_idle p _ _ ?_
      split
      · unfold onConnection
        split
        all_goals cases accepted <;> exact idle_of_eq p _ rfl rfl
      · exact idle_of_eq p _ rfl rfl
  | read i answer => exact reaches_read p i answer h hrun
  | write i rc left =>
      obtain ⟨c, -, hwrite⟩ := Option.bind_eq_some_iff.mp hrun
      split at hwrite
      · exact reaches_of_idle p _ h (idle_onCanWrite
          { p with outWfds := p.outWfds.erase (p.socketId c) } c rc left h hwrite)
      · obtain rfl := Option.some.inj hwrite
        exact reaches_of_idle p _ _ (idle_of_eq p _ rfl rfl)
  | keepalive i rc left =>
      obtain ⟨c, -, hkeep⟩ := Option.bind_eq_some_iff.mp hrun
      exact reaches_of_idle p _ h (idle_keepalive p c rc left h hkeep)
  | disconnect i left =>
      obtain ⟨c, -, hdisconnect⟩ := Option.bind_eq_some_iff.mp hrun
      obtain rfl := Option.some.inj hdisconnect
      refine reaches_of_idle p _ _ ?_
      split
      · exact idle_disconnect p i c left
      · exact idle_of_eq p _ rfl rfl
  | returns quit =>
      obtain rfl := Option.some.inj hrun
      exact reaches_of_idle p _ _ (idle_of_eq p _ rfl rfl)
  | throw =>
      obtain rfl := Option.some.inj hrun
      exact reaches_of_idle p _ _ (idle_of_eq p _ rfl rfl)
  | select n rfds wfds efds =>
      obtain ⟨-, hselect⟩ := Option.ite_none_right_eq_some.mp hrun
      obtain rfl := Option.some.inj hselect
      exact reaches_of_idle p _ _ (idle_of_eq p _ rfl rfl)
  | close =>
      obtain rfl := Option.some.inj hrun
      exact reaches_of_idle p _ _ (idle_of_eq p _ rfl rfl)
  | directoryUpdate c env left =>
      exact reaches_of_idle p _ h (idle_directoryUpdate p c env left h hrun)
  | drain =>
      simp only [exec] at hrun
      split at hrun
      · obtain ⟨listening, -, rfl⟩ := Option.map_eq_some_iff.mp hrun
        exact reaches_of_idle p _ _ (idle_of_eq p _ rfl rfl)
      · obtain rfl := Option.some.inj hrun
        exact reaches_of_idle p _ _ (idle_of_eq p _ rfl rfl)
  | notify c env left loop leftByFlush =>
      exact reaches_notify p c env left loop leftByFlush h hrun
  | teardown left =>
      obtain rfl := Option.some.inj hrun
      exact reaches_of_idle p _ _ (idle_teardown p left)

end Pump

end Hitsuji
