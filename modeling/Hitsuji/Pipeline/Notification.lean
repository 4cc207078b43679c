import Hitsuji.Pipeline.Host
import Hitsuji.Provider.Books

set_option autoImplicit false

/-! # No reply is stuck in the queue

The pump hears of a reply through an edge, and `OnRead` takes the edge back before it knows how many
replies there are. Two things make up for that: `OnRead` reads the events again after each reply and
reports that there are more, and `DoWork` then leaves the reply socket in the selected set and
reports work, so that the next pass comes without a `select`. Every other way out of `OnRead` clears
the flag, whatever is still queued. -/

namespace Hitsuji

open ByteBuffer Transition

namespace Pump

/-! ## The selected reply socket -/

/-- `select` returned with the reply socket. -/
def Selected (p : Pump) : Prop :=
  p.replyReady = true ∧ 0 < p.outNfds

/-- The reply socket is neither that of a connection nor the listening socket. -/
def OwnReplySocket (p : Pump) : Prop :=
  (∀ c ∈ p.connections, p.socketId c ≠ p.replySock) ∧ p.rsslSock ≠ some p.replySock

instance (p : Pump) : Decidable p.OwnReplySocket :=
  inferInstanceAs (Decidable (_ ∧ _))

/-- The socket `s` stays selected. -/
structure Spares (p p' : Pump) (s : Nat) : Prop where
  replySock : p'.replySock = p.replySock
  outNfds : p'.outNfds = p.outNfds
  selected : s ∈ p.outRfds → s ∈ p'.outRfds

theorem selected_of_spares (p p' : Pump) (h : p.Spares p' p.replySock) (hp : p.Selected) :
    p'.Selected := by
  obtain ⟨hready, hn⟩ := hp
  have hready := of_decide_eq_true hready
  refine ⟨decide_eq_true ⟨h.replySock ▸ hready.1, ?_⟩, h.outNfds ▸ hn⟩
  rw [h.replySock]
  exact h.selected hready.2

theorem spares_trans (p p' p'' : Pump) (s : Nat) (h : p.Spares p' s) (h' : p'.Spares p'' s) :
    p.Spares p'' s where
  replySock := h'.replySock.trans h.replySock
  outNfds := h'.outNfds.trans h.outNfds
  selected hs := h'.selected (h.selected hs)

theorem spares_refl (p : Pump) (s : Nat) : p.Spares p s :=
  ⟨rfl, rfl, id⟩

section Handlers

variable (p : Pump) (c : UInt64) (s : Nat)

theorem spares_leave (left : Option Down) : p.Spares (p.leave c left) s := by
  cases left <;> exact ⟨rfl, rfl, id⟩

theorem spares_clearRead (socket : Nat) (hs : s ≠ socket) : p.Spares (p.clearRead socket) s :=
  ⟨rfl, rfl, fun h => Finset.mem_erase.mpr ⟨hs, h⟩⟩

theorem spares_abort (hs : s ≠ p.socketId c) : p.Spares (p.abort c) s :=
  ⟨rfl, rfl, fun h => Finset.mem_erase.mpr ⟨hs, h⟩⟩

theorem spares_modifyClient (f : Client → Client) (p' : Pump) (h : p.modifyClient c f = some p') :
    p.Spares p' s := by
  unfold modifyClient at h
  split at h
  · obtain rfl := Option.some.inj h
    exact spares_refl p s
  · obtain ⟨k, -, hk⟩ := Option.bind_eq_some_iff.mp h
    obtain ⟨client, -, rfl⟩ := Option.map_eq_some_iff.mp hk
    exact ⟨rfl, rfl, id⟩

theorem spares_afterMethod (k : UInt64) (d : Done) (left : Option Down) :
    p.Spares (p.afterMethod k d left) s :=
  spares_trans p { p with toProvider := p.toProvider.absorb k d } _ s ⟨rfl, rfl, id⟩
    (spares_leave _ k s left)

theorem spares_onMsg (msg : Option InMsg) (env : Env) (left : Option Down) (h : Handled)
    (hs : s ≠ p.socketId c) (hrun : p.onMsg c msg env left = some h) : p.Spares h.pump s := by
  unfold onMsg at hrun
  split at hrun
  · obtain rfl := Option.some.inj hrun
    exact spares_abort p c s hs
  · obtain ⟨k, -, hk⟩ := Option.bind_eq_some_iff.mp hrun
    obtain ⟨client, -, hclient⟩ := Option.bind_eq_some_iff.mp hk
    obtain ⟨d, -, rfl⟩ := Option.map_eq_some_iff.mp hclient
    have hmethod := spares_afterMethod p s k d left
    simp only
    split
    · exact hmethod
    · refine spares_trans p _ _ s hmethod (spares_abort _ c s ?_)
      have hsocket : (p.afterMethod k d left).socketId c = p.socketId c :=
        socketId_leave _ k left c
      rw [hsocket]
      exact hs

theorem spares_onBuffer (buf : Option (Option InMsg × Env)) (left : Option Down) (h : Handled)
    (hs : s ≠ p.socketId c) (hrun : p.onBuffer c buf left = some h) : p.Spares h.pump s := by
  unfold onBuffer at hrun
  split at hrun
  · obtain rfl := Option.some.inj hrun
    exact spares_refl p s
  · obtain ⟨h₁, hmsg, hpong⟩ := Option.bind_eq_some_iff.mp hrun
    obtain ⟨p', hp', rfl⟩ := Option.map_eq_some_iff.mp hpong
    exact spares_trans p _ _ s (spares_onMsg p c s _ _ left h₁ hs hmsg)
      (spares_modifyClient _ c s _ p' hp')

theorem spares_onReadEx (ret : ReadEx) (h : Handled) (hs : s ≠ p.socketId c)
    (hrun : p.onReadEx c ret = some h) : p.Spares h.pump s := by
  cases ret with
  | congestionDetected | slowReader | packetGapDetected =>
      obtain rfl := Option.some.inj hrun
      simp only [checkClosedState]
      split <;> exact ⟨rfl, rfl, id⟩
  | fdChange newSocket | failure =>
      obtain rfl := Option.some.inj hrun
      exact ⟨rfl, rfl, id⟩
  | ping =>
      obtain ⟨p', hp', rfl⟩ := Option.map_eq_some_iff.mp hrun
      exact spares_modifyClient p c s _ p' hp'
  | data positive buf left =>
      obtain ⟨h₁, hbuf, rfl⟩ := Option.map_eq_some_iff.mp hrun
      have hspares := spares_onBuffer p c s buf left h₁ hs hbuf
      split
      · exact spares_trans p _ _ s hspares ⟨rfl, rfl, Finset.mem_insert_of_mem⟩
      · exact hspares

theorem spares_onInitializingState (ret : InitChannel) (session : NewSession) (left : Down)
    (h : Handled) (hrun : p.onInitializingState c ret session left = some h) :
    p.Spares h.pump s := by
  cases ret with
  | inProgress newSocket =>
      cases newSocket with
      | none | some =>
          obtain rfl := Option.some.inj hrun
          exact ⟨rfl, rfl, id⟩
  | failure left =>
      obtain rfl := Option.some.inj hrun
      exact spares_leave p c s left
  | success majorVersion minorVersion pingTimeout =>
      obtain ⟨h₁, hsession, rfl⟩ := Option.map_eq_some_iff.mp hrun
      refine spares_trans p h₁.pump _ s ?_ ⟨rfl, rfl, id⟩
      unfold onActiveClientSession at hsession
      split at hsession
      · obtain rfl := Option.some.inj hsession
        exact ⟨rfl, rfl, id⟩
      · split at hsession
        · obtain rfl := Option.some.inj hsession
          exact ⟨rfl, rfl, id⟩
        · obtain rfl := Option.some.inj hsession
          exact ⟨rfl, rfl, id⟩
        · obtain ⟨-, hsession⟩ := Option.ite_none_left_eq_some.mp hsession
          obtain rfl := Option.some.inj hsession
          simp only
          split <;> exact ⟨rfl, rfl, id⟩

theorem spares_onCanRead (answer : ReadAnswer) (h : Handled) (hs : s ≠ p.socketId c)
    (hrun : p.onCanRead c answer = some h) : p.Spares h.pump s := by
  unfold onCanRead at hrun
  split at hrun
  · obtain rfl := Option.some.inj hrun
    exact spares_abort p c s hs
  · exact spares_onInitializingState p c s _ _ _ h hrun
  · next left _ =>
      exact spares_trans p _ _ s (spares_leave p c s left)
        (spares_onReadEx _ c s _ h (socketId_leave p c left c ▸ hs) hrun)
  · obtain rfl := Option.some.inj hrun
    exact spares_refl p s
  · obtain rfl := Option.some.inj hrun
    exact spares_refl p s
  · exact absurd hrun (by simp)

theorem spares_onCanWrite (rc : RsslRet) (left : Option Down) (h : Handled)
    (hrun : p.onCanWrite c rc left = some h) : p.Spares h.pump s := by
  unfold onCanWrite at hrun
  split at hrun
  · obtain ⟨p', hp', rfl⟩ := Option.map_eq_some_iff.mp hrun
    exact spares_trans p (p.clearPending c) _ s ⟨rfl, rfl, id⟩
      (spares_modifyClient _ c s _ p' hp')
  · obtain rfl := Option.some.inj hrun
    exact spares_leave p c s left

theorem spares_ping (rc : RsslRet) (left : Option Down) (h : Handled)
    (hrun : p.ping c rc left = some h) : p.Spares h.pump s := by
  unfold ping at hrun
  split at hrun
  · obtain ⟨p', hp', rfl⟩ := Option.map_eq_some_iff.mp hrun
    exact spares_modifyClient p c s _ p' hp'
  all_goals obtain rfl := Option.some.inj hrun
  · exact spares_trans p (p.markException c) _ s ⟨rfl, rfl, id⟩ (spares_leave _ c s left)
  · exact spares_trans p (p.markException c) _ s ⟨rfl, rfl, id⟩ (spares_leave _ c s left)
  · exact spares_trans p (p.markException c) _ s ⟨rfl, rfl, id⟩ (spares_leave _ c s left)
  · exact spares_leave p c s left

theorem spares_keepalive (rc : RsslRet) (left : Option Down) (h : Handled)
    (hs : s ≠ p.socketId c) (hrun : p.keepalive c rc left = some h) : p.Spares h.pump s := by
  unfold keepalive at hrun
  split at hrun
  · obtain ⟨client, -, hclient⟩ := Option.bind_eq_some_iff.mp hrun
    obtain ⟨h₁, hping, rfl⟩ := Option.map_eq_some_iff.mp hclient
    have hspares : p.Spares h₁.pump s ∧ h₁.pump.socketId c = p.socketId c := by
      split at hping
      · exact ⟨spares_ping p c s rc left h₁ hping,
          socketId_of_books (serves_ping p c rc left h₁ hping).books c⟩
      · obtain rfl := Option.some.inj hping
        exact ⟨spares_refl p s, rfl⟩
    split
    · exact spares_trans p _ _ s hspares.1 (spares_abort _ c s (hspares.2 ▸ hs))
    · exact hspares.1
  · obtain rfl := Option.some.inj hrun
    exact spares_refl p s

theorem spares_disconnect (i : Nat) (left : Down) :
    p.Spares (p.disconnect i c left).pump s := by
  unfold disconnect
  split
  · exact ⟨rfl, rfl, id⟩
  · exact spares_trans p (p.remove i c) _ s ⟨rfl, rfl, id⟩ (spares_leave _ c s (some left))

end Handlers

end Pump

/-! ## A pass that works -/

/-- A step of a pass other than the one at the reply socket. -/
def Op.inPass : Op → Bool
  | .doWork _ | .connection _ | .read _ _ | .write _ _ _ | .keepalive _ _ _ | .disconnect _ _
  | .returns _ => true
  | _ => false

/-- The pass did work so far, or may still do some. -/
def Pc.looks : Pc → Bool
  | .pass _ | .external _ => true
  | .server _ didWork => didWork
  | .visit _ idle _ _ didWork => !idle && didWork
  | _ => false

/-- A step of a pass does not take the reply socket out of the selected set. -/
theorem Pump.spares_exec (p : Pump) (op : Op) (h : Handled) (hrun : p.exec op = some h)
    (hop : op.inPass = true) (hown : p.OwnReplySocket) : p.Spares h.pump p.replySock := by
  have hsocket : ∀ i c, p.connections[i]? = some c → p.replySock ≠ p.socketId c := fun i c hc =>
    (hown.1 c (List.mem_of_getElem? hc)).symm
  cases op with
  | doWork now =>
      obtain rfl := Option.some.inj hrun
      exact ⟨rfl, rfl, id⟩
  | connection accepted =>
      obtain ⟨listening, hlistening, rfl⟩ := Option.map_eq_some_iff.mp hrun
      split
      · have hne : p.replySock ≠ listening := fun h => hown.2 (h ▸ hlistening)
        refine spares_trans p (p.clearRead listening) _ _ (spares_clearRead p _ listening hne) ?_
        unfold onConnection
        split
        · exact spares_refl _ _
        · cases accepted <;> exact ⟨rfl, rfl, id⟩
      · exact spares_refl p _
  | read i answer =>
      obtain ⟨c, hc, hread⟩ := Option.bind_eq_some_iff.mp hrun
      have hne := hsocket i c hc
      split at hread
      · exact spares_trans p _ _ _ (spares_clearRead p _ _ hne)
          (spares_onCanRead _ c _ answer h hne hread)
      · obtain rfl := Option.some.inj hread
        exact spares_refl p _
  | write i rc left =>
      obtain ⟨c, hc, hwrite⟩ := Option.bind_eq_some_iff.mp hrun
      split at hwrite
      · exact spares_trans p { p with outWfds := p.outWfds.erase (p.socketId c) } _ _ ⟨rfl, rfl, id⟩
          (spares_onCanWrite _ c _ rc left h hwrite)
      · obtain rfl := Option.some.inj hwrite
        exact spares_refl p _
  | keepalive i rc left =>
      obtain ⟨c, hc, hkeep⟩ := Option.bind_eq_some_iff.mp hrun
      exact spares_keepalive p c _ rc left h (hsocket i c hc) hkeep
  | disconnect i left =>
      obtain ⟨c, hc, hdisconnect⟩ := Option.bind_eq_some_iff.mp hrun
      obtain rfl := Option.some.inj hdisconnect
      split
      · exact spares_disconnect p c _ i left
      · exact spares_refl p _
  | returns quit =>
      obtain rfl := Option.some.inj hrun
      exact spares_refl p _
  | start | reply | select | throw | close | directoryUpdate | drain | notify | teardown =>
      exact absurd hop Bool.false_ne_true

/-- Once the reply socket is selected, the pump comes back to it before it waits. -/
theorem looks_flow (p : Pump) (pc pc' : Pc) (op : Op) (hflow : Flow p pc op pc')
    (hlooks : pc.looks = true) (hp : p.Selected) (hpumping : pc'.pumping.isSome = true) :
    pc'.looks = true ∧ (op.inPass = true
      ∨ ∃ k env z msg left, pc = .external k ∧ op = .reply env z msg left) := by
  cases hflow with
  | idle k now hidle => exact absurd hp.2 (not_lt.mpr hidle)
  | work | again => exact ⟨rfl, .inl rfl⟩
  | external k env z msg left => exact ⟨hp.1, .inr ⟨k, env, z, msg, left, rfl, rfl⟩⟩
  | server k didWork accepted =>
      obtain rfl : didWork = true := hlooks
      exact ⟨rfl, .inl rfl⟩
  | read k idle i didWork ready answer =>
      obtain ⟨hidle, rfl⟩ := Bool.and_eq_true_iff.mp hlooks
      exact ⟨by simp [Pc.looks, hidle], .inl rfl⟩
  | write k idle i didWork ready rc left =>
      obtain ⟨hidle, rfl⟩ := Bool.and_eq_true_iff.mp hlooks
      exact ⟨by simp [Pc.looks, hidle], .inl rfl⟩
  | keepalive | disconnect => exact ⟨hlooks, .inl rfl⟩
  | waits k idle stage i quit => exact absurd hlooks (by simp [Pc.looks])
  | start | select | drain => exact absurd hlooks Bool.false_ne_true
  | quits | drained | close | update | skip | notify | teardown | throw =>
      exact absurd hpumping Bool.false_ne_true

theorem flow_updating (p : Pump) (pc : Pc) (op : Op) (todo : List UInt64)
    (h : Flow p pc op (.updating todo)) : op = .close ∨ ∃ before, pc = .updating before := by
  cases h with
  | close => exact .inl rfl
  | update before => exact .inr ⟨before, rfl⟩

theorem flow_external (p : Pump) (pc : Pc) (op : Op) (k : Caller) (h : Flow p pc op (.external k)) :
    0 < p.outNfds ∧ ∃ now, op = .doWork now := by
  cases h with
  | work _ now hwork => exact ⟨hwork, now, rfl⟩

/-- The pump is entered by `Run` or by `Close`. -/
theorem flow_pumping (p : Pump) (pc pc' : Pc) (op : Op) (h : Flow p pc op pc')
    (hpc : pc'.pumping.isSome = true) :
    pc.pumping.isSome = true ∨ pc = .ready ∨ pc = .updating [] := by
  cases h with
  | start => exact .inr (.inl rfl)
  | drain => exact .inr (.inr rfl)
  | quits | drained | close | update | skip | notify | teardown | throw =>
      exact absurd hpc Bool.false_ne_true
  | idle | work | external | server | read | write | keepalive | disconnect | again | waits
  | select => exact .inl rfl

/-! ## What OnRead returns -/

namespace Provider

/-- The reply is taken: its client is there, and has cancelled the token or RSSL accepts the
    response. -/
def delivers (p : Provider) (env : Env) (msg : Bytes) : Bool :=
  match decodeReply .lengthFirst msg with
  | .error _ => false
  | .ok view =>
      (p.clients view.handle).any fun c =>
        decide (view.token ∉ c.tokens)
          || env.getBuffer && decide (submitStatus env.writes.last ≠ 0)

theorem onReply_ret (p p' : Provider) (env : Env) (msg : Bytes) (ok : Bool) (events : List Event)
    (h : p.onReply env msg = some (ok, p', events)) : ok = p.delivers env msg := by
  unfold onReply at h
  cases hview : decodeReply .lengthFirst msg with
  | error fault =>
      rw [hview] at h
      exact absurd h (by simp)
  | ok view =>
      simp only [hview, sendReply] at h
      simp only [delivers, hview]
      split at h
      · next hnone =>
          obtain ⟨rfl, -⟩ := Prod.mk.inj (Option.some.inj h)
          rw [hnone, Option.any_none]
      · next c hc =>
          obtain ⟨d, hd, hpair⟩ := Option.map_eq_some_iff.mp h
          obtain ⟨rfl, -⟩ := Prod.mk.inj hpair
          rw [hc, Option.any_some]
          rcases sendReply_cases env _ _ _ d hd with
            ⟨hnot, rfl⟩ | ⟨hmem, hbuf, rfl⟩ | ⟨hmem, hbuf, rfl⟩
          · have hnot : view.token ∉ c.tokens := hnot
            simp [hnot]
          · have hmem : view.token ∈ c.tokens := hmem
            simp [submitOrRelease_eq, hmem, hbuf]
          · have hmem : view.token ∈ c.tokens := hmem
            simp [hmem, hbuf]

end Provider

/-- When `OnRead` reports more replies, the reply socket stays selected. -/
theorem Pump.spares_reply (p : Pump) (env : Env) (z : ReadEnv) (msg : Bytes) (left : Option Down)
    (h : Handled) (s : Nat) (hreceives : z.receives = true) (hmore : z.more = true)
    (hdelivers : p.delivers env msg = true) (hrun : p.onReplySocket env z msg left = some h) :
    p.Spares h.pump s := by
  obtain ⟨⟨q, events⟩, hsocket, rfl⟩ := Option.map_eq_some_iff.mp hrun
  obtain ⟨⟨again, q₁, events₁⟩, hread, hpair⟩ := Option.map_eq_some_iff.mp hsocket
  rw [Provider.onRead, if_pos hreceives] at hread
  obtain ⟨⟨ok, q₂, events₂⟩, hreply, hpair₂⟩ := Option.map_eq_some_iff.mp hread
  have hok := Provider.onReply_ret p.toProvider q₂ env msg ok events₂ hreply
  obtain ⟨hagain, hpair₂⟩ := Prod.mk.inj hpair₂
  obtain ⟨rfl, rfl⟩ := Prod.mk.inj hpair₂
  rw [← hagain, hok, hdelivers, hmore] at hpair
  obtain ⟨rfl, rfl⟩ := Prod.mk.inj hpair
  refine spares_trans p { p with toProvider := q₂ } _ s ?_ (spares_leave _ _ s _)
  unfold Provider.onReply at hreply
  split at hreply
  · exact absurd hreply (by simp)
  · unfold Provider.sendReply at hreply
    split at hreply
    · obtain ⟨-, hpair₃⟩ := Prod.mk.inj (Option.some.inj hreply)
      obtain ⟨rfl, -⟩ := Prod.mk.inj hpair₃
      exact ⟨rfl, rfl, id⟩
    · obtain ⟨d, -, hdone⟩ := Option.map_eq_some_iff.mp hreply
      obtain ⟨-, hpair₃⟩ := Prod.mk.inj hdone
      obtain ⟨rfl, -⟩ := Prod.mk.inj hpair₃
      exact ⟨rfl, rfl, id⟩

/-! ## The application -/

namespace Host

/-- When the pump waits in `select`, the queue of replies is empty or its socket is signalled. -/
def NothingStuck (s : Host) : Prop :=
  ∀ k, s.machine.pc = .select k → s.replies = [] ∨ s.signalled = true

/-- A way out of `OnRead` before it reads the events again. -/
def leavesEarly (s : Host) : Act → Bool
  | .events ok | .eventsAgain ok => !ok
  | .receive _ msgInit msgRecv => !(msgInit && msgRecv)
  | .onReply env _ msgClose =>
      match s.reading with
      | some (.replying msg _) => !(s.machine.pump.delivers env msg && msgClose)
      | _ => false
  | _ => false

/-- `OnRead` is left early only when the queue is empty or another reply was pushed since the events
    were read. -/
def KeepsEdge (s : Host) (a : Act) : Prop :=
  s.leavesEarly a = true → s.replies = [] ∨ s.signalled = true

instance (s : Host) (a : Act) : Decidable (s.KeepsEdge a) :=
  inferInstanceAs (Decidable (s.leavesEarly a = true → s.replies = [] ∨ s.signalled = true))

/-- As long as it is open, the reply socket is no other socket of the provider. -/
def OwnReplySocket (s : Host) : Prop :=
  s.phase ≠ .released → s.machine.pump.OwnReplySocket

instance (s : Host) : Decidable s.OwnReplySocket :=
  inferInstanceAs (Decidable (s.phase ≠ .released → s.machine.pump.OwnReplySocket))

/-- A reply that was not announced is about to be found. -/
def Attentive (s : Host) : Prop :=
  s.replies ≠ [] → s.signalled = false → s.machine.pc.pumping.isSome = true →
    s.machine.pc.looks = true ∧ s.machine.pump.Selected

/-- What holds while the edge is kept. -/
structure Watchful (s : Host) : Prop where
  idle : s.machine.pc = .ready → s.replies = [] ∧ s.requests = []
  drained : s.phase = .released → s.replies = []
  closing : ∀ todo, s.machine.pc = .updating todo → s.phase = .released
  working : ∀ k, s.machine.pc = .external k → 0 < s.machine.pump.outNfds
  calls : s.reading.isSome = true → s.callsOnRead = true
  delivered : ∀ msg ask env left, s.reading = some (.rereading msg ask env left) →
    s.machine.pump.delivers env msg = true
  attentive : s.Attentive

theorem nothingStuck_of_watchful (s : Host) (hs : s.Watchful) : s.NothingStuck := by
  intro k hpc
  by_contra hstuck
  obtain ⟨hreplies, hsignal⟩ := not_or.mp hstuck
  have hlooks := (hs.attentive hreplies (Bool.eq_false_iff.mpr hsignal) (by rw [hpc]; rfl)).1
  rw [hpc] at hlooks
  exact absurd hlooks Bool.false_ne_true

/-- Inside `OnRead` the pump is attentive. -/
theorem attentive_of_calls (s : Host) (hs : s.Watchful) (h : s.callsOnRead = true) :
    s.machine.pc.looks = true ∧ s.machine.pump.Selected := by
  obtain ⟨k, hpc, hready⟩ := s.callsOnRead_eq h
  refine ⟨?_, hready, hs.working k hpc⟩
  rw [hpc]
  rfl

/-- A step of the provider leaves the queue of replies alone and is not inside `OnRead` after. -/
theorem advance_keeps (s s' : Host) (op : Op) (mem : Nat → UInt8) (ask : Option Ask)
    (h : s.advance op mem ask = some s') :
    s'.replies = s.replies ∧ s'.signalled = s.signalled ∧ s'.phase = s.phase
      ∧ s'.reading = none := by
  obtain ⟨_, _, _, -, -, -, hs', -⟩ := advance_spec s s' op mem ask h
  rw [hs']
  exact ⟨rfl, rfl, rfl, rfl⟩

theorem watchful_pump (s s' : Host) (op : Op) (mem : Nat → UInt8) (hs : s.Watchful)
    (hown : s.OwnReplySocket) (hadmits : s.admits op = true)
    (h : s.advance op mem none = some s') : s'.Watchful := by
  obtain ⟨hreplies, hsignalled, hphase, hreading⟩ := advance_keeps s s' op mem none h
  obtain ⟨handled, new, sent, hexec, hstep, hpump, -⟩ := advance_spec s s' op mem none h
  obtain ⟨handled', hexec', -, hflow⟩ := control_of_step _ _ op hstep
  obtain rfl := Option.some.inj (hexec.symm.trans hexec')
  refine ⟨fun hpc => ?_, fun hreleased => ?_, fun todo hpc => ?_, fun k hpc => ?_, fun hsome => ?_,
    fun msg ask env left hsome => ?_, fun hqueued hquiet hpumping => ?_⟩
  · rw [hpc] at hflow
    exact absurd hflow (flow_ne_ready _ _ op)
  · rw [hreplies]
    exact hs.drained (hphase ▸ hreleased)
  · rw [hpc] at hflow
    rw [hphase]
    rcases flow_updating _ _ op todo hflow with rfl | ⟨before, hbefore⟩
    · exact of_decide_eq_true (Bool.and_eq_true_iff.mp hadmits).2
    · exact hs.closing before hbefore
  · rw [hpc] at hflow
    obtain ⟨hn, now, rfl⟩ := flow_external _ _ op k hflow
    obtain rfl := Option.some.inj hexec
    rw [hpump]
    exact hn
  · rw [hreading] at hsome
    exact absurd hsome Bool.false_ne_true
  · rw [hreading] at hsome
    exact absurd hsome (by simp)
  · rw [hreplies] at hqueued
    rw [hsignalled] at hquiet
    rcases flow_pumping _ _ _ op hflow hpumping with hwas | hready | hupdating
    · obtain ⟨hlooks, hselected⟩ := hs.attentive hqueued hquiet hwas
      obtain ⟨hlooks', hpass | ⟨k, env, z, msg, left, hpc, rfl⟩⟩ :=
        looks_flow _ _ _ op hflow hlooks hselected hpumping
      · refine ⟨hlooks', ?_⟩
        rw [hpump]
        exact Pump.selected_of_spares _ _
          (Pump.spares_exec _ op handled hexec hpass
            (hown fun hreleased => hqueued (hs.drained hreleased))) hselected
      · -- a reply that is selected is read by `OnRead`
        have hcalls : s.callsOnRead = true := by
          rw [callsOnRead, hpc]
          exact hselected.1
        simp [admits, hcalls] at hadmits
    · exact absurd (hs.idle hready).1 hqueued
    · exact absurd (hs.drained (hs.closing [] hupdating)) hqueued

/-- `OnRead` returns: the rest of the pass follows, with work done. -/
theorem watchful_return (s s' : Host) (env : Env) (z : ReadEnv) (msg : Bytes) (left : Option Down)
    (mem : Nat → UInt8) (ask : Option Ask) (hcalls : s.callsOnRead = true)
    (hdrained : s.phase = .released → s.replies = [])
    (hselected : s.replies ≠ [] → s.signalled = false →
      ∀ handled, s.machine.pump.onReplySocket env z msg left = some handled →
        handled.pump.Selected)
    (h : s.advance (.reply env z msg left) mem ask = some s') : s'.Watchful := by
  obtain ⟨-, -, hready⟩ := s.callsOnRead_eq hcalls
  obtain ⟨hreplies, hsignalled, hphase, hreading⟩ := advance_keeps s s' _ mem ask h
  obtain ⟨handled, new, sent, hexec, hstep, hpump, -⟩ := advance_spec s s' _ mem ask h
  obtain ⟨-, -, -, hflow⟩ := control_of_step _ _ _ hstep
  rw [Pump.exec, if_pos hready] at hexec
  obtain ⟨k, -, hpc'⟩ := flow_reply _ _ _ env z msg left hflow
  rw [hready] at hpc'
  refine ⟨fun hpc => ?_, fun hreleased => ?_, fun todo hpc => ?_, fun k hpc => ?_, fun hsome => ?_,
    fun msg ask env left hsome => ?_, fun hqueued hquiet hpumping => ?_⟩
  · exact absurd (hpc'.symm.trans hpc) (by simp)
  · rw [hreplies]
    exact hdrained (hphase ▸ hreleased)
  · exact absurd (hpc'.symm.trans hpc) (by simp)
  · exact absurd (hpc'.symm.trans hpc) (by simp)
  · rw [hreading] at hsome
    exact absurd hsome Bool.false_ne_true
  · rw [hreading] at hsome
    exact absurd hsome (by simp)
  · rw [hreplies] at hqueued
    rw [hsignalled] at hquiet
    rw [hpc', hpump]
    exact ⟨rfl, hselected hqueued hquiet handled hexec⟩

/-- `OnRead` goes on. -/
theorem watchful_read (s s' : Host) (hs : s.Watchful) (hcalls : s.callsOnRead = true)
    (hmachine : s'.machine = s.machine) (hphase : s'.phase = s.phase)
    (hrequests : s'.requests = s.requests) (hreplies : s.replies = [] → s'.replies = [])
    (hdelivered : ∀ msg ask env left, s'.reading = some (.rereading msg ask env left) →
      s.machine.pump.delivers env msg = true) : s'.Watchful where
  idle hpc := by
    rw [hmachine] at hpc
    rw [hrequests]
    exact ⟨hreplies (hs.idle hpc).1, (hs.idle hpc).2⟩
  drained hreleased := hreplies (hs.drained (hphase ▸ hreleased))
  closing todo hpc := by
    rw [hmachine] at hpc
    rw [hphase]
    exact hs.closing todo hpc
  working k hpc := by
    rw [hmachine] at hpc ⊢
    exact hs.working k hpc
  calls _ := by
    rw [callsOnRead, hmachine]
    exact hcalls
  delivered msg ask env left hreading := by
    rw [hmachine]
    exact hdelivered msg ask env left hreading
  attentive _ _ _ := by
    rw [hmachine]
    exact s.attentive_of_calls hs hcalls

/-- A step next to the provider. -/
theorem watchful_beside (s s' : Host) (hs : s.Watchful) (hmachine : s'.machine = s.machine)
    (hreading : s'.reading = s.reading)
    (hidle : s.replies = [] ∧ s.requests = [] → s'.replies = [] ∧ s'.requests = [])
    (hdrained : s'.phase = .released → s'.replies = [])
    (hclosing : s.phase = .released → s'.phase = .released)
    (hedge : s'.replies = [] ∨ s'.signalled = true
      ∨ s'.replies = s.replies ∧ s'.signalled = s.signalled) : s'.Watchful where
  idle hpc := by
    rw [hmachine] at hpc
    exact hidle (hs.idle hpc)
  drained := hdrained
  closing todo hpc := by
    rw [hmachine] at hpc
    exact hclosing (hs.closing todo hpc)
  working k hpc := by
    rw [hmachine] at hpc ⊢
    exact hs.working k hpc
  calls hsome := by
    rw [hreading] at hsome
    rw [callsOnRead, hmachine]
    exact hs.calls hsome
  delivered msg ask env left hsome := by
    rw [hreading] at hsome
    rw [hmachine]
    exact hs.delivered msg ask env left hsome
  attentive hqueued hquiet hpumping := by
    rw [hmachine] at hpumping ⊢
    rcases hedge with hempty | hsignal | ⟨hreplies, hsignalled⟩
    · exact absurd hempty hqueued
    · exact absurd (hquiet.symm.trans hsignal) Bool.false_ne_true
    · exact hs.attentive (hreplies ▸ hqueued) (hsignalled ▸ hquiet) hpumping

/-- **What holds while the edge is kept is preserved by every step that keeps it.** -/
theorem watchful_step (s s' : Host) (a : Act) (hs : s.Watchful)
    (hown : s.OwnReplySocket) (hkeeps : s.KeepsEdge a) (h : s.step a = some s') :
    s'.Watchful := by
  -- leaving early is harmless
  have hleft : s.leavesEarly a = true → s.replies ≠ [] → s.signalled = false → False := by
    intro hearly hqueued hquiet
    rcases hkeeps hearly with hempty | hsignal
    · exact hqueued hempty
    · exact absurd (hquiet.symm.trans hsignal) Bool.false_ne_true
  cases a with
  | pump op mem =>
      obtain ⟨hadmits, h⟩ := Option.ite_none_right_eq_some.mp h
      exact watchful_pump s s' op mem hs hown hadmits h
  | events ok =>
      obtain ⟨⟨hcalls, -⟩, h⟩ := Option.ite_none_right_eq_some.mp h
      split at h
      · simp only at h
        split at h
        · next hempty =>
            refine watchful_return { s with signalled := false } s' _ _ _ _ _ _ hcalls hs.drained
              (fun hqueued => ?_) h
            exact absurd (List.isEmpty_iff.mp hempty) hqueued
        · obtain rfl := Option.some.inj h
          exact watchful_read s _ hs hcalls rfl rfl rfl id fun _ _ _ _ hsome =>
            absurd hsome (by simp)
      · next hfails =>
          refine watchful_return s s' _ _ _ _ _ _ hcalls hs.drained
            (fun hqueued hquiet => False.elim ?_) h
          cases ok with
          | false => exact hleft rfl hqueued hquiet
          | true =>
              have hreleased : s.phase = .released := by simpa using hfails
              exact hqueued (hs.drained hreleased)
  | receive i msgInit msgRecv =>
      simp only [step] at h
      split at h
      · next msg ask hreading hget =>
          have hcalls := hs.calls (by rw [hreading]; rfl)
          split at h
          · obtain rfl := Option.some.inj h
            refine watchful_read s _ hs hcalls rfl rfl rfl (fun hempty => ?_) fun _ _ _ _ hsome =>
              absurd hsome (by simp)
            rw [hempty] at hget
            exact absurd hget (by simp)
          · next hfails =>
              refine watchful_return s s' _ _ _ _ _ _ hcalls hs.drained
                (fun hqueued hquiet => (hleft ?_ hqueued hquiet).elim) h
              rw [leavesEarly, Bool.eq_false_iff.mpr hfails]
              rfl
      · exact absurd h (by simp)
  | onReply env left msgClose =>
      simp only [step] at h
      split at h
      · next msg ask hreading =>
          have hcalls := hs.calls (by rw [hreading]; rfl)
          obtain ⟨⟨ok, p', events⟩, hreply, h⟩ := Option.bind_eq_some_iff.mp h
          have hok := Provider.onReply_ret _ p' env msg ok events hreply
          split at h
          · next hgoes =>
              obtain rfl := Option.some.inj h
              refine watchful_read s _ hs hcalls rfl rfl rfl id fun msg' ask' env' left' hsome => ?_
              obtain ⟨rfl, -, rfl, -⟩ := ReadPc.rereading.inj (Option.some.inj hsome)
              rw [← hok]
              exact (Bool.and_eq_true_iff.mp hgoes).1
          · next hfails =>
              refine watchful_return s s' _ _ _ _ _ _ hcalls hs.drained
                (fun hqueued hquiet => (hleft ?_ hqueued hquiet).elim) h
              rw [hok] at hfails
              simp only [leavesEarly, hreading, Bool.eq_false_iff.mpr hfails, Bool.not_false]
      · exact absurd h (by simp)
  | eventsAgain ok =>
      simp only [step] at h
      split at h
      · next msg ask env left hreading =>
          have hcalls := hs.calls (by rw [hreading]; rfl)
          refine watchful_return { s with signalled := !ok && s.signalled } s' _ _ _ _ _ _ hcalls
            hs.drained (fun hqueued hquiet handled hrun => ?_) h
          have hqueued : s.replies ≠ [] := hqueued
          cases ok with
          | false => exact (hleft rfl hqueued hquiet).elim
          | true =>
              have hmore : (⟨some true, true, true, true, some !s.replies.isEmpty⟩ : ReadEnv).more
                  = true := by
                simp [ReadEnv.more, List.isEmpty_eq_false_iff.mpr hqueued]
              exact Pump.selected_of_spares _ _ (Pump.spares_reply _ env _ msg left handled _ rfl
                hmore (hs.delivered msg ask env left hreading) hrun)
                (s.attentive_of_calls hs hcalls).2
      · exact absurd h (by simp)
  | worker i mem rssl =>
      obtain ⟨hphase, h⟩ := Option.ite_none_right_eq_some.mp h
      obtain ⟨⟨msg, ask⟩, hget, h⟩ := Option.bind_eq_some_iff.mp h
      obtain ⟨answer, -, rfl⟩ := Option.map_eq_some_iff.mp h
      refine watchful_beside s _ hs rfl rfl (fun hempty => ?_) (fun hreleased => ?_) id
        (.inr (.inl rfl))
      · rw [hempty.2] at hget
        exact absurd hget (by simp)
      · have hreleased : s.phase = .released := hreleased
        rw [hreleased] at hphase
        exact absurd hphase (by simp)
  | workerStops i =>
      obtain rfl := Option.some.inj h
      refine watchful_beside s _ hs rfl rfl (fun hempty => ⟨hempty.1, ?_⟩) hs.drained id
        (.inr (.inr ⟨rfl, rfl⟩))
      simp [hempty.2]
  | abortWorkers =>
      obtain ⟨⟨hrunning, -⟩, h⟩ := Option.ite_none_right_eq_some.mp h
      obtain rfl := Option.some.inj h
      refine watchful_beside s _ hs rfl rfl id (fun hreleased => absurd hreleased (by simp))
        (fun hreleased => ?_) (.inr (.inr ⟨rfl, rfl⟩))
      exact absurd (hrunning.symm.trans hreleased) (by simp)
  | joinWorkers =>
      obtain ⟨⟨haborting, -⟩, h⟩ := Option.ite_none_right_eq_some.mp h
      obtain rfl := Option.some.inj h
      refine watchful_beside s _ hs rfl rfl id (fun hreleased => absurd hreleased (by simp))
        (fun hreleased => ?_) (.inr (.inr ⟨rfl, rfl⟩))
      exact absurd (haborting.symm.trans hreleased) (by simp)
  | releaseSockets =>
      obtain ⟨-, h⟩ := Option.ite_none_right_eq_some.mp h
      obtain rfl := Option.some.inj h
      exact watchful_beside s _ hs rfl rfl (fun hempty => ⟨rfl, hempty.2⟩) (fun _ => rfl)
        (fun _ => rfl) (.inl rfl)

theorem watchful_init (s : Host) (hs : s.Initial) : s.Watchful := by
  obtain ⟨hmachine, hrequests, hreplies, hreading, -, -⟩ := hs
  have hready := hmachine.1
  refine ⟨fun _ => ⟨hreplies, hrequests⟩, fun _ => hreplies, fun todo hpc => ?_, fun k hpc => ?_,
    fun hsome => ?_, fun msg ask env left hsome => ?_, fun hqueued => absurd hreplies hqueued⟩
  · exact absurd (hready.symm.trans hpc) (by simp)
  · exact absurd (hready.symm.trans hpc) (by simp)
  · rw [hreading] at hsome
    exact absurd hsome Bool.false_ne_true
  · rw [hreading] at hsome
    exact absurd hsome (by simp)

end Host

/-- **No reply is stuck in a run in which `OnRead` is only left early when nothing unannounced is
    queued**, the reply socket being no other socket of the provider while it is open. -/
theorem nothing_stuck (s₀ : Host) (p : Steps Host Act) (hrun : hostSystem.Run s₀ p)
    (hown : Along (fun s _ _ => s.OwnReplySocket) s₀ p)
    (hkeeps : Along (fun s a _ => s.KeepsEdge a) s₀ p) :
    s₀.NothingStuck ∧ Along (fun _ _ s' => s'.NothingStuck) s₀ p := by
  let taken : Host → Act → Host → Prop := fun s a s' =>
    (s.step a = some s' ∧ s.OwnReplySocket) ∧ s.KeepsEdge a
  have hinit := s₀.watchful_init hrun.1
  have hall : Along taken s₀ p :=
    (along_and _ _ s₀ p).mpr ⟨(along_and _ _ s₀ p).mpr ⟨hrun.2, hown⟩, hkeeps⟩
  have hinv := along_invariant taken Host.Watchful
    (fun s a s' hs h => Host.watchful_step s s' a hs h.1.2 h.2 h.1.1) s₀ p hinit hall
  exact ⟨s₀.nothingStuck_of_watchful hinit,
    along_imp _ _ (fun _ _ s' h => s'.nothingStuck_of_watchful h.2) s₀ p hinv.1⟩

namespace Host

/-- The answer is read while the consumer waits for it. -/
def askedAndAnswered : List Act :=
  consumerAsks [5] ++ [.worker 0 (fun _ => 0) Server.emptyReply] ++ pumps [.select 1 {4} ∅ ∅]
    ++ passReading [.events true, .receive 0 true true, .onReply willingEnv none true,
      .eventsAgain true] (visit 0 .nothing)
    ++ pumps (passOver 5 none (visit 0 .nothing))

/-- The consumer is gone when its two replies come. -/
def repliesToNobody : List Act :=
  consumerAsks [5, 6] ++ pumps ([.select 1 ∅ ∅ {1024}] ++ passOver 4 none (visit 0 .nothing))
    ++ [.worker 0 (fun _ => 0) Server.emptyReply, .worker 0 (fun _ => 0) Server.emptyReply]
    ++ pumps [.select 1 {4} ∅ ∅]
    ++ passReading [.events true, .receive 0 true true, .onReply willingEnv none true] []
    ++ pumps (passOver 6 none [])

end Host

section Replay

set_option maxRecDepth 40000

theorem askedOnce_nothingStuck :
    ∃ p, replay Host.step Host.bound Host.askedAndAnswered = some p
      ∧ Along (fun _ _ s' => s'.NothingStuck) Host.bound p := by
  refine ⟨_, rfl, (nothing_stuck Host.bound _
    (run_replay _ Host.step Host.bound Host.askedAndAnswered _ Host.bound_init rfl) ?_ ?_).2⟩
  · decide +kernel
  · decide +kernel

/-- The second reply is in the queue and will not be announced. -/
theorem repliesToNobody_stuck :
    ∃ p, hostSystem.Run Host.bound p
      ∧ replay Host.step Host.bound Host.repliesToNobody = some p
      ∧ ¬ (last Host.bound p).NothingStuck := by
  refine ⟨_, run_replay _ Host.step Host.bound Host.repliesToNobody _ Host.bound_init rfl, rfl,
    fun h => ?_⟩
  exact absurd (h .run rfl) (by decide)

end Replay

end Hitsuji
