import Hitsuji.Provider.Timeouts

set_option autoImplicit false

/-! # Keepalive timeouts

`DoWork` aborts a session when `last_activity_` reaches its deadline, which is meant to be one
timeout after the channel was last heard from. A ghost remembers when that was: `heard` has, for
each channel, the time of every `rsslReadEx` that returned received bytes.

A part of a fragmented message comes with a null buffer and does not move the deadline, so a
consumer can be aborted while its message arrives. Where no message is received in parts and the
clock does not go back, every abort is justified. -/

namespace Hitsuji

open Transition

/-! ## What is received -/

/-- A step of the provider, and what it receives besides. -/
structure Noted where
  op : Op
  /-- a null buffer that `rsslReadEx` returns stands for a part of a message, not for no data -/
  fragment : Bool

/-- The clock that `DoWork` reads. -/
def Op.now : Op → Option Nat
  | .doWork now => some now
  | _ => none

namespace Pump

/-- The channel from which a part of a message is received, the rest being still to come. -/
def receivesPart (p : Pump) (e : Noted) : Option UInt64 :=
  match e.op with
  | .read i (.readEx (.data _ none _) _) => if e.fragment then p.reads i .active else none
  | _ => none

/-- The channel from which bytes are received. -/
def hears (p : Pump) (e : Noted) : Option UInt64 :=
  (p.defers e.op).or (p.receivesPart e)

/-- The connection that `DoWork` aborts for a pong timeout. -/
def pongTimeout (p : Pump) : Op → Option UInt64
  | .keepalive i _ _ =>
      p.connections[i]?.filter fun c =>
        decide ((p.links c).userSpecPtr ≠ none ∧ (p.links c).state = .active)
          && ((p.pointee c).bind p.clients).any fun client =>
            decide (client.nextPong ≤ p.view.lastActivity)
  | _ => none

/-- What times out is an active session past its deadline. -/
theorem pongTimeout_eq_some (p : Pump) (op : Op) (c : UInt64) (h : p.pongTimeout op = some c) :
    ∃ i rc left client, op = .keepalive i rc left ∧ p.connections[i]? = some c
      ∧ ((p.links c).userSpecPtr ≠ none ∧ (p.links c).state = .active)
      ∧ (p.pointee c).bind p.clients = some client ∧ client.nextPong ≤ p.view.lastActivity := by
  unfold pongTimeout at h
  split at h
  · next i rc left =>
      obtain ⟨hc, htimeout⟩ := Option.filter_eq_some_iff.mp h
      obtain ⟨hactive, hany⟩ := (Bool.and_eq_true _ _).mp htimeout
      obtain ⟨client, hclient, hdue⟩ := (Option.any_eq_true _ _).mp hany
      exact ⟨i, rc, left, client, rfl, hc, of_decide_eq_true hactive, hclient,
        of_decide_eq_true hdue⟩
  · exact absurd h (by simp)

/-- It is marked for its disconnect. -/
theorem marks_of_pongTimeout (p : Pump) (op : Op) (c : UInt64) (h : p.pongTimeout op = some c) :
    p.marks op = some c := by
  obtain ⟨i, rc, left, client, rfl, hc, hactive, hclient, hdue⟩ := p.pongTimeout_eq_some op c h
  rw [marks]
  refine Option.filter_eq_some_iff.mpr ⟨hc, ?_⟩
  rw [keepaliveMarks, decide_eq_true hactive, hclient, Option.any_some, decide_eq_true hdue,
    Bool.or_true, Bool.and_true]

/-- Whom else the keepalive marks had its `Ping` fail. -/
theorem pongTimeout_of_marks (p : Pump) (i : Nat) (rc : RsslRet) (left : Option Down) (c : UInt64)
    (hping : rc.forcesDisconnect = false) (h : p.marks (.keepalive i rc left) = some c) :
    p.pongTimeout (.keepalive i rc left) = some c := by
  obtain ⟨hc, hmarks⟩ := Option.filter_eq_some_iff.mp h
  rw [pongTimeout]
  refine Option.filter_eq_some_iff.mpr ⟨hc, ?_⟩
  simpa only [keepaliveMarks, hping, Bool.and_false, Bool.false_or] using hmarks

/-! ## Connections from one step to the next -/

/-- A connection was there before or is accepted. -/
theorem connected_before (p : Pump) (op : Op) (h : Handled) (hrun : p.exec op = some h)
    (c : UInt64) (hc : c ∈ h.pump.connections)
    (hold : ∀ a ∈ p.admits op.accepted, a.handle ≠ c) : c ∈ p.connections := by
  by_cases hgives : ∃ s, p.gives op = some (c, s)
  · obtain ⟨s, hgives⟩ := hgives
    rcases p.gives_cases op c s hgives with ⟨accepted, a, rfl, hadmits, hc, -⟩
      | ⟨i, session, left, -, hreading, -⟩ | ⟨i, left, -, hreading, -⟩
    · exact absurd hc.symm (hold a hadmits)
    · exact List.mem_of_getElem? hreading.position
    · exact List.mem_of_getElem? hreading.position
  · exact (p.kept_of_not_given op h hrun c hc (not_exists.mp hgives)).1

/-- A connection that still initialises did so before. -/
theorem initializing_before (p : Pump) (op : Op) (h : Handled) (hrun : p.exec op = some h)
    (hnew : p.AcceptsNew op) (c : UInt64) (hc : c ∈ p.connections)
    (hstays : c ∈ h.pump.connections) (hstate : (h.pump.links c).state = .initializing) :
    (p.links c).state = .initializing := by
  have hactivated : ∀ (k : UInt64) (link : Link), link.state = .active →
      h.pump.links = Function.update p.links k link → (p.links c).state = .initializing := by
    intro k link hactive hlinks
    rw [hlinks] at hstate
    by_cases hk : c = k
    · rw [hk, Function.update_self, hactive] at hstate
      exact absurd hstate (by simp)
    · rwa [Function.update_of_ne hk] at hstate
  cases course_exec p op h hrun with
  | settles hsettles => exact state_of_settles p _ hsettles c hstays _ (.inl rfl) hstate
  | accepted a hop hlinks hconnections hsessions =>
      rw [hlinks] at hstate
      by_cases hk : c = a.handle
      · exact absurd (hk ▸ hc) (hnew a hop)
      · rwa [Function.update_of_ne hk] at hstate
  | threw k link hswallows hactive hlinks => exact hactivated k link hactive hlinks
  | opened k link address hk hbefore hactive hptr hfresh hlinks =>
      exact hactivated k link hactive hlinks

/-- A connection whose pointer leads nowhere has no client. -/
theorem nextPong_of_pointee (p : Pump) (hcoherent : p.Coherent) (hbooked : p.Booked) (c : UInt64)
    (hc : c ∈ p.connections) (hnobody : p.pointee c = none) : p.timeouts.nextPong c = none := by
  rcases backed_of_booked p hcoherent hbooked c hc with hnull | ⟨_, _, -, -, -, hpointee⟩
  · have hkey : c ∉ p.keys := by
      intro hkey
      obtain ⟨⟨k, address⟩, hentry, rfl⟩ := List.mem_map.mp hkey
      have hptr := (hbooked.pointer k hc address).mpr hentry
      exact absurd (hnull.symm.trans hptr) (by simp)
    have hclient : p.clients c = none := by
      rw [← Option.not_isSome_iff_eq_none, hcoherent.hasClient c]
      exact hkey
    simp only [timeouts, hclient, Option.map_none]
  · exact absurd (hnobody.symm.trans hpointee) (by simp)

/-- The pointer of a connection leads to its own client. -/
theorem pointee_of_booked (p : Pump) (hcoherent : p.Coherent) (hbooked : p.Booked) (c k : UInt64)
    (hc : c ∈ p.connections) (hpointee : p.pointee c = some k) : k = c := by
  rcases backed_of_booked p hcoherent hbooked c hc with hnull | ⟨_, _, -, -, -, hself⟩
  · rw [pointee, hnull, Option.bind_none] at hpointee
    exact absurd hpointee (by simp)
  · exact Option.some.inj (hpointee.symm.trans hself)

/-- The clock goes the way `DoWork` reads it. -/
theorem lastActivity_exec (p : Pump) (op : Op) (h : Handled) (hrun : p.exec op = some h)
    (hclock : ∀ now ∈ op.now, p.view.lastActivity ≤ now) :
    p.timeouts.lastActivity ≤ h.pump.timeouts.lastActivity := by
  cases timing_exec p op h hrun with
  | clock now hop htimes =>
      subst hop
      rw [htimes]
      exact hclock now rfl
  | kept _ htimes | accepted _ _ htimes | activated _ _ _ _ _ htimes | deferred _ _ _ _ htimes
  | removed _ _ htimes =>
      exact (congrArg Timeouts.lastActivity htimes).ge

end Pump

/-! ## The ghost -/

/-- The provider, and when it heard from its channels. -/
structure Listener extends Machine where
  /-- `last_activity_` at each `rsslReadEx` that returned received bytes -/
  heard : UInt64 → List Nat

namespace Listener

/-- What was heard, after a step; a channel that is accepted is a new one. -/
def hear (l : Listener) (e : Noted) : UInt64 → List Nat :=
  match l.pump.admits e.op.accepted, l.pump.hears e with
  | some a, _ => Function.update l.heard a.handle []
  | none, some c => Function.update l.heard c (l.pump.view.lastActivity :: l.heard c)
  | none, none => l.heard

/-- One step. -/
def step (l : Listener) (e : Noted) : Option Listener :=
  (l.toMachine.step e.op).map fun m => ⟨m, l.hear e⟩

/-- Nothing was heard yet. -/
def init (l : Listener) : Prop :=
  l.toMachine.init ∧ ∀ c, l.heard c = []

/-- The session aborted for a pong timeout was not heard from since its timeout before. -/
def Justifies (l : Listener) (e : Noted) : Prop :=
  ∀ c ∈ l.pump.pongTimeout e.op, ∀ t ∈ l.heard c,
    t + (l.pump.channels c).pingTimeout ≤ l.pump.view.lastActivity

instance (l : Listener) (e : Noted) : Decidable (l.Justifies e) :=
  inferInstanceAs (Decidable (∀ c ∈ l.pump.pongTimeout e.op, _))

/-- No part of a message is received and the clock does not go back; no exception is swallowed that
    leaves a pointer behind, and channels that are accepted are new. -/
def Attends (l : Listener) (e : Noted) : Prop :=
  l.pump.receivesPart e = none
    ∧ (∀ now ∈ e.op.now, l.pump.view.lastActivity ≤ now)
    ∧ (∀ c ∈ l.pump.swallows e.op, e.op.throwsEarly = true)
    ∧ l.pump.AcceptsNew e.op

instance (l : Listener) (e : Noted) : Decidable (l.Attends e) :=
  inferInstanceAs (Decidable (_ ∧ _ ∧ _ ∧ _))

/-- What was heard is in the past, and no deadline comes before its timeout. -/
structure Timely (l : Listener) : Prop where
  coherent : l.pump.Coherent
  fresh : l.pump.Fresh
  booked : l.pump.Booked
  unheard : ∀ c ∈ l.pump.connections, (l.pump.links c).state = .initializing → l.heard c = []
  past : ∀ c, ∀ t ∈ l.heard c, t ≤ l.pump.view.lastActivity
  deadlines : ∀ c ∈ l.pump.connections, ∀ deadline ∈ l.pump.timeouts.nextPong c, ∀ t ∈ l.heard c,
    t + l.pump.timeouts.pingTimeout c ≤ deadline

theorem timely_init (l : Listener) (hl : l.init) : l.Timely := by
  obtain ⟨hmachine, hnothing⟩ := hl
  have hguarded := l.toMachine.guarded_init hmachine
  refine ⟨hguarded.coherent, hguarded.fresh, hguarded.booked, ?_, ?_, ?_⟩
  · exact fun c _ _ => hnothing c
  · intro c t ht
    rw [hnothing c] at ht
    exact absurd ht List.not_mem_nil
  · intro c _ deadline _ t ht
    rw [hnothing c] at ht
    exact absurd ht List.not_mem_nil

/-- Where nothing comes in parts, what was heard was heard before or moves the deadline now. -/
theorem mem_hear (l : Listener) (e : Noted) (c : UInt64) (t : Nat)
    (hwhole : l.pump.receivesPart e = none) (ht : t ∈ l.hear e c) :
    (∀ a ∈ l.pump.admits e.op.accepted, a.handle ≠ c)
      ∧ (t ∈ l.heard c ∨ l.pump.defers e.op = some c ∧ t = l.pump.view.lastActivity) := by
  cases hadmits : l.pump.admits e.op.accepted with
  | some a =>
      simp only [hear, hadmits] at ht
      have hne : c ≠ a.handle := by
        rintro rfl
        rw [Function.update_self] at ht
        exact absurd ht List.not_mem_nil
      rw [Function.update_of_ne hne] at ht
      refine ⟨fun a' ha' => ?_, .inl ht⟩
      obtain rfl := Option.some.inj ha'
      exact hne.symm
  | none =>
      refine ⟨nofun, ?_⟩
      cases hhears : l.pump.hears e with
      | none =>
          simp only [hear, hadmits, hhears] at ht
          exact .inl ht
      | some k =>
          simp only [hear, hadmits, hhears] at ht
          rw [Pump.hears, hwhole, Option.or_none] at hhears
          by_cases hk : c = k
          · subst hk
            rw [Function.update_self] at ht
            rcases List.mem_cons.mp ht with hnow | hold
            · exact .inr ⟨hhears, hnow⟩
            · exact .inl hold
          · rw [Function.update_of_ne hk] at ht
            exact .inl ht

/-- A channel whose deadline is moved is an active connection. -/
theorem active_of_defers (p : Pump) (op : Op) (c : UInt64) (h : p.defers op = some c) :
    c ∈ p.connections ∧ (p.links c).state = .active := by
  unfold Pump.defers at h
  split at h
  · next i ret left =>
      obtain ⟨-, hreads⟩ := Option.ite_none_right_eq_some.mp h
      obtain ⟨hreading, hactive⟩ := (p.reads_eq_some i .active c).mp hreads
      exact ⟨List.mem_of_getElem? hreading.position, hactive⟩
  · exact absurd h (by simp)

/-- **A deadline is never less than one timeout after the channel was last heard from.** -/
theorem deadlines_step (l : Listener) (e : Noted) (h : Handled) (hl : l.Timely)
    (hwhole : l.pump.receivesPart e = none) (hexec : l.pump.exec e.op = some h) (c : UInt64)
    (hc : c ∈ h.pump.connections) (deadline : Nat)
    (hdeadline : deadline ∈ h.pump.timeouts.nextPong c) (t : Nat) (ht : t ∈ l.hear e c) :
    t + h.pump.timeouts.pingTimeout c ≤ deadline := by
  obtain ⟨hold, hheard⟩ := l.mem_hear e c t hwhole ht
  have hmem := l.pump.connected_before e.op h hexec c hc hold
  -- a step that moves no deadline hears nothing
  have hquiet : l.pump.defers e.op = none → t ∈ l.heard c := by
    intro hquiet
    exact hheard.resolve_right fun hnow => absurd (hquiet.symm.trans hnow.1) (by simp)
  cases l.pump.timing_exec e.op h hexec with
  | kept hnobody htimes =>
      rw [htimes] at hdeadline ⊢
      rcases hheard with hbefore | ⟨hdefers, -⟩
      · exact hl.deadlines c hmem deadline hdeadline t hbefore
      · rw [hdefers, Option.bind_some] at hnobody
        have hnone := l.pump.nextPong_of_pointee hl.coherent hl.booked c hmem hnobody
        exact absurd (hnone.symm.trans hdeadline) (by simp)
  | clock now hop htimes =>
      rw [htimes] at hdeadline ⊢
      exact hl.deadlines c hmem deadline hdeadline t (hquiet (by rw [hop]; rfl))
  | accepted a hadmits htimes =>
      simp only [htimes, Function.update_of_ne (hold a hadmits).symm] at hdeadline ⊢
      refine hl.deadlines c hmem deadline hdeadline t (hquiet ?_)
      cases hop : e.op with
      | read => simp [hop, Op.accepted, Pump.admits] at hadmits
      | _ => rfl
  | activated k pingTimeout nextPong hnone hstate htimes =>
      have hbefore := hquiet hnone
      by_cases hk : c = k
      · subst hk
        rw [hl.unheard c hmem hstate] at hbefore
        exact absurd hbefore List.not_mem_nil
      · simp only [htimes, Pump.negotiated, Function.update_of_ne hk] at hdeadline ⊢
        exact hl.deadlines c hmem deadline hdeadline t hbefore
  | deferred k pointee hdefers hpointee htimes =>
      obtain ⟨hconnected, -⟩ := active_of_defers l.pump e.op k hdefers
      obtain rfl := l.pump.pointee_of_booked hl.coherent hl.booked k pointee hconnected hpointee
      by_cases hk : c = pointee
      · subst hk
        simp only [htimes, Pump.deferring, Function.update_self] at hdeadline ⊢
        obtain rfl := Option.some.inj hdeadline
        have hpast : t ≤ l.pump.view.lastActivity := by
          rcases hheard with hbefore | ⟨-, rfl⟩
          · exact hl.past c t hbefore
          · exact Nat.le_refl _
        exact Nat.add_le_add_right hpast _
      · simp only [htimes, Pump.deferring, Function.update_of_ne hk] at hdeadline ⊢
        have hbefore := hheard.resolve_right fun hnow =>
          hk (Option.some.inj (hnow.1.symm.trans hdefers))
        exact hl.deadlines c hmem deadline hdeadline t hbefore
  | removed gone hnone htimes =>
      rw [htimes] at hdeadline ⊢
      obtain ⟨-, hdeadline⟩ := Option.ite_none_left_eq_some.mp hdeadline
      exact hl.deadlines c hmem deadline hdeadline t (hquiet hnone)

theorem timely_step (l l' : Listener) (e : Noted) (hl : l.Timely) (hstep : l.step e = some l')
    (hattends : l.Attends e) : l'.Timely := by
  obtain ⟨m, hm, rfl⟩ := Option.map_eq_some_iff.mp hstep
  obtain ⟨h, pc, hexec, -, rfl⟩ := (step_eq_some _ _ _).mp hm
  obtain ⟨hwhole, hclock, hearly, hnew⟩ := hattends
  refine ⟨?_, ?_, ?_, fun c hc hstate => ?_, fun c t ht => ?_, ?_⟩
  · exact Pump.coherent_exec l.pump e.op h hl.coherent hexec
  · exact Pump.fresh_exec l.pump e.op h hl.fresh hexec
  · exact Pump.booked_exec l.pump e.op h hl.coherent hl.fresh hnew hearly hexec hl.booked
  · refine List.eq_nil_iff_forall_not_mem.mpr fun t ht => ?_
    obtain ⟨hold, hheard⟩ := l.mem_hear e c t hwhole ht
    have hmem := l.pump.connected_before e.op h hexec c hc hold
    have hbefore := l.pump.initializing_before e.op h hexec hnew c hmem hc hstate
    rcases hheard with hbefore' | ⟨hdefers, -⟩
    · rw [hl.unheard c hmem hbefore] at hbefore'
      exact absurd hbefore' List.not_mem_nil
    · obtain ⟨-, hactive⟩ := active_of_defers l.pump e.op c hdefers
      exact absurd (hbefore.symm.trans hactive) (by simp)
  · refine le_trans ?_ (l.pump.lastActivity_exec e.op h hexec hclock)
    rcases (l.mem_hear e c t hwhole ht).2 with hbefore | ⟨-, rfl⟩
    · exact hl.past c t hbefore
    · exact Nat.le_refl _
  · exact fun c hc deadline hdeadline t ht =>
      l.deadlines_step e h hl hwhole hexec c hc deadline hdeadline t ht

/-- A session past its deadline has not been heard from for one timeout. -/
theorem justifies_of_timely (l : Listener) (e : Noted) (hl : l.Timely) : l.Justifies e := by
  intro c hc t ht
  obtain ⟨i, rc, left, client, -, hposition, -, hclient, hdue⟩ :=
    l.pump.pongTimeout_eq_some e.op c hc
  have hmem := List.mem_of_getElem? hposition
  obtain ⟨k, hpointee, hstored⟩ := Option.bind_eq_some_iff.mp hclient
  obtain rfl := l.pump.pointee_of_booked hl.coherent hl.booked c k hmem hpointee
  have hdeadline : client.nextPong ∈ l.pump.timeouts.nextPong k :=
    Option.mem_map_of_mem Client.nextPong hstored
  exact (hl.deadlines k hmem client.nextPong hdeadline t ht).trans hdue

end Listener

/-- The provider listening to its channels. -/
def listenerSystem : System Listener Noted :=
  .ofFn Listener.init Listener.step

/-- The ghost takes no part in what the provider does. -/
theorem listener_simulates : Simulates listenerSystem pumpSystem Listener.toMachine := by
  refine ⟨fun l hl => hl.1, fun l e l' hstep => .inr ⟨e.op, ?_⟩⟩
  obtain ⟨m, hm, rfl⟩ := Option.map_eq_some_iff.mp hstep
  exact hm

/-- **A session is aborted for a pong timeout only if nothing was received from it for the time
    agreed on**, in every run in which messages are received whole and the clock does not go back,
    if no pointer to a client is left behind. -/
theorem pongTimeouts_justified (l : Listener) (p : Steps Listener Noted)
    (hrun : listenerSystem.Run l p) (hattends : Along (fun l e _ => l.Attends e) l p) :
    Along (fun l e _ => l.Justifies e) l p := by
  have hall := (along_and _ _ l p).mpr ⟨hrun.2, hattends⟩
  have hinv := along_invariant _ Listener.Timely
    (fun l e l' hl h => l.timely_step l' e hl h.1 h.2) l p (l.timely_init hrun.1) hall
  exact along_imp _ _ (fun l e l' h => l.justifies_of_timely e h.1) l p hinv.1

/-- Nothing happened yet. -/
def Listener.bound : Listener :=
  ⟨.bound, fun _ => []⟩

theorem listener_bound_init : listenerSystem.init Listener.bound :=
  ⟨bound_init, fun _ => rfl⟩

/-- The consumer is readable and `rsslReadEx` returns `ret`; then there is nothing to do. -/
def hearAt (now : Nat) (ret : ReadEx) : List Op :=
  [.select 1 {1024} ∅ ∅] ++ passOver now none (visit 0 (.readEx ret none))
    ++ passOver now none (visit 0 .nothing)

/-- A consumer is heard from, and the pass after a timeout comes at `later`. -/
def hearConsumer (reads : List (Nat × ReadEx)) (later : Nat) : List Noted :=
  let ops : List Op := connectConsumer ++ activateConsumer (.initialized 1 0 true)
    ++ reads.flatMap (fun read => hearAt read.1 read.2)
    ++ [.select 0 ∅ ∅ ∅, .doWork later, .keepalive 0 .success none, .disconnect 0 .closed,
      .returns false]
  ops.map fun op => ⟨op, true⟩

/-- It answers pings and falls silent. -/
def silentConsumer : List Noted :=
  hearConsumer [(20, .ping), (40, .ping)] 100

/-- Part of its message arrives at 61, and the session is aborted at 62. -/
def sendingConsumer : List Noted :=
  hearConsumer [(61, .data false none none)] 62

/-- It answers a ping at 50 and one at 10, the clock having gone back, and is aborted at 70. -/
def clockSetBack : List Noted :=
  hearConsumer [(50, .ping), (10, .ping)] 70

section Replay

set_option maxRecDepth 20000

theorem silentConsumer_justified :
    ∃ p, replay Listener.step Listener.bound silentConsumer = some p
      ∧ (last Listener.bound p).pump.connections = []
      ∧ Along (fun l e _ => l.Justifies e) Listener.bound p :=
  ⟨_, rfl, rfl, pongTimeouts_justified Listener.bound _
    (run_replay _ Listener.step Listener.bound silentConsumer _ listener_bound_init rfl)
    (by decide)⟩

/-- Parts of a message count for nothing; and where the clock goes back, so does the deadline. -/
theorem pongTimeouts_unjustified :
    (∃ p, listenerSystem.Run Listener.bound p
        ∧ replay Listener.step Listener.bound sendingConsumer = some p
        ∧ (last Listener.bound p).pump.connections = []
        ∧ ¬ Along (fun l e _ => l.Justifies e) Listener.bound p)
      ∧ ∃ p, listenerSystem.Run Listener.bound p
        ∧ replay Listener.step Listener.bound clockSetBack = some p
        ∧ (last Listener.bound p).pump.connections = []
        ∧ ¬ Along (fun l e _ => l.Justifies e) Listener.bound p :=
  ⟨⟨_, run_replay _ Listener.step Listener.bound sendingConsumer _ listener_bound_init rfl, rfl,
      rfl, by decide⟩,
    _, run_replay _ Listener.step Listener.bound clockSetBack _ listener_bound_init rfl, rfl, rfl,
      by decide⟩

end Replay

end Hitsuji
