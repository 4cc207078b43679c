import Hitsuji.Provider.Tours

set_option autoImplicit false

/-! # No session goes unattended

`Keepalive` shows that nobody is removed too early. Here nobody is forgotten: when a pass is over,
every active session that is left has its deadline ahead of it, and was sent a ping in this very
pass if one was due. A connection is settled by its own turn, and the turns of the others leave it
so. -/

namespace Hitsuji

open ByteBuffer Transition

namespace Pump

/-- A session at `c` in use has its deadline ahead, and no ping is due that was not sent to one of
    `pinged`. -/
def Settled (p : Pump) (pinged : List UInt64) (c : UInt64) : Prop :=
  (p.links c).state = .active → ∀ client ∈ p.clients c,
    p.view.lastActivity < client.nextPong
      ∧ (p.view.lastActivity < client.nextPing ∨ c ∈ pinged)

instance (p : Pump) (pinged : List UInt64) (c : UInt64) : Decidable (p.Settled pinged c) :=
  inferInstanceAs (Decidable (_ → _))

/-- The turn of another connection leaves it so. -/
theorem settled_turn (p : Pump) (pinged sent : List UInt64) (c k : UInt64) (h : Handled)
    (hturn : p.Turn k h) (hne : c ≠ k) (hc : p.Settled pinged c) :
    h.pump.Settled (pinged ++ sent) c := by
  intro hactive client hclient
  rw [hturn.links c hne] at hactive
  rw [hturn.clients c hne] at hclient
  rw [hturn.lastActivity]
  obtain ⟨hpong, hping⟩ := hc hactive client hclient
  exact ⟨hpong, hping.imp_right (List.mem_append_left sent)⟩

/-- The client stored for a connection is the one its pointer leads to. -/
theorem pointee_of_client (p : Pump) (hcoherent : p.Coherent) (hbooked : p.Booked) (c : UInt64)
    (client : Client) (hc : c ∈ p.connections) (hclient : p.clients c = some client) :
    (p.links c).userSpecPtr ≠ none ∧ p.pointee c = some c := by
  have hkey : c ∈ p.keys := (hcoherent.hasClient c).mp (by rw [hclient, Option.isSome_some])
  obtain ⟨⟨_, address⟩, hmem, rfl⟩ := List.mem_map.mp hkey
  have hptr := (hbooked.pointer _ hc address).mpr hmem
  exact ⟨by rw [hptr]; simp, p.pointee_of_mem _ address hbooked.addresses hptr hmem⟩

/-- **The keepalive settles its connection, or marks it to be removed.** -/
theorem settled_keepalive (p : Pump) (pinged : List UInt64) (c : UInt64) (rc : RsslRet)
    (left : Option Down) (h : Handled) (hcoherent : p.Coherent) (hbooked : p.Booked)
    (hc : c ∈ p.connections) (hrun : p.keepalive c rc left = some h) :
    h.pump.socketId c ∈ h.pump.outEfds ∨ h.pump.Settled (pinged ++ pingsOf h.calls) c := by
  have htimes := p.timeouts_keepalive c rc left h hrun
  unfold keepalive at hrun
  split at hrun
  · obtain ⟨client, hfound, hclient⟩ := Option.bind_eq_some_iff.mp hrun
    obtain ⟨h₁, hping, rfl⟩ := Option.map_eq_some_iff.mp hclient
    obtain ⟨k, hpointee, hstored⟩ := Option.bind_eq_some_iff.mp hfound
    obtain rfl := p.pointee_of_booked hcoherent hbooked c k hc hpointee
    by_cases hpong : client.nextPong ≤ p.view.lastActivity
    · rw [if_pos hpong]
      exact .inl (Finset.mem_insert_self _ _)
    · rw [if_neg hpong] at htimes ⊢
      refine .inr fun hactive client' hclient' => ?_
      have hnow : h₁.pump.view.lastActivity = p.view.lastActivity :=
        congrArg Timeouts.lastActivity htimes
      have hdeadline : client'.nextPong = client.nextPong := by
        have hnext : (h₁.pump.clients k).map Client.nextPong = (p.clients k).map Client.nextPong :=
          congrFun (congrArg Timeouts.nextPong htimes) k
        rw [hclient', hstored] at hnext
        exact Option.some.inj hnext
      rw [hnow, hdeadline]
      refine ⟨not_le.mp hpong, ?_⟩
      split at hping
      · rw [Patrol.calls_ping p k rc left h₁ hping]
        exact .inr (List.mem_append_right _ List.mem_cons_self)
      · next hnotDue =>
          obtain rfl := Option.some.inj hping
          obtain rfl := Option.some.inj (hstored.symm.trans hclient')
          exact .inl (not_le.mp hnotDue)
  · next hidle =>
      obtain rfl := Option.some.inj hrun
      refine .inr fun hactive client hclient => ?_
      obtain ⟨hptr, -⟩ := p.pointee_of_client hcoherent hbooked c client hc hclient
      exact absurd ⟨hptr, hactive⟩ hidle

end Pump

/-! ## Over the loop -/

namespace Patrol

/-- A connection that was passed. -/
def Attended (t : Patrol) (c : UInt64) : Prop :=
  t.pump.Settled t.round.pinged c

instance (t : Patrol) (c : UInt64) : Decidable (t.Attended c) :=
  inferInstanceAs (Decidable (t.pump.Settled _ c))

/-- Those passed are attended to; past its keepalive, so is the one at the iterator, or it is marked
    to be removed. -/
def OnWatch (t : Patrol) : Prop :=
  match t.pc with
  | .visit _ _ stage i _ =>
      (∀ c ∈ t.pump.connections.take i, t.Attended c)
        ∧ (stage = .disconnect → ∀ c ∈ t.pump.connections[i]?,
          t.pump.socketId c ∈ t.pump.outEfds ∨ t.Attended c)
  | _ => True

/-- What holds between the provider's books in every pass. -/
structure Kept (t : Patrol) : Prop where
  coherent : t.pump.Coherent
  fresh : t.pump.Fresh
  booked : t.pump.Booked
  watch : t.OnWatch

/-- A turn attends to nobody else, and leaves those attended to so. -/
theorem attended_turn (t t' : Patrol) (op : Op) (h : Handled) (i : Nat) (hkept : t.Kept)
    (hop : op.turn = some i) (hexec : t.pump.exec op = some h) (hpump : t'.pump = h.pump)
    (hround : t'.round = t.round.after t.pump op h)
    (hpassed : ∀ c ∈ t.pump.connections.take i, t.Attended c) (c : UInt64)
    (hc : c ∈ t.pump.connections.take i) : t'.Attended c := by
  have hat : ∃ k, t.pump.connections[i]? = some k := by
    cases op with
    | read | write | keepalive | disconnect =>
        obtain rfl := Option.some.inj hop
        obtain ⟨k, hk, -⟩ := Option.bind_eq_some_iff.mp hexec
        exact ⟨k, hk⟩
    | _ => exact absurd hop (by simp [Op.turn])
  obtain ⟨k, hk⟩ := hat
  have hown := t.pump.ownClient_of_booked hkept.coherent hkept.booked k (List.mem_of_getElem? hk)
  have hturn := t.pump.turn_exec op h i k hop hk hown hexec
  rw [Attended, hpump, hround, pinged_turn t.round t.pump op h i k hop hk]
  exact t.pump.settled_turn _ _ c k h hturn
    (Sweep.ne_of_mem_take _ i k c hkept.booked.unique hk hc) (hpassed c hc)

/-- A step within a turn, before its last. -/
theorem onWatch_within (t t' : Patrol) (op : Op) (h : Handled) (k : Caller) (idle : Bool)
    (stage stage' : Stage) (i : Nat) (didWork didWork' : Bool) (hkept : t.Kept)
    (hop : op.turn = some i) (hstays : ∀ left, op ≠ .disconnect i left)
    (hpc : t.pc = .visit k idle stage i didWork) (hpc' : t'.pc = .visit k idle stage' i didWork')
    (hexec : t.pump.exec op = some h) (hpump : t'.pump = h.pump)
    (hround : t'.round = t.round.after t.pump op h)
    (hhere : stage' = .disconnect → ∀ c ∈ t.pump.connections[i]?,
      t'.pump.socketId c ∈ t'.pump.outEfds ∨ t'.Attended c) : t'.OnWatch := by
  have hwatch := hkept.watch
  simp only [OnWatch, hpc] at hwatch
  have hconnections := t.pump.connections_turn op h i hop hstays hexec
  rw [← hpump] at hconnections
  simp only [OnWatch, hpc', hconnections]
  exact ⟨fun c hc => t.attended_turn t' op h i hkept hop hexec hpump hround hwatch.1 c hc, hhere⟩

theorem onWatch_step (t t' : Patrol) (op : Op) (hkept : t.Kept) (hstep : t.step op = some t') :
    t'.OnWatch := by
  obtain ⟨h, hexec, hpump, hcontrol, hround, -⟩ := t.step_spec t' op hstep
  have hflow := control_flow t.pc t'.pc t.pump h.pump op hcontrol
  generalize hbefore : t.pc = before at hflow hcontrol
  generalize hafter : t'.pc = after at hflow hcontrol
  cases hflow with
  | idle | server =>
      simp only [OnWatch, hafter, List.take_zero]
      exact ⟨fun c hc => absurd hc List.not_mem_nil, by simp⟩
  | read k idle i didWork ready answer =>
      exact onWatch_within t t' _ h k idle _ _ i _ _ hkept rfl (by simp) hbefore hafter hexec hpump
        hround (by simp)
  | write k idle i didWork ready rc left =>
      exact onWatch_within t t' _ h k idle _ _ i _ _ hkept rfl (by simp) hbefore hafter hexec hpump
        hround (by simp)
  | keepalive k idle i didWork rc left =>
      refine onWatch_within t t' _ h k idle _ _ i _ _ hkept rfl (by simp) hbefore hafter hexec hpump
        hround fun _ c hc => ?_
      obtain ⟨c', hc', hkeep⟩ := Option.bind_eq_some_iff.mp hexec
      obtain rfl := Option.some.inj (hc'.symm.trans hc)
      rw [Attended, hpump, hround, pinged_turn t.round t.pump _ h i c' rfl hc']
      exact t.pump.settled_keepalive t.round.pinged c' rc left h hkept.coherent hkept.booked
        (List.mem_of_getElem? hc) hkeep
  | disconnect k idle i next didWork left =>
      have hwatch := hkept.watch
      simp only [OnWatch, hbefore] at hwatch
      obtain ⟨hpassed, hhere⟩ := hwatch
      obtain ⟨c, erased, hc, rfl, hconnections, hpc⟩ :=
        turn_ends k idle i didWork left t.pump h _ hexec hcontrol
      obtain ⟨c', hc', -, hleft⟩ := t.pump.exec_disconnect i left h hexec
      obtain rfl := Option.some.inj (hc'.symm.trans hc)
      have hpinged : t'.round.pinged = t.round.pinged ++ pingsOf h.calls := by
        rw [hround, pinged_turn t.round t.pump _ h i c' rfl hc]
      rw [hpc] at hafter
      simp only [OnWatch, hafter, hpump, hconnections]
      refine ⟨Sweep.passed_turn t'.Attended t.pump.connections i c' _ hc ?_ ?_,
        fun hstage => absurd hstage (by cases idle <;> simp [Stage.first])⟩
      · exact t.attended_turn t' _ h i hkept rfl hexec hpump hround hpassed
      · rcases hhere trivial c' hc with hmarked | hattended
        · exact .inl (decide_eq_true hmarked)
        · by_cases hmarked : t.pump.socketId c' ∈ t.pump.outEfds
          · exact .inl (decide_eq_true hmarked)
          · have hsame := hleft hmarked
            rw [hsame] at hpump hpinged
            rw [Attended, hpump, hpinged]
            rw [Attended, ← List.append_nil t.round.pinged] at hattended
            exact .inr hattended
  | start | work | external | quits | again | waits | drained | select | close | update | drain
  | skip | notify | teardown | throw => simp only [OnWatch, hafter]

/-- No channel is accepted that is still a connection, and no pointer to a client is left behind. -/
def Guards (t : Patrol) (op : Op) : Prop :=
  t.pump.AcceptsNew op ∧ ∀ c ∈ t.pump.swallows op, op.throwsEarly = true

instance (t : Patrol) (op : Op) : Decidable (t.Guards op) :=
  inferInstanceAs (Decidable (_ ∧ _))

theorem kept_step (t t' : Patrol) (op : Op) (hkept : t.Kept) (hstep : t.step op = some t')
    (hguards : t.Guards op) : t'.Kept := by
  obtain ⟨h, hexec, hpump, -⟩ := t.step_spec t' op hstep
  refine ⟨?_, ?_, ?_, t.onWatch_step t' op hkept hstep⟩
  · rw [hpump]
    exact t.pump.coherent_exec op h hkept.coherent hexec
  · rw [hpump]
    exact t.pump.fresh_exec op h hkept.fresh hexec
  · rw [hpump]
    exact t.pump.booked_exec op h hkept.coherent hkept.fresh hguards.1 hguards.2 hexec hkept.booked

theorem kept_init (t : Patrol) (ht : t.init) : t.Kept := by
  have hguarded := t.toMachine.guarded_init ht.1
  refine ⟨hguarded.coherent, hguarded.fresh, hguarded.booked, ?_⟩
  simp only [OnWatch, ht.1.1]

/-- When the loop has passed everyone, everyone is attended to. -/
theorem attended_of_returns (t t' : Patrol) (quit : Bool) (hkept : t.Kept)
    (hstep : t.step (.returns quit) = some t') : ∀ c ∈ t.pump.connections, t.Attended c := by
  obtain ⟨h, -, -, hcontrol, -, -⟩ := t.step_spec t' _ hstep
  obtain ⟨k, idle, stage, i, didWork, hpc⟩ := pc_of_returns t.pc t'.pc t.pump h.pump quit hcontrol
  have hwatch := hkept.watch
  simp only [OnWatch, hpc] at hwatch
  rw [hpc] at hcontrol
  obtain ⟨-, hend⟩ := control_returns k idle stage i didWork quit t.pump h.pump _ hcontrol
  exact Sweep.passed_all t.Attended t.pump.connections i hend hwatch.1

end Patrol

/-- A session is left alone until its ping is due, and until it is overdue. -/
def fallSilent : List Op :=
  [.select 0 ∅ ∅ ∅, .doWork 23, .keepalive 0 .success none, .disconnect 0 .closed, .returns false,
    .select 0 ∅ ∅ ∅, .doWork 63, .keepalive 0 .success none, .disconnect 0 .closed, .returns false]

section Replay

set_option maxRecDepth 20000

end Replay

end Hitsuji
