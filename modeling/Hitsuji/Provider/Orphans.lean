import Hitsuji.Provider.Acceptance
import Hitsuji.Provider.Marks

set_option autoImplicit false

/-! # Connections without a client

A channel left behind by an exception goes in the same pass if `select` reported an exception on its
socket: the socket stays in `out_efds_` until the next `select`, and the loop comes to its
disconnect before it reads from any channel again, even when another exception ends `Run` and
`Close` pumps messages. Where no other exception is swallowed, every pointer is null or that of a
stored client, and `OnMsg` finds its client. -/

namespace Hitsuji

open ByteBuffer Transition

/-! ## Sockets with an exception -/

/-- No channel is accepted or read, and nothing is selected. -/
def Op.hearsNothing : Op → Bool
  | .start | .reply _ _ _ _ | .connection _ | .read _ _ | .select _ _ _ _ => false
  | _ => true

namespace Pump

/-- A socket with an exception keeps it until the next `select`. -/
theorem outEfds_exec (p : Pump) (op : Op) (h : Handled) (hop : op.hearsNothing = true)
    (hrun : p.exec op = some h) : p.outEfds ⊆ h.pump.outEfds := by
  intro s hs
  refine (mem_outEfds_exec p op h ?_ hrun s).mpr (.inl hs)
  rintro n rfds wfds efds rfl
  exact absurd hop (by simp [Op.hearsNothing])

/-- A channel that is not read stays on its socket. -/
theorem socketId_exec (p : Pump) (op : Op) (h : Handled) (hop : op.hearsNothing = true)
    (hrun : p.exec op = some h) (c : UInt64) : h.pump.socketId c = p.socketId c := by
  cases exec_cases p op h hrun with
  | serves _ _ hserves => exact socketId_of_books hserves.books c
  | accepted | downgraded | rejected | threw | opened | reconnected | fellThrough =>
      exact absurd hop (by simp [Op.hearsNothing])
  | flushed i k left p' hk hready hflushes => exact socketId_of_books hflushes.books c
  | disconnected i k left hk hefds =>
      rw [disconnect_eq]
      rfl
  | notified k env left leftByFlush loop h' p' hclient hserves hflushed hflushes =>
      exact socketId_of_books (hflushes.books.trans hserves.books) c
  | tornDown left =>
      simp only [teardown]
      rw [closeConnections_eq]
      rfl
  | reset | closing => rfl

end Pump

/-! ## Where a disconnect comes before the next read -/

/-- From here the loop reaches the connection's disconnect before it reads again, or it reads no
    more. -/
def Pc.disconnectsNext (p : Pump) (c : UInt64) : Pc → Prop
  | .pass _ => p.outNfds ≤ 0
  | .visit _ true stage i _ => stage ≠ .read ∧ c ∈ p.connections.drop i
  | .visit _ false stage i _ => stage ≠ .read ∧ p.connections[i]? = some c
  | .stopped | .updating _ | .notifying _ | .closed => True
  | .ready | .external _ | .server _ _ | .select _ => False

/-- The connection goes before anything is read from it. -/
structure Machine.Doomed (m : Machine) (c : UInt64) : Prop where
  marked : m.pump.socketId c ∈ m.pump.outEfds
  next : m.pc.disconnectsNext m.pump c

/-- `DoWork` returns at the end of its loop. -/
theorem control_returns (k : Caller) (idle : Bool) (stage : Stage) (i : Nat)
    (didWork quit : Bool) (p p' : Pump) (pc' : Pc)
    (h : control (.visit k idle stage i didWork) p (.returns quit) p' = some pc') :
    stage = .first idle ∧ i = p.connections.length := by
  cases stage <;> exact (Option.ite_none_right_eq_some.mp h).1

/-- The iterator after a disconnect. -/
theorem control_disconnect (k : Caller) (idle : Bool) (i j : Nat) (didWork : Bool) (left : Down)
    (p p' : Pump) (pc' : Pc)
    (h : control (.visit k idle .disconnect i didWork) p (.disconnect j left) p' = some pc') :
    j = i ∧ pc' = .visit k idle (.first idle)
      (if p'.connections.length < p.connections.length then i else i + 1) didWork := by
  obtain ⟨hj, hpc⟩ := Option.ite_none_right_eq_some.mp h
  exact ⟨hj, (Option.some.inj hpc).symm⟩

/-- Nothing awaits its disconnect at the end of the loop. -/
theorem not_disconnectsNext_returns (p : Pump) (c : UInt64) (k : Caller) (idle : Bool)
    (stage : Stage) (i : Nat) (didWork : Bool) (hstage : stage = .first idle)
    (hi : i = p.connections.length) :
    ¬ (Pc.visit k idle stage i didWork).disconnectsNext p c := by
  subst hstage hi
  cases idle with
  | true =>
      rintro ⟨-, hmem⟩
      rw [List.drop_length] at hmem
      exact absurd hmem List.not_mem_nil
  | false => exact fun hnext => hnext.1 rfl

/-- What was to be disconnected is gone or still ahead of the iterator. -/
theorem disconnectsNext_disconnect (p : Pump) (c : UInt64) (k : Caller) (idle : Bool) (i : Nat)
    (didWork : Bool) (left : Down) (h : Handled) (hunique : p.connections.Nodup)
    (hmarked : p.socketId c ∈ p.outEfds) (hexec : p.exec (.disconnect i left) = some h)
    (hc : c ∈ h.pump.connections)
    (hnext : (Pc.visit k idle .disconnect i didWork).disconnectsNext p c) :
    (Pc.visit k idle (.first idle)
      (if h.pump.connections.length < p.connections.length then i else i + 1)
      didWork).disconnectsNext h.pump c := by
  obtain ⟨d, hd, hat⟩ := Option.bind_eq_some_iff.mp hexec
  obtain rfl := Option.some.inj hat
  obtain ⟨hlt, hget⟩ := List.getElem?_eq_some_iff.mp hd
  have hdrop : p.connections.drop i = d :: p.connections.drop (i + 1) := by
    rw [← hget]
    exact List.drop_eq_getElem_cons hlt
  -- the connection at the iterator itself would have gone
  have hne : c ≠ d := by
    rintro rfl
    rw [if_pos hmarked, Pump.disconnect_eq] at hc
    exact (Pump.mem_of_eraseIdx p i c c hd hunique hc).2 rfl
  cases idle with
  | false => exact absurd (Option.some.inj (hnext.2.symm.trans hd)) hne
  | true =>
      have hahead : c ∈ p.connections.drop (i + 1) := by
        have hmem := hnext.2
        rw [hdrop] at hmem
        exact (List.mem_cons.mp hmem).resolve_left hne
      refine ⟨nofun, ?_⟩
      by_cases hefds : p.socketId d ∈ p.outEfds
      · have hconnections : (p.disconnect i d left).pump.connections
            = p.connections.eraseIdx i := by
          rw [Pump.disconnect_eq]
          rfl
        rw [if_pos hefds, hconnections, if_pos]
        · rwa [List.eraseIdx_eq_take_drop_succ, List.drop_append_of_le_length,
            List.drop_take_self, List.nil_append]
          rw [List.length_take]
          omega
        · rw [List.length_eraseIdx_of_lt hlt]
          omega
      · rw [if_neg hefds, if_neg (Nat.lt_irrefl _)]
        exact hahead

/-- Flushing and keeping alive take no connection away. -/
theorem connections_between (p : Pump) (op : Op) (h : Handled)
    (hop : (∃ i rc left, op = .write i rc left) ∨ ∃ i rc left, op = .keepalive i rc left)
    (hexec : p.exec op = some h) : h.pump.connections = p.connections := by
  have hcases := Pump.exec_cases p op h hexec
  rcases hop with ⟨i, rc, left, rfl⟩ | ⟨i, rc, left, rfl⟩
  · cases hcases with
    | serves _ _ hserves => exact Pump.connections_of_books hserves.books
    | reset _ listening hreset => exact absurd hreset (by simp)
    | flushed _ c _ p' hc hready hflushes => exact Pump.connections_of_books hflushes.books
  · cases hcases with
    | serves _ _ hserves => exact Pump.connections_of_books hserves.books
    | reset _ listening hreset => exact absurd hreset (by simp)

/-- The same stage of the loop, over the same connections. -/
theorem disconnectsNext_between (p p' : Pump) (c : UInt64) (k : Caller) (idle : Bool)
    (stage stage' : Stage) (i : Nat) (didWork didWork' : Bool)
    (hconnections : p'.connections = p.connections) (hstage : stage' ≠ .read)
    (hnext : (Pc.visit k idle stage i didWork).disconnectsNext p c) :
    (Pc.visit k idle stage' i didWork').disconnectsNext p' c := by
  cases idle with
  | true =>
      refine ⟨hstage, ?_⟩
      rw [hconnections]
      exact hnext.2
  | false =>
      refine ⟨hstage, ?_⟩
      rw [hconnections]
      exact hnext.2

/-- **A connection that is to go stays so until it is gone**, and nothing is read meanwhile. -/
theorem doomed_next (p : Pump) (pc pc' : Pc) (op : Op) (h : Handled) (c : UInt64)
    (hunique : p.connections.Nodup) (hmarked : p.socketId c ∈ p.outEfds)
    (hnext : pc.disconnectsNext p c) (hexec : p.exec op = some h)
    (hcontrol : control pc p op h.pump = some pc') (hc : c ∈ h.pump.connections) :
    op.hearsNothing = true ∧ pc'.disconnectsNext h.pump c := by
  cases control_flow pc pc' p h.pump op hcontrol with
  | start | external | server | select => exact hnext.elim
  | idle k now hidle =>
      obtain rfl := Option.some.inj hexec
      exact ⟨rfl, nofun, hc⟩
  | work k now hwork => exact absurd hwork (not_lt.mpr hnext)
  | read k idle i didWork ready answer =>
      cases idle with
      | true => exact absurd rfl hnext.1
      | false => exact absurd rfl hnext.1
  | write k idle i didWork ready rc left =>
      have hconnections := connections_between p _ h (.inl ⟨i, rc, left, rfl⟩) hexec
      exact ⟨rfl, disconnectsNext_between p h.pump c k idle _ _ i _ _ hconnections nofun hnext⟩
  | keepalive k idle i didWork rc left =>
      have hconnections := connections_between p _ h (.inr ⟨i, rc, left, rfl⟩) hexec
      exact ⟨rfl, disconnectsNext_between p h.pump c k idle _ _ i _ _ hconnections nofun hnext⟩
  | disconnect k idle i next didWork left =>
      obtain ⟨-, hpc⟩ := control_disconnect k idle i i didWork left p h.pump _ hcontrol
      rw [hpc]
      exact ⟨rfl, disconnectsNext_disconnect p c k idle i didWork left h hunique hmarked hexec hc
        hnext⟩
  | quits idle stage i didWork =>
      obtain ⟨hstage, hi⟩ := control_returns .run idle stage i didWork true p h.pump _ hcontrol
      exact absurd hnext (not_disconnectsNext_returns p c _ idle stage i _ hstage hi)
  | again k idle stage i quit =>
      obtain ⟨hstage, hi⟩ := control_returns k idle stage i true quit p h.pump _ hcontrol
      exact absurd hnext (not_disconnectsNext_returns p c _ idle stage i _ hstage hi)
  | waits k idle stage i quit =>
      obtain ⟨hstage, hi⟩ := control_returns k idle stage i false quit p h.pump _ hcontrol
      exact absurd hnext (not_disconnectsNext_returns p c _ idle stage i _ hstage hi)
  | drained idle stage i didWork quit htokens =>
      obtain ⟨hstage, hi⟩ := control_returns .close idle stage i didWork quit p h.pump _ hcontrol
      exact absurd hnext (not_disconnectsNext_returns p c _ idle stage i _ hstage hi)
  | drain hdrain =>
      -- `Close` pumps messages from an idle pass on
      simp only [Pump.exec, if_pos hdrain] at hexec
      obtain ⟨listening, -, rfl⟩ := Option.map_eq_some_iff.mp hexec
      exact ⟨rfl, Int.le_refl 0⟩
  | close | update | skip | notify | teardown | throw => exact ⟨rfl, trivial⟩

theorem Machine.doomed_step (m m' : Machine) (op : Op) (c : UInt64)
    (hunique : m.pump.connections.Nodup) (hdoomed : m.Doomed c) (hstep : m.step op = some m')
    (hc : c ∈ m'.pump.connections) : m'.Doomed c := by
  obtain ⟨h, pc, hexec, hcontrol, rfl⟩ := (step_eq_some m m' op).mp hstep
  obtain ⟨hop, hnext⟩ :=
    doomed_next m.pump m.pc pc op h c hunique hdoomed.marked hdoomed.next hexec hcontrol hc
  refine ⟨?_, hnext⟩
  change h.pump.socketId c ∈ h.pump.outEfds
  rw [Pump.socketId_exec m.pump op h hop hexec c]
  exact Pump.outEfds_exec m.pump op h hop hexec hdoomed.marked

/-- A channel left behind with its exception reported is to go. -/
theorem Machine.doomed_of_swallows (m m' : Machine) (op : Op) (c : UInt64)
    (hfresh : m.pump.Fresh) (hc : m.pump.swallows op = some c) (hspared : m.pump.Spared op c)
    (hstep : m.step op = some m') : m'.Doomed c := by
  obtain ⟨h, pc, hexec, hcontrol, rfl⟩ := (step_eq_some m m' op).mp hstep
  have hleft := Pump.leftBehind_of_swallows m.pump op h c hfresh hexec hc
  obtain ⟨i, _, _, _, _, _, rfl, hreading, -⟩ := Pump.swallows_eq_some m.pump op c hc
  have hposition : h.pump.connections[i]? = some c := by
    rw [hleft.connections]
    exact hreading.position
  refine ⟨hleft.marked.mpr hspared.2, ?_⟩
  generalize m.pc = pc₀ at hcontrol
  cases control_flow pc₀ pc m.pump h.pump _ hcontrol with
  | read k idle i didWork ready answer =>
      cases idle with
      | true =>
          obtain ⟨hlt, rfl⟩ := List.getElem?_eq_some_iff.mp hposition
          refine ⟨nofun, ?_⟩
          rw [List.drop_eq_getElem_cons hlt]
          exact List.mem_cons_self
      | false => exact ⟨nofun, hposition⟩

/-- Nothing is read from a connection that is to go. -/
theorem Machine.not_doomed_of_read (m m' : Machine) (i : Nat) (answer : ReadAnswer) (c : UInt64)
    (hstep : m.step (.read i answer) = some m') : ¬ m.Doomed c := by
  rintro ⟨-, hnext⟩
  obtain ⟨h, pc, -, hcontrol, -⟩ := (step_eq_some m m' _).mp hstep
  generalize m.pc = pc₀ at hnext hcontrol
  cases control_flow pc₀ pc m.pump h.pump _ hcontrol with
  | read k idle i didWork ready answer =>
      cases idle with
      | true => exact hnext.1 rfl
      | false => exact hnext.1 rfl

/-! ## Whole runs -/

namespace Machine

/-- Every pointer is booked, and an active connection without client is to go. -/
structure Guarded (m : Machine) : Prop where
  coherent : m.pump.Coherent
  fresh : m.pump.Fresh
  booked : m.pump.Booked
  doomed : ∀ c, m.pump.Orphan c → m.Doomed c

theorem guarded_init (m : Machine) (hm : m.init) : m.Guarded := by
  obtain ⟨-, hconnections, hsessions, -⟩ := id hm
  have hempty : ∀ c, c ∉ m.pump.connections := by
    rw [hconnections]
    exact fun c => List.not_mem_nil
  refine ⟨coherent_init m hm, fun c hc => absurd hc (hempty c), ⟨?_, ?_, ?_⟩, ?_⟩
  · rw [hconnections]
    exact List.nodup_nil
  · rw [hsessions]
    exact List.nodup_nil
  · exact fun c hc => absurd hc (hempty c)
  · exact fun c horphan => absurd horphan.connected (hempty c)

theorem guarded_step (m m' : Machine) (op : Op) (hm : m.Guarded) (hstep : m.step op = some m')
    (hnew : m.pump.AcceptsNew op) (hspared : ∀ c ∈ m.pump.swallows op, m.pump.Spared op c) :
    m'.Guarded := by
  obtain ⟨handled, hexec, hpump, -⟩ := control_of_step m m' op hstep
  have hbooked := Pump.booked_exec m.pump op handled hm.coherent hm.fresh hnew
    (fun c hc => (hspared c hc).1) hexec hm.booked
  have hfresh := Pump.fresh_exec m.pump op handled hm.fresh hexec
  refine ⟨coherent_step m m' op hm.coherent hstep, hpump ▸ hfresh, hpump ▸ hbooked, ?_⟩
  intro c horphan
  rcases Pump.orphan_exec m.pump op handled c hexec (hpump ▸ horphan) with hold | hnewly
  · exact m.doomed_step m' op c hm.booked.unique (hm.doomed c hold) hstep horphan.connected
  · exact m.doomed_of_swallows m' op c hm.fresh hnewly (hspared c hnewly) hstep

/-- A message is read only from a channel that has its client. -/
theorem dereferencesClient_of_guarded (m m' : Machine) (op : Op) (hm : m.Guarded)
    (hstep : m.step op = some m') : m.pump.DereferencesClient op := by
  intro i c ret left hop hc hstate
  have hmem := List.mem_of_getElem? hc
  rcases Pump.backed_of_booked m.pump hm.coherent hm.booked c hmem with hnull | hclient
  · subst hop
    exact absurd (hm.doomed c ⟨hmem, hstate, hnull⟩) (m.not_doomed_of_read m' i _ c hstep)
  · exact Pump.pointsToClient_leave m.pump c left hclient

end Machine

/-- **As long as it stays a connection, a channel left behind early has no client for its
    messages**, whatever else happens. -/
theorem leftBehind_messages (m₀ m₁ : Machine) (thrown : Op) (c : UInt64) (p : Steps Machine Op)
    (hfresh : m₀.pump.Fresh) (hthrown : m₀.step thrown = some m₁)
    (hc : m₀.pump.swallows thrown = some c) (hearly : thrown.throwsEarly = true)
    (hsteps : Along (fun m op m' => m.step op = some m') m₁ p)
    (hnew : Along (fun m op _ => m.pump.AcceptsNew op) m₁ p)
    (hstays : Along (fun _ _ m' => c ∈ m'.pump.connections) m₁ p) :
    Along (fun _ _ m' => ∀ msg env left, m'.pump.onMsg c (some msg) env left = none) m₁ p := by
  let lasting : Machine → Prop := fun m => c ∈ m.pump.connections ∧ m.pump.Unserved c
  have hstep : ∀ m op m', lasting m →
      (m.step op = some m' ∧ m.pump.AcceptsNew op) ∧ c ∈ m'.pump.connections → lasting m' := by
    rintro m op m' ⟨hmem, hnull⟩ ⟨⟨hm, haccepts⟩, hmem'⟩
    obtain ⟨handled, hexec, hpump, -⟩ := control_of_step m m' op hm
    refine ⟨hmem', ?_⟩
    rw [hpump] at hmem' ⊢
    exact Pump.unserved_exec m.pump op handled c haccepts hexec hmem hmem' hnull
  have hinit : lasting m₁ := by
    obtain ⟨handled, hexec, hpump, -⟩ := control_of_step m₀ m₁ thrown hthrown
    have hleft := Pump.leftBehind_of_swallows m₀.pump thrown handled c hfresh hexec hc
    rw [← hpump] at hleft
    exact ⟨hleft.connections ▸ hleft.connected,
      Pump.unserved_of_leftBehind m₀.pump m₁.pump thrown c hleft hearly⟩
  have hall := (along_and _ _ m₁ p).mpr ⟨(along_and _ _ m₁ p).mpr ⟨hsteps, hnew⟩, hstays⟩
  have hinv := along_invariant _ lasting hstep m₁ p hinit hall
  refine along_imp _ _ (fun m op m' h msg env left => ?_) m₁ p hinv.1
  rw [Pump.onMsg, Pump.pointee, h.2.2.null, Option.bind_none, Option.bind_none]

/-- **Exceptions while sessions are accepted.** What is swallowed leaves a channel for which `OnMsg`
    has no client; this is safe exactly when `userSpecPtr` was not set yet and `select` reported an
    exception on the socket. In a run where every exception is of this kind, every pointer is null
    or that of a stored client and messages are read from channels with a client only, if
    `rsslAccept` returns no channel that is a connection. -/
theorem acceptance_safe_iff (m₀ : Machine) (p : Steps Machine Op) (hrun : pumpSystem.Run m₀ p) :
    Along (fun m op m' => ∀ c ∈ m.pump.swallows op,
        (∀ msg env left, m'.pump.onMsg c (some msg) env left = none)
          ∧ (m'.pump.AcceptedSafely c ↔ m.pump.Spared op c)) m₀ p
      ∧ (Along (fun m op _ => m.pump.AcceptsNew op
            ∧ ∀ c ∈ m.pump.swallows op, m.pump.Spared op c) m₀ p →
          Along (fun m op m' => m.pump.DereferencesClient op
            ∧ ∀ c ∈ m'.pump.connections, m'.pump.Backed c) m₀ p) := by
  have hguarded := m₀.guarded_init hrun.1
  constructor
  · have hfresh := along_invariant _ (fun m : Machine => m.pump.Fresh)
      (fun m op m' hm hstep => by
        obtain ⟨handled, hexec, hpump, -⟩ := control_of_step m m' op hstep
        exact hpump ▸ Pump.fresh_exec m.pump op handled hm hexec) m₀ p hguarded.fresh hrun.2
    refine along_imp _ _ (fun m op m' hstep c hc => ?_) m₀ p
      ((along_and _ _ m₀ p).mpr ⟨hrun.2, hfresh.1⟩)
    obtain ⟨handled, hexec, hpump, -⟩ := control_of_step m m' op hstep.1
    have hleft : m.pump.LeftBehind op c m'.pump := by
      rw [hpump]
      exact Pump.leftBehind_of_swallows m.pump op handled c hstep.2.1 hexec hc
    exact ⟨Pump.onMsg_of_leftBehind m.pump _ op c hleft,
      Pump.acceptedSafely_iff m.pump _ op c hleft⟩
  · intro hspared
    have hall := (along_and _ _ m₀ p).mpr ⟨hrun.2, hspared⟩
    have hinv := along_invariant _ Machine.Guarded
      (fun m op m' hm h => m.guarded_step m' op hm h.1 h.2.1 h.2.2) m₀ p hguarded hall
    refine along_imp _ _ (fun m op m' h => ?_) m₀ p ((along_and _ _ m₀ p).mpr ⟨hrun.2, hinv.1⟩)
    obtain ⟨hstep, hm, hm'⟩ := h
    exact ⟨m.dereferencesClient_of_guarded m' op hm hstep,
      fun c hc => Pump.backed_of_booked m'.pump hm'.coherent hm'.booked c hc⟩

/-- A consumer connects, and accepting its session throws while its socket has an exception. -/
def dropConsumer : List Op :=
  connectConsumer.dropLast ++ [.select 1 {1024} ∅ {1024}]
    ++ passOver 2 none (visit 0 (.initChannel (.success 14 0 60) .thrown .closed))

/-- A consumer connects, and its client cannot be stored. -/
def loseConsumer : List Op :=
  connectConsumer ++ [.doWork 2, .noReply, .connection none]
    ++ [.read 0 (.initChannel (.success 14 0 60) (.initialized 1 0 false) .closed)]

/-- A consumer connects, its client cannot be made, and its login request arrives. -/
def forgetConsumer : List Op :=
  connectConsumer ++ activateConsumer .thrown
    ++ [.select 1 {1024} ∅ ∅, .doWork 3, .noReply, .connection none]

/-- The login request is read. -/
def readLogin : Op :=
  .read 0 (.readEx (.data false (some (some (loginByName 1), willingEnv)) none) none)

section Replay

set_option maxRecDepth 20000

theorem dropConsumer_safe :
    ∃ p, replay Machine.step Machine.bound dropConsumer = some p
      ∧ Along (fun m op m' => m.pump.DereferencesClient op
          ∧ ∀ c ∈ m'.pump.connections, m'.pump.Backed c) Machine.bound p := by
  refine ⟨_, rfl, (acceptance_safe_iff Machine.bound _
    (run_replay _ Machine.step Machine.bound dropConsumer _ bound_init rfl)).2 ?_⟩
  decide

/-- Thrown late, the exception leaves a pointer to a client that is gone, and the same visit asks it
    for its timeouts; thrown early, it leaves an active channel whose login request has no client to
    go to. -/
theorem acceptance_unsafe :
    (∃ p, pumpSystem.Run Machine.bound p
        ∧ replay Machine.step Machine.bound loseConsumer = some p
        ∧ ¬ (last Machine.bound p).pump.Backed 0x7f00
        ∧ (last Machine.bound p).pump.exec (.keepalive 0 .success none) = none)
      ∧ ∃ p, pumpSystem.Run Machine.bound p
        ∧ replay Machine.step Machine.bound forgetConsumer = some p
        ∧ (last Machine.bound p).pc = .visit .run false .read 0 false
        ∧ (last Machine.bound p).pump.Reading 0 0x7f00
        ∧ ((last Machine.bound p).pump.links 0x7f00).state = .active
        ∧ ((last Machine.bound p).pump.links 0x7f00).userSpecPtr = none
        ∧ (last Machine.bound p).pump.exec readLogin = none := by
  constructor
  · refine ⟨_, run_replay _ Machine.step Machine.bound loseConsumer _ bound_init rfl, rfl, ?_, rfl⟩
    rintro (hnull | ⟨address, client, -, hmem, -⟩)
    · exact absurd hnull (by decide)
    · exact absurd hmem List.not_mem_nil
  · refine ⟨_, run_replay _ Machine.step Machine.bound forgetConsumer _ bound_init rfl, rfl, ?_,
      ⟨?_, ?_⟩, ?_, ?_, ?_⟩
    · rfl
    · rfl
    · decide
    · rfl
    · rfl
    · rfl

end Replay

end Hitsuji
