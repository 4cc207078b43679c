import Hitsuji.Lib.Sweep
import Hitsuji.Provider.Turns

set_option autoImplicit false

/-! # The loop over the connections

`DoWork` removes connections from the list it iterates over. The iterator moves on before the
element is erased, so every connection has its turn, once, and the loop ends. A ghost keeps what the
pass has come to: whose turn it was to be, and of each turn that is over whom it pinged and whether
it removed its connection. -/

namespace Hitsuji

open ByteBuffer Transition

namespace Pump

/-! ## What a step of the loop does to the list -/

/-- Reading, like flushing and keeping alive, takes no connection away and adds none. -/
theorem connections_turn (p : Pump) (op : Op) (h : Handled) (i : Nat) (hop : op.turn = some i)
    (hstays : ∀ left, op ≠ .disconnect i left) (hrun : p.exec op = some h) :
    h.pump.connections = p.connections := by
  cases exec_cases p op h hrun with
  | serves _ _ hserves => exact connections_of_books hserves.books
  | reset _ _ hreset =>
      rcases hreset with rfl | ⟨rfl, -⟩
      · exact absurd hop (by simp [Op.turn])
      · exact absurd hop (by simp [Op.turn])
  | accepted | closing | notified | tornDown => exact absurd hop (by simp [Op.turn])
  | downgraded | rejected | threw => rfl
  | opened j c _ _ _ address directoryToken emplaced left q _ _ _ _ hq =>
      rw [hq]
      cases emplaced <;> rfl
  | reconnected j c newSocket left =>
      rw [leave_eq]
      rfl
  | fellThrough j c ret left =>
      rw [leave_eq]
      rfl
  | flushed _ _ _ _ _ _ hflushes => exact connections_of_books hflushes.books
  | disconnected j c left =>
      obtain rfl := Option.some.inj hop
      exact absurd rfl (hstays left)

/-- The last step of a turn removes the connection or keeps it. -/
theorem exec_disconnect (p : Pump) (i : Nat) (left : Down) (h : Handled)
    (hrun : p.exec (.disconnect i left) = some h) :
    ∃ c, p.connections[i]? = some c
      ∧ h.pump.connections
        = Sweep.left (decide (p.socketId c ∈ p.outEfds)) p.connections i
      ∧ (p.socketId c ∉ p.outEfds → h = ⟨p, []⟩) := by
  obtain ⟨c, hc, hat⟩ := Option.bind_eq_some_iff.mp hrun
  obtain rfl := Option.some.inj hat
  refine ⟨c, hc, ?_, fun hkept => if_neg hkept⟩
  by_cases hefds : p.socketId c ∈ p.outEfds
  · rw [if_pos hefds, decide_eq_true hefds, disconnect_eq]
    rfl
  · rw [if_neg hefds, decide_eq_false hefds]
    rfl

end Pump

/-- How the turn at the iterator ends. -/
theorem turn_ends (k : Caller) (idle : Bool) (i : Nat) (didWork : Bool) (left : Down)
    (p : Pump) (h : Handled) (pc' : Pc) (hrun : p.exec (.disconnect i left) = some h)
    (hcontrol : control (.visit k idle .disconnect i didWork) p (.disconnect i left) h.pump
      = some pc') :
    ∃ c erased, p.connections[i]? = some c ∧ erased = decide (p.socketId c ∈ p.outEfds)
      ∧ h.pump.connections = Sweep.left erased p.connections i
      ∧ pc' = .visit k idle (.first idle) (Sweep.next erased i) didWork := by
  obtain ⟨c, hc, hconnections, -⟩ := p.exec_disconnect i left h hrun
  obtain ⟨-, hpc⟩ := control_disconnect k idle i i didWork left p h.pump pc' hcontrol
  refine ⟨c, _, hc, rfl, hconnections, ?_⟩
  obtain ⟨hlt, -⟩ := List.getElem?_eq_some_iff.mp hc
  have hshorter := Sweep.left_shorter (decide (p.socketId c ∈ p.outEfds)) p.connections i hlt
  rw [hpc, hconnections]
  simp only [hshorter, Sweep.next]

/-! ## The loop ends -/

/-- The steps of a turn from a stage on. -/
def Stage.stepsLeft : Stage → Nat
  | .read => 4
  | .write => 3
  | .keepalive => 2
  | .disconnect => 1

/-- The steps of the loop from here on, over so many connections. -/
def Pc.stepsLeft (connections : Nat) : Pc → Nat
  | .visit _ idle stage i _ =>
      if i < connections then
        (Stage.first idle).stepsLeft * (connections - (i + 1)) + stage.stepsLeft
      else 0
  | _ => 0

/-- The steps of the loop from here on. -/
def Machine.stepsLeft (m : Machine) : Nat :=
  m.pc.stepsLeft m.pump.connections.length

/-- Each step takes one of them, whether or not a connection is removed. -/
theorem stepsLeft_step (m m' : Machine) (op : Op) (hop : op.turn ≠ none)
    (hstep : m.step op = some m') : m'.stepsLeft + 1 = m.stepsLeft := by
  obtain ⟨h, pc, hexec, hcontrol, rfl⟩ := (step_eq_some m m' op).mp hstep
  have hhere : ∀ i, op.turn = some i → i < m.pump.connections.length := by
    intro i hi
    have hsome : m.pump.connections[i]?.isSome = true := by
      cases op with
      | read | write | keepalive | disconnect =>
          obtain rfl := Option.some.inj hi
          obtain ⟨c, hc, -⟩ := Option.bind_eq_some_iff.mp hexec
          exact Option.isSome_iff_exists.mpr ⟨c, hc⟩
      | _ => exact absurd hi (by simp [Op.turn])
    simpa using hsome
  have hflow := control_flow m.pc pc m.pump h.pump op hcontrol
  have hkept := fun i hi hstays => m.pump.connections_turn op h i hi hstays hexec
  simp only [Machine.stepsLeft]
  generalize hbefore : m.pc = before at hflow hcontrol ⊢
  cases hflow with
  | read k idle i didWork ready answer =>
      rw [hkept i rfl (by simp)]
      simp only [Pc.stepsLeft, if_pos (hhere i rfl), Stage.stepsLeft]
  | write k idle i didWork ready rc left =>
      rw [hkept i rfl (by simp)]
      simp only [Pc.stepsLeft, if_pos (hhere i rfl), Stage.stepsLeft]
  | keepalive k idle i didWork rc left =>
      rw [hkept i rfl (by simp)]
      simp only [Pc.stepsLeft, if_pos (hhere i rfl), Stage.stepsLeft]
  | disconnect k idle i next didWork left =>
      obtain ⟨c, erased, hc, -, hconnections, hpc⟩ :=
        turn_ends k idle i didWork left m.pump h _ hexec hcontrol
      have hlt := hhere i rfl
      have hlength := Sweep.left_length erased m.pump.connections i hlt
      rw [hpc, hconnections]
      simp only [Pc.stepsLeft, hlength, if_pos hlt, Stage.stepsLeft]
      -- one turn less, if any is left
      by_cases hlast : i + 1 < m.pump.connections.length
      · obtain ⟨n, hn⟩ := Nat.exists_eq_add_of_lt hlast
        have hnext : Sweep.next erased i
            < if erased = true then m.pump.connections.length - 1
              else m.pump.connections.length := by
          cases erased <;> simp [Sweep.next] <;> omega
        have hahead : (if erased = true then m.pump.connections.length - 1
            else m.pump.connections.length) - (Sweep.next erased i + 1) = n := by
          cases erased <;> simp [Sweep.next] <;> omega
        have htotal : m.pump.connections.length - (i + 1) = n + 1 := by omega
        rw [if_pos hnext, hahead, htotal, Nat.mul_succ]
      · have hnext : ¬ Sweep.next erased i
            < if erased = true then m.pump.connections.length - 1
              else m.pump.connections.length := by
          cases erased <;> simp [Sweep.next] <;> omega
        have htotal : m.pump.connections.length - (i + 1) = 0 := by omega
        rw [if_neg hnext, htotal, Nat.mul_zero]
  | start | idle | work | external | server | quits | again | waits | drained | select | close
  | update | drain | skip | notify | teardown | throw => exact absurd rfl hop

theorem stepsLeft_run (m : Machine) (p : Steps Machine Op)
    (hp : Along (fun m op m' => m.step op = some m') m p)
    (hloop : Along (fun _ op _ => op.turn ≠ none) m p) :
    (last m p).stepsLeft + p.length = m.stepsLeft := by
  induction p generalizing m with
  | nil => rfl
  | cons t rest ih =>
      have hhead := stepsLeft_step m t.2 t.1 hloop.1 hp.1
      have hrest := ih t.2 hp.2 hloop.2
      rw [last, List.length_cons]
      omega

theorem stepsLeft_entry (m : Machine) (k : Caller) (idle : Bool) (didWork : Bool)
    (hentry : m.pc = .visit k idle (.first idle) 0 didWork) :
    m.stepsLeft = (Stage.first idle).stepsLeft * m.pump.connections.length := by
  simp only [Machine.stepsLeft, hentry, Pc.stepsLeft]
  split
  · next hsome =>
      obtain ⟨n, hn⟩ := Nat.exists_eq_add_of_lt hsome
      rw [hn, ← Nat.mul_succ]
      congr 1
  · next hnone =>
      rw [Nat.eq_zero_of_not_pos hnone, Nat.mul_zero]

/-- `DoWork` returns from the loop. -/
theorem pc_of_returns (pc pc' : Pc) (p p' : Pump) (quit : Bool)
    (hcontrol : control pc p (.returns quit) p' = some pc') :
    ∃ k idle stage i didWork, pc = .visit k idle stage i didWork := by
  cases control_flow pc pc' p p' _ hcontrol with
  | quits | again | waits | drained => exact ⟨_, _, _, _, _, rfl⟩

/-- When it can return, none is left. -/
theorem stepsLeft_returns (m : Machine) (quit : Bool) (hreturns : m.step (.returns quit) ≠ none) :
    m.stepsLeft = 0 := by
  obtain ⟨m', hstep⟩ := Option.ne_none_iff_exists'.mp hreturns
  obtain ⟨h, pc, -, hcontrol, rfl⟩ := (step_eq_some m m' _).mp hstep
  obtain ⟨k, idle, stage, i, didWork, hpc⟩ := pc_of_returns m.pc pc m.pump h.pump quit hcontrol
  rw [hpc] at hcontrol
  obtain ⟨-, hi⟩ := control_returns k idle stage i didWork quit m.pump h.pump pc hcontrol
  simp only [Machine.stepsLeft, hpc, Pc.stepsLeft, hi, if_neg (Nat.lt_irrefl _)]

/-- **The loop over the connections ends** although connections are removed on the way: it takes at
    most four steps for each connection there was when it began, or two after a timeout, and exactly
    so many when `DoWork` returns. -/
theorem loop_ends (m : Machine) (k : Caller) (idle didWork : Bool) (p : Steps Machine Op)
    (hentry : m.pc = .visit k idle (.first idle) 0 didWork)
    (hp : Along (fun m op m' => m.step op = some m') m p)
    (hloop : Along (fun _ op _ => op.turn ≠ none) m p) :
    p.length ≤ (Stage.first idle).stepsLeft * m.pump.connections.length
      ∧ ∀ quit, (last m p).step (.returns quit) ≠ none →
        p.length = (Stage.first idle).stepsLeft * m.pump.connections.length := by
  have hrun := stepsLeft_run m p hp hloop
  rw [stepsLeft_entry m k idle didWork hentry] at hrun
  refine ⟨by omega, fun quit hreturns => ?_⟩
  have hnone := stepsLeft_returns (last m p) quit hreturns
  omega

/-- Consumers connect on sockets 1024 and 1028, and their sessions are accepted. -/
def connectTwo : List Op :=
  [.start, .doWork 0, .returns false, .select 1 {3} ∅ ∅]
    ++ passOver 1 (some ⟨0x7f00, ⟨1024, 0, 0, 60⟩⟩) (visit 0 .nothing)
    ++ passOver 1 none (visit 0 .nothing) ++ [.select 1 {3} ∅ ∅]
    ++ passOver 2 (some ⟨0x7f10, ⟨1028, 0, 0, 60⟩⟩) (visit 0 .nothing ++ visit 1 .nothing)
    ++ passOver 2 none (visit 0 .nothing ++ visit 1 .nothing) ++ [.select 2 {1024, 1028} ∅ ∅]
    ++ passOver 3 none
      (visit 0 (.initChannel (.success 14 0 60) (.initialized 1 0 true) .closed)
        ++ visit 1 (.initChannel (.success 14 0 60) (.initialized 2 0 true) .closed))
    ++ passOver 3 none (visit 0 .nothing ++ visit 1 .nothing)

/-- The first is gone: the second moves to its position. -/
def loseFirst : List Op :=
  [.select 1 ∅ ∅ {1024}] ++ passOver 4 none (visit 0 .nothing ++ visit 0 .nothing)

section Replay

set_option maxRecDepth 20000

/-- Eight steps, although the second connection is at the position the first was at. -/
theorem loop_ends_losing :
    ∃ p q, replay Machine.step Machine.bound
        (connectTwo ++ [.select 1 ∅ ∅ {1024}, .doWork 4, .noReply, .connection none]) = some p
      ∧ replay Machine.step (last Machine.bound p) (visit 0 .nothing ++ visit 0 .nothing) = some q
      ∧ (last Machine.bound p).pump.connections = [0x7f00, 0x7f10]
      ∧ (last (last Machine.bound p) q).pump.connections = [0x7f10]
      ∧ q.length ≤ (Stage.first false).stepsLeft * (last Machine.bound p).pump.connections.length
      ∧ ∀ quit, (last (last Machine.bound p) q).step (.returns quit) ≠ none →
        q.length
          = (Stage.first false).stepsLeft * (last Machine.bound p).pump.connections.length :=
  ⟨_, _, rfl, rfl, rfl, rfl, loop_ends _ .run false false _ rfl
    (along_replay Machine.step _ (visit 0 .nothing ++ visit 0 .nothing) _ rfl)
    (along_replay_labels Machine.step (fun op => op.turn ≠ none) _
      (visit 0 .nothing ++ visit 0 .nothing) _ rfl (by decide))⟩

end Replay

/-! ## Whose turn it is -/

/-- A turn that is over. -/
structure Turn where
  channel : UInt64
  /-- the channels `rsslPing` was called on in the turn -/
  pings : List UInt64
  /-- the list of connections is shorter after it -/
  removed : Bool
  deriving DecidableEq

/-- What a pass has come to. -/
structure Round where
  /-- the connections when the loop began -/
  due : List UInt64
  turns : List Turn
  /-- the channels `rsslPing` was called on since the last of these -/
  pings : List UInt64
  deriving DecidableEq

/-- The channels pinged in the pass. -/
def Round.pinged (r : Round) : List UInt64 :=
  r.turns.flatMap Turn.pings ++ r.pings

/-- Those who had a turn, in order. -/
def Round.visited (r : Round) : List UInt64 :=
  r.turns.map Turn.channel

/-- Those of them who were not removed in it. -/
def Round.kept (r : Round) : List UInt64 :=
  (r.turns.filter fun turn => !turn.removed).map Turn.channel

/-- The channels pinged by these calls. -/
def pingsOf (calls : List RsslCall) : List UInt64 :=
  calls.filterMap fun
    | .ping c _ => some c
    | _ => none

/-- The round after a step; one begins with each `DoWork`, and a turn ends with its disconnect. -/
def Round.after (r : Round) (p : Pump) (op : Op) (h : Handled) : Round :=
  let pings := r.pings ++ pingsOf h.calls
  match op with
  | .doWork _ => ⟨h.pump.connections, [], pingsOf h.calls⟩
  | .connection _ => { r with due := h.pump.connections, pings }
  | .disconnect i _ =>
      { r with
        turns := r.turns ++ (p.connections[i]?.map fun c =>
          ⟨c, pings, decide (h.pump.connections.length < p.connections.length)⟩).toList
        pings := [] }
  | _ => { r with pings }

/-- The provider, and its round. -/
structure Patrol extends Machine where
  round : Round

namespace Patrol

/-- One step. -/
def step (t : Patrol) (op : Op) : Option Patrol :=
  (t.pump.exec op).bind fun h =>
    (t.toMachine.step op).map fun m => ⟨m, t.round.after t.pump op h⟩

/-- Nothing happened yet. -/
def init (t : Patrol) : Prop :=
  t.toMachine.init ∧ t.round = ⟨[], [], []⟩

theorem step_spec (t t' : Patrol) (op : Op) (hstep : t.step op = some t') :
    ∃ h, t.pump.exec op = some h ∧ t'.pump = h.pump
      ∧ control t.pc t.pump op h.pump = some t'.pc ∧ t'.round = t.round.after t.pump op h
      ∧ t.toMachine.step op = some t'.toMachine := by
  obtain ⟨h, hexec, hmap⟩ := Option.bind_eq_some_iff.mp hstep
  obtain ⟨m, hm, rfl⟩ := Option.map_eq_some_iff.mp hmap
  obtain ⟨h', pc, hexec', hcontrol, rfl⟩ := (step_eq_some _ _ op).mp hm
  obtain rfl := Option.some.inj (hexec.symm.trans hexec')
  exact ⟨h, hexec, rfl, hcontrol, rfl, hm⟩

/-! ### Pings -/

theorem pingsOf_session (c : UInt64) (events : List Event) :
    pingsOf (events.map (.session c)) = [] := by
  induction events with
  | nil => rfl
  | cons e rest ih => exact ih

theorem pingsOf_onMsg (p : Pump) (c : UInt64) (msg : Option InMsg) (env : Env)
    (left : Option Down) (h : Handled) (hrun : p.onMsg c msg env left = some h) :
    pingsOf h.calls = [] := by
  cases msg with
  | none =>
      obtain rfl := Option.some.inj hrun
      rfl
  | some m =>
      obtain ⟨k, -, hk⟩ := Option.bind_eq_some_iff.mp hrun
      obtain ⟨client, -, hmethod⟩ := Option.bind_eq_some_iff.mp hk
      obtain ⟨d, -, rfl⟩ := Option.map_eq_some_iff.mp hmethod
      exact pingsOf_session k d.events

theorem pingsOf_onReadEx (p : Pump) (c : UInt64) (ret : ReadEx) (h : Handled)
    (hrun : p.onReadEx c ret = some h) : pingsOf h.calls = [] := by
  cases ret with
  | congestionDetected | slowReader | packetGapDetected | fdChange _ | failure =>
      obtain rfl := Option.some.inj hrun
      rfl
  | ping =>
      obtain ⟨p', -, rfl⟩ := Option.map_eq_some_iff.mp hrun
      rfl
  | data positive buf left =>
      obtain ⟨h₁, hbuf, rfl⟩ := Option.map_eq_some_iff.mp hrun
      have hnone : pingsOf h₁.calls = [] := by
        cases buf with
        | none =>
            obtain rfl := Option.some.inj hbuf
            rfl
        | some received =>
            obtain ⟨h₂, hmsg, hpong⟩ := Option.bind_eq_some_iff.mp hbuf
            obtain ⟨p', -, rfl⟩ := Option.map_eq_some_iff.mp hpong
            exact pingsOf_onMsg p c received.1 received.2 left h₂ hmsg
      split <;> exact hnone

theorem pingsOf_onInitializingState (p : Pump) (c : UInt64) (ret : InitChannel)
    (session : NewSession) (left : Down) (h : Handled)
    (hrun : p.onInitializingState c ret session left = some h) : pingsOf h.calls = [] := by
  cases ret with
  | inProgress newSocket =>
      cases newSocket <;>
      · obtain rfl := Option.some.inj hrun
        rfl
  | failure left =>
      obtain rfl := Option.some.inj hrun
      rfl
  | success majorVersion minorVersion pingTimeout =>
      obtain ⟨h₁, hsession, rfl⟩ := Option.map_eq_some_iff.mp hrun
      unfold Pump.onActiveClientSession at hsession
      split at hsession
      · obtain rfl := Option.some.inj hsession
        rfl
      · split at hsession
        · obtain rfl := Option.some.inj hsession
          rfl
        · obtain rfl := Option.some.inj hsession
          rfl
        · obtain ⟨-, hsession⟩ := Option.ite_none_left_eq_some.mp hsession
          obtain rfl := Option.some.inj hsession
          rfl

/-- Reading pings nobody. -/
theorem pingsOf_read (p : Pump) (i : Nat) (answer : ReadAnswer) (h : Handled)
    (hrun : p.exec (.read i answer) = some h) : pingsOf h.calls = [] := by
  obtain ⟨c, -, hread⟩ := Option.bind_eq_some_iff.mp hrun
  split at hread
  · unfold Pump.onCanRead at hread
    split at hread
    · obtain rfl := Option.some.inj hread
      rfl
    · exact pingsOf_onInitializingState _ c _ _ _ h hread
    · exact pingsOf_onReadEx _ c _ h hread
    · obtain rfl := Option.some.inj hread
      rfl
    · obtain rfl := Option.some.inj hread
      rfl
    · exact absurd hread (by simp)
  · obtain rfl := Option.some.inj hread
    rfl

/-- Nor does flushing. -/
theorem pingsOf_write (p : Pump) (i : Nat) (rc : RsslRet) (left : Option Down) (h : Handled)
    (hrun : p.exec (.write i rc left) = some h) : pingsOf h.calls = [] := by
  obtain ⟨c, -, hwrite⟩ := Option.bind_eq_some_iff.mp hrun
  split at hwrite
  · unfold Pump.onCanWrite at hwrite
    split at hwrite
    · obtain ⟨p', -, rfl⟩ := Option.map_eq_some_iff.mp hwrite
      rfl
    · obtain rfl := Option.some.inj hwrite
      rfl
  · obtain rfl := Option.some.inj hwrite
    rfl

/-- Nor does a reply. -/
theorem pingsOf_reply (p : Pump) (env : Env) (z : ReadEnv) (msg : Bytes) (left : Option Down)
    (h : Handled) (hrun : p.exec (.reply env z msg left) = some h) : pingsOf h.calls = [] := by
  simp only [Pump.exec] at hrun
  split at hrun
  · obtain ⟨⟨q, events⟩, -, rfl⟩ := Option.map_eq_some_iff.mp hrun
    exact pingsOf_session _ events
  · obtain rfl := Option.some.inj hrun
    rfl

/-- What a ping calls. -/
theorem calls_ping (p : Pump) (c : UInt64) (rc : RsslRet) (left : Option Down) (h : Handled)
    (hrun : p.ping c rc left = some h) : h.calls = [.ping c rc] := by
  unfold Pump.ping at hrun
  split at hrun
  · obtain ⟨p', -, rfl⟩ := Option.map_eq_some_iff.mp hrun
    rfl
  all_goals
    obtain rfl := Option.some.inj hrun
    rfl

/-- The keepalive pings the connection at the iterator, or nobody. -/
theorem pingsOf_keepalive (p : Pump) (i : Nat) (rc : RsslRet) (left : Option Down) (h : Handled)
    (hrun : p.exec (.keepalive i rc left) = some h) :
    (pingsOf h.calls).Sublist p.connections[i]?.toList := by
  obtain ⟨c, hc, hkeep⟩ := Option.bind_eq_some_iff.mp hrun
  rw [hc, Option.toList_some]
  unfold Pump.keepalive at hkeep
  split at hkeep
  · obtain ⟨client, -, hclient⟩ := Option.bind_eq_some_iff.mp hkeep
    obtain ⟨h₁, hping, rfl⟩ := Option.map_eq_some_iff.mp hclient
    have hcalls : (pingsOf h₁.calls).Sublist [c] := by
      split at hping
      · rw [calls_ping p c rc left h₁ hping]
        exact List.Sublist.refl _
      · obtain rfl := Option.some.inj hping
        exact List.nil_sublist _
    split <;> exact hcalls
  · obtain rfl := Option.some.inj hkeep
    exact List.nil_sublist _

/-- Nor does the listening socket. -/
theorem pingsOf_connection (p : Pump) (accepted : Option Accepted) (h : Handled)
    (hrun : p.exec (.connection accepted) = some h) : pingsOf h.calls = [] := by
  obtain ⟨listening, -, rfl⟩ := Option.map_eq_some_iff.mp hrun
  split
  · unfold Pump.onConnection
    split
    all_goals cases accepted <;> rfl
  · rfl

/-- Removing a connection pings nobody. -/
theorem pingsOf_disconnect (p : Pump) (i : Nat) (left : Down) (h : Handled)
    (hrun : p.exec (.disconnect i left) = some h) : pingsOf h.calls = [] := by
  obtain ⟨c, -, hat⟩ := Option.bind_eq_some_iff.mp hrun
  obtain rfl := Option.some.inj hat
  split
  · unfold Pump.disconnect
    split <;> rfl
  · rfl

/-- What a step of a turn pings is pinged in the pass. -/
theorem pinged_turn (r : Round) (p : Pump) (op : Op) (h : Handled) (i : Nat) (c : UInt64)
    (hop : op.turn = some i) (hc : p.connections[i]? = some c) :
    (r.after p op h).pinged = r.pinged ++ pingsOf h.calls := by
  cases op with
  | read | write | keepalive => simp [Round.after, Round.pinged]
  | disconnect =>
      obtain rfl := Option.some.inj hop
      simp [Round.after, Round.pinged, hc]
  | _ => exact absurd hop (by simp [Op.turn])

/-! ### The invariant -/

/-- Those whose turn is over and those ahead are the connections the loop began with; those behind
    the iterator are the ones kept; pings are for the connection at the iterator. -/
def OnRound (t : Patrol) : Prop :=
  match t.pc with
  | .external _ | .server _ _ => t.round.turns = [] ∧ t.round.pings = []
  | .visit _ _ stage i _ =>
      t.round.visited ++ t.pump.connections.drop i = t.round.due
        ∧ t.pump.connections.take i = t.round.kept
        ∧ (∀ turn ∈ t.round.turns, turn.pings.Sublist [turn.channel])
        ∧ t.round.pings.Sublist
          (if stage = .disconnect then t.pump.connections[i]?.toList else [])
  | _ => True

/-- The loop begins. -/
theorem onRound_begins (t : Patrol) (k : Caller) (idle : Bool) (stage : Stage) (didWork : Bool)
    (hpc : t.pc = .visit k idle stage 0 didWork) (hdue : t.round.due = t.pump.connections)
    (hturns : t.round.turns = []) (hpings : t.round.pings = []) : t.OnRound := by
  simp only [OnRound, hpc, Round.visited, Round.kept, hturns, hpings, hdue]
  exact ⟨rfl, rfl, fun turn hmem => absurd hmem List.not_mem_nil, List.nil_sublist _⟩

/-- A step within a turn, before its last. -/
theorem onRound_within (t t' : Patrol) (h : Handled) (k : Caller) (idle : Bool)
    (stage stage' : Stage) (i : Nat) (didWork didWork' : Bool) (ht : t.OnRound)
    (hpc : t.pc = .visit k idle stage i didWork) (hpc' : t'.pc = .visit k idle stage' i didWork')
    (hstage : stage ≠ .disconnect) (hconnections : t'.pump.connections = t.pump.connections)
    (hround : t'.round = { t.round with pings := t.round.pings ++ pingsOf h.calls })
    (hpings : (pingsOf h.calls).Sublist
      (if stage' = .disconnect then t.pump.connections[i]?.toList else [])) : t'.OnRound := by
  simp only [OnRound, hpc, if_neg hstage] at ht
  simp only [OnRound, hpc', hround, hconnections]
  obtain ⟨hcovers, hkept, hown, hnone⟩ := ht
  exact ⟨hcovers, hkept, hown, hnone.append hpings⟩

/-- The last step of a turn. -/
theorem onRound_turn (t t' : Patrol) (h : Handled) (k : Caller) (idle : Bool) (i : Nat)
    (didWork : Bool) (left : Down) (ht : t.OnRound)
    (hpc : t.pc = .visit k idle .disconnect i didWork)
    (hexec : t.pump.exec (.disconnect i left) = some h) (hpump : t'.pump = h.pump)
    (hcontrol : control t.pc t.pump (.disconnect i left) h.pump = some t'.pc)
    (hround : t'.round = t.round.after t.pump (.disconnect i left) h) : t'.OnRound := by
  rw [hpc] at hcontrol
  obtain ⟨c, erased, hc, -, hconnections, hpc'⟩ :=
    turn_ends k idle i didWork left t.pump h _ hexec hcontrol
  simp only [OnRound, hpc, if_pos, hc, Option.toList_some] at ht
  obtain ⟨hcovers, hkept, hown, hpings⟩ := ht
  obtain ⟨hlt, -⟩ := List.getElem?_eq_some_iff.mp hc
  have hremoved : decide (h.pump.connections.length < t.pump.connections.length) = erased := by
    rw [hconnections, Bool.decide_congr (Sweep.left_shorter erased _ i hlt), Bool.decide_eq_true]
  have hover : t'.round
      = { t.round with turns := t.round.turns ++ [⟨c, t.round.pings, erased⟩], pings := [] } := by
    rw [hround, Round.after, hc, pingsOf_disconnect t.pump i left h hexec, hremoved,
      List.append_nil]
    rfl
  have hfirst : Stage.first idle ≠ .disconnect := by cases idle <;> simp [Stage.first]
  simp only [OnRound, hpc', hover, hpump, hconnections, if_neg hfirst, Round.visited, Round.kept,
    List.map_append, List.map_cons, List.map_nil, List.filter_append]
  refine ⟨?_, ?_, fun turn hmem => ?_, List.nil_sublist _⟩
  · exact Sweep.covers_turn t.round.due t.round.visited t.pump.connections i c erased hc hcovers
  · rw [Sweep.take_left erased _ i c hc, hkept]
    cases erased <;> rfl
  · rcases List.mem_append.mp hmem with hold | hnew
    · exact hown turn hold
    · rw [List.mem_singleton.mp hnew]
      exact hpings

theorem onRound_step (t t' : Patrol) (op : Op) (ht : t.OnRound) (hstep : t.step op = some t') :
    t'.OnRound := by
  obtain ⟨h, hexec, hpump, hcontrol, hround, -⟩ := t.step_spec t' op hstep
  have hflow := control_flow t.pc t'.pc t.pump h.pump op hcontrol
  generalize hbefore : t.pc = before at hflow
  generalize hafter : t'.pc = after at hflow
  cases hflow with
  | idle k now hidle =>
      obtain rfl := Option.some.inj hexec
      refine onRound_begins t' k _ _ _ hafter ?_ ?_ ?_
      · rw [hround, hpump]
        rfl
      · rw [hround]
        rfl
      · rw [hround]
        rfl
  | work k now hwork =>
      obtain rfl := Option.some.inj hexec
      simp only [OnRound, hafter, hround]
      exact ⟨rfl, rfl⟩
  | external k env z msg left =>
      simp only [OnRound, hbefore] at ht
      simp only [OnRound, hafter, hround, Round.after]
      rw [pingsOf_reply t.pump env z msg left h hexec, List.append_nil]
      exact ht
  | server k didWork accepted =>
      simp only [OnRound, hbefore] at ht
      refine onRound_begins t' k _ _ _ hafter ?_ ?_ ?_
      · rw [hround, hpump]
        rfl
      · rw [hround]
        exact ht.1
      · rw [hround, Round.after, pingsOf_connection t.pump accepted h hexec, List.append_nil]
        exact ht.2
  | read k idle i didWork ready answer =>
      have hconnections := t.pump.connections_turn _ h i rfl (by simp) hexec
      refine onRound_within t t' h k idle _ _ i _ _ ht hbefore hafter (by simp)
        (hpump ▸ hconnections) hround ?_
      rw [pingsOf_read t.pump i answer h hexec]
      exact List.nil_sublist _
  | write k idle i didWork ready rc left =>
      have hconnections := t.pump.connections_turn _ h i rfl (by simp) hexec
      refine onRound_within t t' h k idle _ _ i _ _ ht hbefore hafter (by simp)
        (hpump ▸ hconnections) hround ?_
      rw [pingsOf_write t.pump i rc left h hexec]
      exact List.nil_sublist _
  | keepalive k idle i didWork rc left =>
      have hconnections := t.pump.connections_turn _ h i rfl (by simp) hexec
      refine onRound_within t t' h k idle _ _ i _ _ ht hbefore hafter (by simp)
        (hpump ▸ hconnections) hround ?_
      exact pingsOf_keepalive t.pump i rc left h hexec
  | disconnect k idle i next didWork left =>
      exact onRound_turn t t' h k idle i didWork left ht hbefore hexec hpump hcontrol hround
  | start | quits | again | waits | drained | select | close | update | drain | skip | notify
  | teardown | throw => simp only [OnRound, hafter]

theorem onRound_init (t : Patrol) (ht : t.init) : t.OnRound := by
  simp only [OnRound, ht.1.1]

end Patrol

/-- The provider on its rounds. -/
def patrolSystem : System Patrol Op :=
  .ofFn Patrol.init Patrol.step

/-- The ghost takes no part in what the provider does. -/
theorem patrol_simulates : Simulates patrolSystem pumpSystem Patrol.toMachine := by
  refine ⟨fun t ht => ht.1, fun t op t' hstep => .inr ⟨op, ?_⟩⟩
  obtain ⟨-, -, -, -, -, hmachine⟩ := t.step_spec t' op hstep
  exact hmachine

/-- When a pass is over, everyone had a turn, those left are the ones whose turn did not remove them,
    and nobody was pinged but once, in a turn of their own. -/
structure Patrol.Complete (t : Patrol) : Prop where
  visited : t.round.visited = t.round.due
  left : t.pump.connections = t.round.kept
  pinged : ∀ turn ∈ t.round.turns, turn.pings.Sublist [turn.channel]
  others : t.round.pings = []

theorem Patrol.complete_of_returns (t t' : Patrol) (quit : Bool) (ht : t.OnRound)
    (hstep : t.step (.returns quit) = some t') : t.Complete := by
  obtain ⟨h, hexec, hpump, hcontrol, -, -⟩ := t.step_spec t' _ hstep
  obtain ⟨k, idle, stage, i, didWork, hpc⟩ := pc_of_returns t.pc t'.pc t.pump h.pump quit hcontrol
  rw [hpc] at hcontrol
  obtain ⟨rfl, rfl⟩ := control_returns k idle stage i didWork quit t.pump h.pump _ hcontrol
  simp only [OnRound, hpc, List.drop_length, List.append_nil, List.take_length] at ht
  obtain ⟨hvisited, hkept, hown, hothers⟩ := ht
  rw [if_neg (by cases idle <;> simp [Stage.first])] at hothers
  exact ⟨hvisited, hkept, hown, List.sublist_nil.mp hothers⟩

/-- Nothing happened yet. -/
def Patrol.bound : Patrol :=
  ⟨.bound, ⟨[], [], []⟩⟩

theorem patrol_bound_init : patrolSystem.init Patrol.bound :=
  ⟨bound_init, rfl⟩

section Replay

set_option maxRecDepth 20000

end Replay

end Hitsuji
