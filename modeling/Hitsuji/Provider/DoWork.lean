import Hitsuji.Client.Writes
import Hitsuji.Provider.Pump
import Mathlib.Data.Finset.Card

set_option autoImplicit false

/-! # Run, DoWork and Close

The loops of `provider_t` as a transition system. A step (`Op`) is one handler for one connection,
or one statement of a loop; where the program stands between two steps is its `Pc`, with the
position of the iterator into `connections_`. `exec` says what a step does, `control` when it is
taken.

Next to the provider the state keeps a record that no function of the code reads: which channels
have output queued inside RSSL, and how often each channel was closed. -/

namespace Hitsuji

open ByteBuffer Transition

/-! ## Steps -/

/-- A step of the provider, with what RSSL, ZeroMQ and the clock answer. -/
inductive Op where
  /-- `Run` initialises the interest sets -/
  | start
  /-- `last_activity_` at the head of `DoWork` -/
  | doWork (now : Nat)
  | reply (env : Env) (z : ReadEnv) (msg : Bytes) (left : Option Down)
  | connection (accepted : Option Accepted)
  | read (i : Nat) (answer : ReadAnswer)
  | write (i : Nat) (rc : RsslRet) (left : Option Down)
  | keepalive (i : Nat) (rc : RsslRet) (left : Option Down)
  | disconnect (i : Nat) (left : Down)
  /-- `DoWork` returns; `quit` if `keep_running_` is unset by then -/
  | returns (quit : Bool)
  | select (n : Int) (rfds wfds efds : Finset Nat)
  /-- an exception ends `Run` -/
  | throw
  /-- `Close` stops accepting -/
  | close
  | directoryUpdate (c : UInt64) (env : Env) (left : Option Down)
  /-- `Close` is about to wait for the tokens of its clients -/
  | drain
  | notify (c : UInt64) (env : Env) (left : Option Down) (loop : FlushLoop)
      (leftByFlush : Option Down)
  | teardown (left : UInt64 → Down)

/-- The channel that `rsslAccept` returns for a new connection. -/
def Op.accepted : Op → Option Accepted
  | .connection accepted => accepted
  | _ => none

namespace Pump

/-- The handler of the connection at the iterator. -/
def at? (p : Pump) (i : Nat) (handler : UInt64 → Option Handled) : Option Handled :=
  p.connections[i]?.bind handler

/-- The reply socket is there and was selected. -/
def replyReady (p : Pump) : Bool :=
  decide (p.replySock ≠ invalidSocket ∧ p.replySock ∈ p.outRfds)

/-- `FD_ISSET (rssl_sock_->socketId, &out_rfds_)` -/
def serverReady (p : Pump) : Bool :=
  p.rsslSock.any fun listening => decide (listening ∈ p.outRfds)

/-- `Close` pumps messages if there are tokens to wait for. -/
def mustDrain (p : Pump) : Bool :=
  p.rsslSock.isSome && !p.sessions.isEmpty

/-- `active_tokens`, summed over the clients. -/
def activeTokens (p : Pump) : Nat :=
  (p.keys.map fun c => ((p.clients c).map fun client => client.tokens.card).getD 0).sum

/-- Clear the selected socket before handling it. -/
def clearRead (p : Pump) (socket : Nat) : Pump :=
  { p with outRfds := p.outRfds.erase socket }

/-- What a step does; `none` if it is not possible or nothing follows from it. -/
def exec (p : Pump) : Op → Option Handled
  | .start => p.rsslSock.map fun listening => ⟨p.resetInterest listening, []⟩
  | .doWork now => some ⟨{ p with view := { p.view with lastActivity := now } }, []⟩
  | .reply env z msg left =>
      if p.replyReady then p.onReplySocket env z msg left else some ⟨p, []⟩
  | .connection accepted =>
      p.rsslSock.map fun listening =>
        if listening ∈ p.outRfds then (p.clearRead listening).onConnection accepted else ⟨p, []⟩
  | .read i answer =>
      p.at? i fun c =>
        if p.socketId c ∈ p.outRfds then (p.clearRead (p.socketId c)).onCanRead c answer
        else some ⟨p, []⟩
  | .write i rc left =>
      p.at? i fun c =>
        if p.socketId c ∈ p.outWfds then
          onCanWrite { p with outWfds := p.outWfds.erase (p.socketId c) } c rc left
        else some ⟨p, []⟩
  | .keepalive i rc left => p.at? i fun c => p.keepalive c rc left
  | .disconnect i left =>
      p.at? i fun c =>
        some (if p.socketId c ∈ p.outEfds then p.disconnect i c left else ⟨p, []⟩)
  | .returns _ | .throw => some ⟨p, []⟩
  | .select n rfds wfds efds =>
      if rfds ⊆ p.inRfds ∧ wfds ⊆ p.view.inWfds ∧ efds ⊆ p.inEfds then
        some ⟨{ p with outNfds := n, outRfds := rfds, outWfds := wfds, outEfds := efds }, []⟩
      else none
  | .close =>
      some ⟨{ p with
        isAcceptingConnections := false
        view := { p.view with isAcceptingRequests := false } }, []⟩
  | .directoryUpdate c env left => p.directoryUpdate c env left
  | .drain =>
      if p.mustDrain then p.rsslSock.map fun listening => ⟨p.resetInterest listening, []⟩
      else some ⟨p, []⟩
  | .notify c env left loop leftByFlush => p.notify c env left loop leftByFlush
  | .teardown left => some (p.teardown left)

end Pump

/-! ## Control -/

/-- The caller of `DoWork`. -/
inductive Caller where
  | run
  | close
  deriving DecidableEq

/-- What the loop body does next with a connection. -/
inductive Stage where
  | read
  | write
  | keepalive
  | disconnect
  deriving DecidableEq

/-- Where the provider stands. -/
inductive Pc where
  /-- initialised -/
  | ready
  /-- about to call `DoWork` -/
  | pass (k : Caller)
  /-- past the test for a timeout -/
  | external (k : Caller)
  /-- past the reply socket -/
  | server (k : Caller) (didWork : Bool)
  /-- in the loop over `connections_`, the short one when `idle` -/
  | visit (k : Caller) (idle : Bool) (stage : Stage) (i : Nat) (didWork : Bool)
  | select (k : Caller)
  /-- `Run` returned -/
  | stopped
  /-- `Close` updates the directories of these clients -/
  | updating (todo : List UInt64)
  /-- `Close` notifies these clients -/
  | notifying (todo : List UInt64)
  /-- `Close` returned -/
  | closed
  deriving DecidableEq

/-- The first thing the loop body does. -/
def Stage.first (idle : Bool) : Stage :=
  if idle then .keepalive else .read

/-- Inside `Run` or the pump of `Close`. -/
def Pc.pumping : Pc → Option Caller
  | .pass k | .external k | .server k _ | .visit k _ _ _ _ | .select k => some k
  | _ => none

/-- After `DoWork`: leave the loop, work on, or wait. -/
def Pc.afterPass (p : Pump) (k : Caller) (quit didWork : Bool) : Pc :=
  match k with
  | .run => if quit then .stopped else if didWork then .pass k else .select k
  | .close =>
      if p.activeTokens = 0 then .notifying p.keys else if didWork then .pass k else .select k

/-- The step `op` from `p` to `p'` is the next one at `pc`, and what follows it. -/
def control (pc : Pc) (p : Pump) (op : Op) (p' : Pump) : Option Pc :=
  match pc, op with
  | .ready, .start => some (.pass .run)
  | .pass k, .doWork _ =>
      if p.outNfds ≤ 0 then some (.visit k true (.first true) 0 false) else some (.external k)
  | .external k, .reply _ _ _ _ => some (.server k p.replyReady)
  | .server k didWork, .connection _ =>
      some (.visit k false (.first false) 0 (didWork || p.serverReady))
  | .visit k idle .read i didWork, .read j _ =>
      if j = i then
        some (.visit k idle .write i
          (didWork || p.connections[i]?.any fun c => decide (p.socketId c ∈ p.outRfds)))
      else none
  | .visit k idle .write i didWork, .write j _ _ =>
      if j = i then
        some (.visit k idle .keepalive i
          (didWork || p.connections[i]?.any fun c => decide (p.socketId c ∈ p.outWfds)))
      else none
  | .visit k idle .keepalive i didWork, .keepalive j _ _ =>
      if j = i then some (.visit k idle .disconnect i didWork) else none
  | .visit k idle .disconnect i didWork, .disconnect j _ =>
      if j = i then
        -- an erased element moves the iterator along
        some (.visit k idle (.first idle)
          (if p'.connections.length < p.connections.length then i else i + 1) didWork)
      else none
  | .visit k idle stage i didWork, .returns quit =>
      if stage = .first idle ∧ i = p.connections.length then some (.afterPass p k quit didWork)
      else none
  | .select k, .select _ _ _ _ => some (.pass k)
  | .ready, .close | .stopped, .close | .closed, .close => some (.updating p.keys)
  | .updating todo, .directoryUpdate c _ _ =>
      if c ∈ todo then some (.updating (todo.erase c)) else none
  | .updating [], .drain => some (if p.mustDrain then .pass .close else .notifying p.keys)
  | .notifying todo, .notify c _ _ _ _ =>
      if c ∈ todo then some (.notifying (todo.erase c)) else none
  | .notifying [], .teardown _ => some .closed
  | pc, .throw => if pc.pumping = some .run then some .stopped else none
  | _, _ => none

/-- Everything `control` can do. -/
inductive Flow (p : Pump) : Pc → Op → Pc → Prop where
  | start : Flow p .ready .start (.pass .run)
  /-- the pass after a timeout -/
  | idle (k : Caller) (now : Nat) (h : p.outNfds ≤ 0) :
      Flow p (.pass k) (.doWork now) (.visit k true .keepalive 0 false)
  | work (k : Caller) (now : Nat) (h : 0 < p.outNfds) :
      Flow p (.pass k) (.doWork now) (.external k)
  | external (k : Caller) (env : Env) (z : ReadEnv) (msg : Bytes) (left : Option Down) :
      Flow p (.external k) (.reply env z msg left) (.server k p.replyReady)
  | server (k : Caller) (didWork : Bool) (accepted : Option Accepted) :
      Flow p (.server k didWork) (.connection accepted)
        (.visit k false .read 0 (didWork || p.serverReady))
  | read (k : Caller) (idle : Bool) (i : Nat) (didWork ready : Bool) (answer : ReadAnswer) :
      Flow p (.visit k idle .read i didWork) (.read i answer)
        (.visit k idle .write i (didWork || ready))
  | write (k : Caller) (idle : Bool) (i : Nat) (didWork ready : Bool) (rc : RsslRet)
      (left : Option Down) :
      Flow p (.visit k idle .write i didWork) (.write i rc left)
        (.visit k idle .keepalive i (didWork || ready))
  | keepalive (k : Caller) (idle : Bool) (i : Nat) (didWork : Bool) (rc : RsslRet)
      (left : Option Down) :
      Flow p (.visit k idle .keepalive i didWork) (.keepalive i rc left)
        (.visit k idle .disconnect i didWork)
  | disconnect (k : Caller) (idle : Bool) (i next : Nat) (didWork : Bool) (left : Down) :
      Flow p (.visit k idle .disconnect i didWork) (.disconnect i left)
        (.visit k idle (.first idle) next didWork)
  /-- `Run` ends -/
  | quits (idle : Bool) (stage : Stage) (i : Nat) (didWork : Bool) :
      Flow p (.visit .run idle stage i didWork) (.returns true) .stopped
  /-- the pass did work, so there is another -/
  | again (k : Caller) (idle : Bool) (stage : Stage) (i : Nat) (quit : Bool) :
      Flow p (.visit k idle stage i true) (.returns quit) (.pass k)
  | waits (k : Caller) (idle : Bool) (stage : Stage) (i : Nat) (quit : Bool) :
      Flow p (.visit k idle stage i false) (.returns quit) (.select k)
  /-- `Close` waited for all tokens -/
  | drained (idle : Bool) (stage : Stage) (i : Nat) (didWork quit : Bool)
      (h : p.activeTokens = 0) :
      Flow p (.visit .close idle stage i didWork) (.returns quit) (.notifying p.keys)
  | select (k : Caller) (n : Int) (rfds wfds efds : Finset Nat) :
      Flow p (.select k) (.select n rfds wfds efds) (.pass k)
  | close (pc : Pc) (h : pc = .ready ∨ pc = .stopped ∨ pc = .closed) :
      Flow p pc .close (.updating p.keys)
  | update (todo : List UInt64) (c : UInt64) (env : Env) (left : Option Down) :
      Flow p (.updating todo) (.directoryUpdate c env left) (.updating (todo.erase c))
  | drain (h : p.mustDrain = true) : Flow p (.updating []) .drain (.pass .close)
  /-- nothing to wait for -/
  | skip (h : p.mustDrain = false) : Flow p (.updating []) .drain (.notifying p.keys)
  | notify (todo : List UInt64) (c : UInt64) (env : Env) (left : Option Down) (loop : FlushLoop)
      (leftByFlush : Option Down) :
      Flow p (.notifying todo) (.notify c env left loop leftByFlush) (.notifying (todo.erase c))
  | teardown (left : UInt64 → Down) : Flow p (.notifying []) (.teardown left) .closed
  | throw (pc : Pc) (h : pc.pumping = some .run) : Flow p pc .throw .stopped

theorem flow_afterPass (p : Pump) (k : Caller) (idle : Bool) (stage : Stage) (i : Nat)
    (didWork quit : Bool) :
    Flow p (.visit k idle stage i didWork) (.returns quit) (.afterPass p k quit didWork) := by
  cases k with
  | run =>
      cases quit with
      | true => exact .quits idle stage i didWork
      | false =>
          cases didWork with
          | true => exact .again .run idle stage i false
          | false => exact .waits .run idle stage i false
  | close =>
      unfold Pc.afterPass
      simp only
      split
      · next htokens => exact .drained idle stage i didWork quit htokens
      · cases didWork with
        | true => exact .again .close idle stage i quit
        | false => exact .waits .close idle stage i quit

theorem control_flow (pc pc' : Pc) (p p' : Pump) (op : Op) (h : control pc p op p' = some pc') :
    Flow p pc op pc' := by
  unfold control at h
  split at h
  case h_1 =>
    obtain rfl := Option.some.inj h
    exact .start
  case h_2 k now =>
    split at h
    · next hidle =>
        obtain rfl := Option.some.inj h
        exact .idle k now hidle
    · next hwork =>
        obtain rfl := Option.some.inj h
        exact .work k now (not_le.mp hwork)
  case h_3 k env z msg left =>
    obtain rfl := Option.some.inj h
    exact .external k env z msg left
  case h_4 k didWork accepted =>
    obtain rfl := Option.some.inj h
    exact .server k didWork accepted
  case h_5 k idle i didWork j answer =>
    obtain ⟨rfl, h⟩ := Option.ite_none_right_eq_some.mp h
    obtain rfl := Option.some.inj h
    exact .read k idle j didWork _ answer
  case h_6 k idle i didWork j rc left =>
    obtain ⟨rfl, h⟩ := Option.ite_none_right_eq_some.mp h
    obtain rfl := Option.some.inj h
    exact .write k idle j didWork _ rc left
  case h_7 k idle i didWork j rc left =>
    obtain ⟨rfl, h⟩ := Option.ite_none_right_eq_some.mp h
    obtain rfl := Option.some.inj h
    exact .keepalive k idle j didWork rc left
  case h_8 k idle i didWork j left =>
    obtain ⟨rfl, h⟩ := Option.ite_none_right_eq_some.mp h
    obtain rfl := Option.some.inj h
    exact .disconnect k idle j _ didWork left
  case h_9 k idle stage i didWork quit =>
    obtain ⟨-, h⟩ := Option.ite_none_right_eq_some.mp h
    obtain rfl := Option.some.inj h
    exact flow_afterPass p k idle stage i didWork quit
  case h_10 k n rfds wfds efds =>
    obtain rfl := Option.some.inj h
    exact .select k n rfds wfds efds
  case h_11 =>
    obtain rfl := Option.some.inj h
    exact .close .ready (.inl rfl)
  case h_12 =>
    obtain rfl := Option.some.inj h
    exact .close .stopped (.inr (.inl rfl))
  case h_13 =>
    obtain rfl := Option.some.inj h
    exact .close .closed (.inr (.inr rfl))
  case h_14 todo c env left =>
    obtain ⟨-, h⟩ := Option.ite_none_right_eq_some.mp h
    obtain rfl := Option.some.inj h
    exact .update todo c env left
  case h_15 =>
    obtain rfl := Option.some.inj h
    split
    · next hdrain => exact .drain hdrain
    · next hskip => exact .skip (Bool.eq_false_iff.mpr hskip)
  case h_16 todo c env left loop leftByFlush =>
    obtain ⟨-, h⟩ := Option.ite_none_right_eq_some.mp h
    obtain rfl := Option.some.inj h
    exact .notify todo c env left loop leftByFlush
  case h_17 left =>
    obtain rfl := Option.some.inj h
    exact .teardown left
  case h_18 hpumping =>
    obtain ⟨hrun, h⟩ := Option.ite_none_right_eq_some.mp h
    obtain rfl := Option.some.inj h
    exact .throw _ hrun
  case h_19 => exact absurd h (by simp)

/-- `Run` starts once. -/
theorem control_start (pc pc' : Pc) (p p' : Pump) (h : control pc p .start p' = some pc') :
    pc = .ready := by
  cases control_flow pc pc' p p' .start h
  rfl

/-- `Close` ends when all clients are notified. -/
theorem control_teardown (pc pc' : Pc) (p p' : Pump) (left : UInt64 → Down)
    (h : control pc p (.teardown left) p' = some pc') : pc = .notifying [] := by
  cases control_flow pc pc' p p' _ h
  rfl

/-- `OnRead` is called between the test for a timeout and the listening socket. -/
theorem flow_reply (p : Pump) (pc pc' : Pc) (env : Env) (z : ReadEnv) (msg : Bytes)
    (left : Option Down) (h : Flow p pc (.reply env z msg left) pc') :
    ∃ k, pc = .external k ∧ pc' = .server k p.replyReady := by
  cases h with
  | external k => exact ⟨k, rfl, rfl⟩

/-- Clients are notified when `Close` has waited. -/
theorem flow_notify (p : Pump) (pc pc' : Pc) (c : UInt64) (env : Env) (left : Option Down)
    (loop : FlushLoop) (leftByFlush : Option Down)
    (h : Flow p pc (.notify c env left loop leftByFlush) pc') : ∃ todo, pc = .notifying todo := by
  cases h with
  | notify todo => exact ⟨todo, rfl⟩

/-- Nothing comes back to the start. -/
theorem flow_ne_ready (p : Pump) (pc : Pc) (op : Op) : ¬ Flow p pc op .ready :=
  fun h => nomatch h

theorem control_ne_ready (pc : Pc) (p p' : Pump) (op : Op) :
    control pc p op p' ≠ some .ready :=
  fun h => flow_ne_ready p pc op (control_flow pc .ready p p' op h)

/-- A message pump goes on, or one is entered afresh. -/
theorem control_pumping (pc pc' : Pc) (p p' : Pump) (op : Op)
    (h : control pc p op p' = some pc') (hpc : pc'.pumping.isSome = true) :
    (pc.pumping.isSome = true ∧ ∀ left, op ≠ .teardown left) ∨ op = .start
      ∨ op = .drain ∧ p.mustDrain = true := by
  cases control_flow pc pc' p p' op h with
  | start => exact .inr (.inl rfl)
  | drain hdrain => exact .inr (.inr ⟨rfl, hdrain⟩)
  | quits | drained | close | update | skip | notify | teardown | throw =>
      exact absurd hpc Bool.false_ne_true
  | idle | work | external | server | read | write | keepalive | disconnect | again | waits
  | select => exact .inl ⟨rfl, nofun⟩

/-! ## The record -/

/-- What happened to the channels. -/
structure Record where
  /-- channels with output queued inside RSSL: `Submit` took the pending path and no `rsslFlush` has
      succeeded since -/
  queued : Finset UInt64
  /-- those of them on which `rsslFlush` was not called since -/
  unflushed : Finset UInt64
  /-- `rsslCloseChannel` calls since `rsslAccept` returned the channel -/
  closes : UInt64 → Option Nat

/-- The record after a call. -/
def Record.log (r : Record) : RsslCall → Record
  | .accept a =>
      { queued := r.queued.erase a.handle
        unflushed := r.unflushed.erase a.handle
        closes := Function.update r.closes a.handle (some 0) }
  | .session c (.writeEx _ _ rc) =>
      if rc.isPending then
        { r with queued := insert c r.queued, unflushed := insert c r.unflushed }
      else r
  | .flush c rc =>
      { r with
        queued := if rc = .success then r.queued.erase c else r.queued
        unflushed := r.unflushed.erase c }
  | .closeChannel c =>
      { r with closes := Function.update r.closes c ((r.closes c).map (· + 1)) }
  | _ => r

/-- The record after the calls of a handler. -/
def Record.logAll (r : Record) (calls : List RsslCall) : Record :=
  calls.foldl Record.log r

/-! ## The system -/

/-- The provider, where it stands, and the record. -/
structure Machine where
  pump : Pump
  pc : Pc
  record : Record

/-- One step. -/
def Machine.step (m : Machine) (op : Op) : Option Machine :=
  (m.pump.exec op).bind fun h =>
    (control m.pc m.pump op h.pump).map fun pc => ⟨h.pump, pc, m.record.logAll h.calls⟩

/-- An initialised provider without connections. -/
def Machine.init (m : Machine) : Prop :=
  m.pc = .ready ∧ m.pump.connections = [] ∧ m.pump.sessions = []
    ∧ (∀ c, m.pump.clients c = none) ∧ m.pump.isAcceptingConnections = true
    ∧ m.record = ⟨∅, ∅, fun _ => none⟩

/-- The provider over its lifetime. -/
def pumpSystem : System Machine Op :=
  .ofFn Machine.init Machine.step

/-- What a step does to the parts of the state. -/
theorem step_eq_some (m m' : Machine) (op : Op) : m.step op = some m' ↔
    ∃ h pc, m.pump.exec op = some h ∧ control m.pc m.pump op h.pump = some pc
      ∧ m' = ⟨h.pump, pc, m.record.logAll h.calls⟩ := by
  simp only [Machine.step, Option.bind_eq_some_iff, Option.map_eq_some_iff]
  constructor
  · rintro ⟨h, hexec, pc, hpc, rfl⟩
    exact ⟨h, pc, hexec, hpc, rfl⟩
  · rintro ⟨h, pc, hexec, hpc, rfl⟩
    exact ⟨h, hexec, pc, hpc, rfl⟩

/-- Where a step of the provider can lead. -/
theorem control_of_step (m m' : Machine) (op : Op) (h : m.step op = some m') :
    ∃ handled, m.pump.exec op = some handled ∧ m'.pump = handled.pump
      ∧ Flow m.pump m.pc op m'.pc := by
  obtain ⟨handled, pc, hexec, hcontrol, rfl⟩ := (step_eq_some m m' op).mp h
  exact ⟨handled, hexec, rfl, control_flow _ _ _ _ op hcontrol⟩

/-! ## A provider to compute with -/

/-- A provider bound to socket 3 that hears from the workers on socket 4. -/
def Pump.bound : Pump where
  channels := fun _ => ⟨0, 0, 0, 0⟩
  clients := fun _ => none
  view := ⟨[86, 84, 65], 1, true, ∅, 0⟩
  replySock := 4
  outRfds := ∅
  outWfds := ∅
  outEfds := ∅
  links := fun _ => ⟨.closed, 0, none⟩
  connections := []
  sessions := []
  rsslSock := some 3
  isAcceptingConnections := true
  sessionCapacity := 8
  inRfds := ∅
  inEfds := ∅
  outNfds := 0

/-- Nothing happened yet. -/
def Machine.bound : Machine :=
  ⟨.bound, .ready, ⟨∅, ∅, fun _ => none⟩⟩

theorem bound_init : pumpSystem.init Machine.bound :=
  ⟨rfl, rfl, rfl, fun _ => rfl, rfl, rfl⟩

/-- No worker has replied. -/
def Op.noReply : Op :=
  .reply willingEnv ⟨some false, true, true, true, none⟩ [] none

/-- One turn of the loop over the connections, all pending output sent. -/
def visit (i : Nat) (answer : ReadAnswer) : List Op :=
  [.read i answer, .write i .success none, .keepalive i .success none, .disconnect i .closed]

/-- A pass with events on sockets. -/
def passOver (now : Nat) (accepted : Option Accepted) (visits : List Op) : List Op :=
  [.doWork now, .noReply, .connection accepted] ++ visits ++ [.returns false]

/-- `Run` starts and waits; a consumer connects on socket 1024. -/
def connectConsumer : List Op :=
  [.start, .doWork 0, .returns false, .select 1 {3} ∅ ∅]
    ++ passOver 1 (some ⟨0x7f00, ⟨1024, 0, 0, 60⟩⟩) (visit 0 .nothing)
    ++ passOver 1 none (visit 0 .nothing)
    ++ [.select 1 {1024} ∅ ∅]

/-- Its channel becomes active and `AcceptClientSession` makes `session`. -/
def activateConsumer (session : NewSession) : List Op :=
  passOver 2 none (visit 0 (.initChannel (.success 14 0 60) session .closed))
    ++ passOver 2 none (visit 0 .nothing)

/-- The consumer's message arrives. -/
def receive (m : InMsg) (env : Env) : List Op :=
  [.select 1 {1024} ∅ ∅]
    ++ passOver 3 none (visit 0 (.readEx (.data false (some (some m, env)) none) none))
    ++ passOver 3 none (visit 0 .nothing)

end Hitsuji
