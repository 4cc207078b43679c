import Hitsuji.Pipeline.Server
import Hitsuji.Provider.DoWork

set_option autoImplicit false

/-! # The application

`hitsuji_t` runs the provider's loops on one thread and the workers on others, with a ZeroMQ queue
in each direction. When the message pump is over, `Reset` joins the workers, destroys the sockets
and closes the provider.

Replies are announced on the descriptor `ZMQ_FD`, which is edge triggered: a push signals it, and
reading `ZMQ_EVENTS` takes the signal back. A worker may push between any two calls of one `OnRead`,
so `OnRead` takes a step for each of them; the provider makes its step when `OnRead` returns.

Next to the threads and queues the state keeps a record that no function of the code reads: which
accepted requests each client still waits for. -/

namespace Hitsuji

open ByteBuffer Transition

/-! ## State -/

/-- An accepted item request, one among all. -/
structure Ask where
  seq : Nat
  request : ItemRequest
  deriving DecidableEq

/-- Where `OnRead` stands between two calls of ZeroMQ. -/
inductive ReadPc where
  /-- `ZMQ_POLLIN` was set, about to receive -/
  | receiving
  /-- about to call `OnReply` -/
  | replying (msg : Bytes) (ask : Ask)
  /-- about to re-read the events -/
  | rereading (msg : Bytes) (ask : Ask) (env : Env) (left : Option Down)

/-- How far `Reset` is. -/
inductive Phase where
  | running
  /-- an abort was sent to each worker -/
  | aborting
  | joined
  /-- the ZeroMQ sockets and context are gone -/
  | released
  deriving DecidableEq

/-- `hitsuji_t`, with its threads and the queues between them. -/
structure Host where
  machine : Machine
  /-- requests queued for a worker or in its hands -/
  requests : List (Bytes × Ask)
  /-- replies in the queue of `worker_reply_sock_` -/
  replies : List (Bytes × Ask)
  /-- the edge of `ZMQ_FD` -/
  signalled : Bool
  reading : Option ReadPc
  phase : Phase
  nextSeq : Nat
  /-- the requests accepted from the client on a channel that it has not closed and that were not
      answered -/
  owed : UInt64 → List Ask

/-! ## Steps -/

/-- What can happen. -/
inductive Act where
  /-- a step of the provider other than reading a reply -/
  | pump (op : Op) (mem : Nat → UInt8)
  /-- `OnRead` reads `ZMQ_EVENTS` -/
  | events (ok : Bool)
  /-- it initialises a message and receives the `i`-th reply in it -/
  | receive (i : Nat) (msgInit msgRecv : Bool)
  /-- it calls `OnReply` and closes the message -/
  | onReply (env : Env) (left : Option Down) (msgClose : Bool)
  /-- it re-reads the events -/
  | eventsAgain (ok : Bool)
  /-- a worker answers the `i`-th request -/
  | worker (i : Nat) (mem : Nat → UInt8) (rssl : RsslBuf)
  /-- a worker stops over the `i`-th request -/
  | workerStops (i : Nat)
  /-- `AbortWorkers` sends the aborts -/
  | abortWorkers
  /-- and joins the threads -/
  | joinWorkers
  /-- `Reset` destroys the sockets -/
  | releaseSockets

/-- The item requests that a handler passed to `OnRequest`. -/
def askedOf (calls : List RsslCall) : List ItemRequest :=
  calls.filterMap fun
    | .session _ (.onRequest r) => some r
    | _ => none

/-- The calls hand a response on `token` to the channel `k` over to RSSL. -/
def submittedOn (k : UInt64) (token : Int32) (calls : List RsslCall) : Bool :=
  calls.any fun
    | .session c (.writeEx (.reply t _) _ rc) => decide (c = k ∧ t = token) && rc.accepted
    | _ => false

/-- The message a step delivers, and to which client. -/
def Pump.message (p : Pump) : Op → Option (UInt64 × InMsg × Env)
  | .read i (.readEx (.data _ (some (some m, env)) _) _) =>
      (p.connections[i]?.filter fun c =>
        decide (p.socketId c ∈ p.outRfds ∧ (p.links c).state = .active)).bind fun c =>
          (p.pointee c).map fun k => (k, m, env)
  | _ => none

/-- The client and token of an item close. -/
def Pump.closesItem (p : Pump) (op : Op) : Option (UInt64 × Int32) :=
  (p.message op).bind fun (k, m, _) =>
    if m.msgClass = .close ∧ m.domainType = .marketPrice then some (k, m.streamId) else none

/-- `zmq_msg_send` in `OnRequest` succeeds, if the step comes to it. -/
def Pump.sends (p : Pump) (op : Op) : Bool :=
  (p.message op).any fun (_, _, env) => env.onRequest

/-- A step while `OnRead` calls ZeroMQ, `OnRead` receiving nothing. -/
def Op.readsNothing (events : Option Bool) (msgInit msgRecv : Bool) : Op :=
  .reply willingEnv ⟨events, msgInit, msgRecv, true, none⟩ [] none

namespace Host

/-- The record after a step of the provider: `ask` is the request that the reply being read answers,
    `new` are the requests just accepted. -/
def settle (s : Host) (op : Op) (ask : Option Ask) (h : Handled) (new : List Ask) (k : UInt64) :
    List Ask :=
  if (h.pump.clients k).isSome then
    ((s.owed k).filter fun a =>
      decide (s.machine.pump.closesItem op ≠ some (k, a.request.token))
        && !(decide (ask = some a) && submittedOn k a.request.token h.calls))
      ++ new.filter fun a => a.request.handle = k
  else []

/-- A step of the provider; `OnRequest` sends the request it is called with to the workers, whose
    socket is gone once `Reset` released it. -/
def advance (s : Host) (op : Op) (mem : Nat → UInt8) (ask : Option Ask) : Option Host :=
  (s.machine.pump.exec op).bind fun h =>
    (control s.machine.pc s.machine.pump op h.pump).bind fun pc =>
      let s₁ : Host := { s with
        machine := ⟨h.pump, pc, s.machine.record.logAll h.calls⟩
        reading := none }
      match askedOf h.calls with
      | [] => some { s₁ with owed := s.settle op ask h [] }
      | r :: _ =>
          match encodeRequest mem r with
          | .error _ => none
          | .ok msg =>
              let new : Ask := ⟨s.nextSeq, r⟩
              let s₂ : Host := { s₁ with
                nextSeq := s.nextSeq + 1
                owed := s.settle op ask h [new] }
              if s.machine.pump.sends op then
                if s.phase = .running then
                  some { s₂ with requests := s.requests ++ [(msg, new)] }
                else none
              else some s₂

/-- `DoWork` calls `OnRead`. -/
def callsOnRead (s : Host) : Bool :=
  match s.machine.pc with
  | .external _ => s.machine.pump.replyReady
  | _ => false

/-- The steps of the provider that are not its `OnRead`, and when the application lets it take
    them. -/
def admits (s : Host) : Op → Bool
  | .throw => true
  | .start => s.reading.isNone && decide (s.phase = .running)
  | .close => s.reading.isNone && decide (s.phase = .released)
  | .reply _ _ _ _ => s.reading.isNone && !s.callsOnRead
  | _ => s.reading.isNone

/-- One step. -/
def step (s : Host) : Act → Option Host
  | .pump op mem => if s.admits op then s.advance op mem none else none
  | .events ok =>
      if s.callsOnRead = true ∧ s.reading.isNone = true then
        if ok = true ∧ s.phase ≠ .released then
          let s₁ := { s with signalled := false }
          if s.replies.isEmpty then
            s₁.advance (.readsNothing (some false) true true) (fun _ => 0) none
          else some { s₁ with reading := some .receiving }
        else s.advance (.readsNothing none true true) (fun _ => 0) none
      else none
  | .receive i msgInit msgRecv =>
      match s.reading, s.replies[i]? with
      | some .receiving, some (msg, ask) =>
          if msgInit && msgRecv then
            some { s with
              replies := s.replies.eraseIdx i
              reading := some (.replying msg ask) }
          else s.advance (.readsNothing (some true) msgInit msgRecv) (fun _ => 0) none
      | _, _ => none
  | .onReply env left msgClose =>
      match s.reading with
      | some (.replying msg ask) =>
          (s.machine.pump.onReply env msg).bind fun (ok, _, _) =>
            if ok && msgClose then some { s with reading := some (.rereading msg ask env left) }
            else
              s.advance (.reply env ⟨some true, true, true, msgClose, none⟩ msg left) (fun _ => 0)
                (some ask)
      | _ => none
  | .eventsAgain ok =>
      match s.reading with
      | some (.rereading msg ask env left) =>
          let again := if ok then some !s.replies.isEmpty else none
          { s with signalled := !ok && s.signalled }.advance
            (.reply env ⟨some true, true, true, true, again⟩ msg left) (fun _ => 0) (some ask)
      | _ => none
  | .worker i mem rssl =>
      if s.phase = .running ∨ s.phase = .aborting then
        s.requests[i]?.bind fun (msg, ask) =>
          (Server.workerReply mem rssl msg).map fun answer =>
            { s with
              requests := s.requests.eraseIdx i
              replies := s.replies ++ [(answer, ask)]
              signalled := true }
      else none
  | .workerStops i => some { s with requests := s.requests.eraseIdx i }
  | .abortWorkers =>
      if s.phase = .running ∧ (s.machine.pc = .ready ∨ s.machine.pc = .stopped) then
        some { s with phase := .aborting }
      else none
  | .joinWorkers =>
      -- each abort is behind the requests of its worker
      if s.phase = .aborting ∧ s.requests = [] then some { s with phase := .joined } else none
  | .releaseSockets =>
      if s.phase = .joined then some { s with phase := .released, replies := [] } else none

/-- The workers are started and nobody is connected. -/
def Initial (s : Host) : Prop :=
  s.machine.init ∧ s.requests = [] ∧ s.replies = [] ∧ s.reading = none ∧ s.phase = .running
    ∧ ∀ k, s.owed k = []

end Host

/-- The application over its lifetime. -/
def hostSystem : System Host Act :=
  .ofFn Host.Initial Host.step

/-! ## The provider inside -/

namespace Host

theorem callsOnRead_eq (s : Host) (h : s.callsOnRead = true) :
    ∃ k, s.machine.pc = .external k ∧ s.machine.pump.replyReady = true := by
  unfold callsOnRead at h
  split at h
  · next k hpc => exact ⟨k, hpc, h⟩
  · exact absurd h Bool.false_ne_true

/-- What a step of the provider does to the application. -/
theorem advance_spec (s s' : Host) (op : Op) (mem : Nat → UInt8) (ask : Option Ask)
    (h : s.advance op mem ask = some s') :
    ∃ handled new sent, s.machine.pump.exec op = some handled
      ∧ s.machine.step op = some s'.machine ∧ s'.machine.pump = handled.pump
      ∧ s' = { s with
          machine := s'.machine
          reading := none
          requests := s.requests ++ sent
          nextSeq := s'.nextSeq
          owed := s.settle op ask handled new }
      ∧ (askedOf handled.calls = [] ∧ new = [] ∧ sent = []
        ∨ ∃ r rest, askedOf handled.calls = r :: rest ∧ new = [⟨s.nextSeq, r⟩]
          ∧ (sent = [] ∨ s.phase = .running ∧ sent = [(requestImage r, ⟨s.nextSeq, r⟩)])) := by
  obtain ⟨handled, hexec, h⟩ := Option.bind_eq_some_iff.mp h
  obtain ⟨pc, hcontrol, h⟩ := Option.bind_eq_some_iff.mp h
  have hstep : s.machine.step op
      = some ⟨handled.pump, pc, s.machine.record.logAll handled.calls⟩ :=
    (step_eq_some _ _ op).mpr ⟨handled, pc, hexec, hcontrol, rfl⟩
  split at h
  · next hnone =>
      obtain rfl := Option.some.inj h
      refine ⟨handled, [], [], hexec, hstep, rfl, ?_, .inl ⟨hnone, rfl, rfl⟩⟩
      simp only [List.append_nil]
  · next r rest hasked =>
      rw [encodeRequest_eq] at h
      simp only at h
      split at h
      · split at h
        · next hrunning =>
            obtain rfl := Option.some.inj h
            exact ⟨handled, _, _, hexec, hstep, rfl, rfl,
              .inr ⟨r, rest, hasked, rfl, .inr ⟨hrunning, rfl⟩⟩⟩
        · exact absurd h (by simp)
      · obtain rfl := Option.some.inj h
        refine ⟨handled, _, [], hexec, hstep, rfl, ?_, .inr ⟨r, rest, hasked, rfl, .inl rfl⟩⟩
        simp only [List.append_nil]

/-- The provider makes a step or none. -/
theorem machine_step (s s' : Host) (a : Act) (h : s.step a = some s') :
    s'.machine = s.machine ∨ ∃ op, s.machine.step op = some s'.machine := by
  have hadvance : ∀ (s₁ : Host) op mem ask, s₁.machine = s.machine →
      s₁.advance op mem ask = some s' →
      s'.machine = s.machine ∨ ∃ op, s.machine.step op = some s'.machine := by
    intro s₁ op mem ask hmachine hrun
    obtain ⟨-, -, -, -, hstep, -⟩ := advance_spec s₁ s' op mem ask hrun
    exact .inr ⟨op, hmachine ▸ hstep⟩
  cases a with
  | pump op mem =>
      obtain ⟨-, h⟩ := Option.ite_none_right_eq_some.mp h
      exact hadvance s op mem none rfl h
  | events ok =>
      obtain ⟨-, h⟩ := Option.ite_none_right_eq_some.mp h
      split at h
      · simp only at h
        split at h
        · exact hadvance { s with signalled := false } _ _ _ rfl h
        · obtain rfl := Option.some.inj h
          exact .inl rfl
      · exact hadvance s _ _ _ rfl h
  | receive i msgInit msgRecv =>
      simp only [step] at h
      split at h
      · split at h
        · obtain rfl := Option.some.inj h
          exact .inl rfl
        · exact hadvance s _ _ _ rfl h
      · exact absurd h (by simp)
  | onReply env left msgClose =>
      simp only [step] at h
      split at h
      · obtain ⟨answer, -, h⟩ := Option.bind_eq_some_iff.mp h
        split at h
        · obtain rfl := Option.some.inj h
          exact .inl rfl
        · exact hadvance s _ _ _ rfl h
      · exact absurd h (by simp)
  | eventsAgain ok =>
      simp only [step] at h
      split at h
      · exact hadvance { s with signalled := !ok && s.signalled } _ _ _ rfl h
      · exact absurd h (by simp)
  | worker i mem rssl =>
      obtain ⟨-, h⟩ := Option.ite_none_right_eq_some.mp h
      obtain ⟨⟨msg, ask⟩, -, h⟩ := Option.bind_eq_some_iff.mp h
      obtain ⟨answer, -, rfl⟩ := Option.map_eq_some_iff.mp h
      exact .inl rfl
  | workerStops i =>
      obtain rfl := Option.some.inj h
      exact .inl rfl
  | abortWorkers | joinWorkers | releaseSockets =>
      obtain ⟨-, h⟩ := Option.ite_none_right_eq_some.mp h
      obtain rfl := Option.some.inj h
      exact .inl rfl

end Host

/-- **The application runs the provider's loops**: seen from the provider, a run of the application
    is one of the provider. -/
theorem host_simulates : Simulates hostSystem pumpSystem Host.machine :=
  ⟨fun _ h => h.1, fun s a s' h => s.machine_step s' a h⟩

/-! ## An application to compute with -/

namespace Host

/-- Nothing happened yet. -/
def bound : Host :=
  ⟨.bound, [], [], false, none, .running, 0, fun _ => []⟩

theorem bound_init : hostSystem.init bound :=
  ⟨Hitsuji.bound_init, rfl, rfl, rfl, rfl, fun _ => rfl⟩

/-- Steps of the provider. -/
def pumps (ops : List Op) : List Act :=
  ops.map fun op => .pump op fun _ => 0

/-- A consumer connects, logs in and asks for "u" on each of the tokens. -/
def consumerAsks (tokens : List Int32) : List Act :=
  pumps (connectConsumer ++ activateConsumer (.initialized 1 0 true)
    ++ receive (loginByName 1) willingEnv
    ++ tokens.flatMap fun token => receive (.plain .request .marketPrice token) willingEnv)

/-- A pass that begins with a call of `OnRead`. -/
def passReading (reads : List Act) (visits : List Op) : List Act :=
  pumps [.doWork 4] ++ reads ++ pumps ([.connection none] ++ visits ++ [.returns false])

end Host

end Hitsuji
