import Hitsuji.Pipeline.Server

set_option autoImplicit false

/-! # The message pump's handlers

What `provider_t::DoWork` and `provider_t::Close` do with a connection: accept it, initialise it,
read from it, flush it, keep it alive, remove it. `Pump` adds to the `Provider` of the pipeline what
these handlers keep by hand, in three places: the list `connections_`, the map `clients_`, and the
raw pointer `userSpecPtr` inside each channel.

Everything RSSL answers is an argument. A call may take its channel out of service (`Down`); only
`rsslInitChannel` makes a channel active, and `rsslAccept` is where channels come from. -/

namespace Hitsuji

open ByteBuffer

/-! ## Channels -/

/-- `RSSL_CH_STATE_…` -/
inductive ChannelState where
  | closed
  | inactive
  | initializing
  | active
  | other (code : Nat)
  deriving DecidableEq

/-- The members of `RsslChannel` that only the provider looks at. -/
structure Link where
  state : ChannelState
  oldSocketId : Nat
  /-- the address of a client -/
  userSpecPtr : Option Nat

/-- How RSSL leaves a channel that it takes out of service. -/
inductive Down where
  | inactive
  | closed
  deriving DecidableEq

/-- The state of a channel out of service. -/
def Down.state : Down → ChannelState
  | .inactive => .inactive
  | .closed => .closed

/-! ## What RSSL answers -/

/-- The channel `rsslAccept` returns. -/
structure Accepted where
  handle : UInt64
  channel : Channel

/-- `rsslInitChannel` -/
inductive InitChannel where
  /-- in progress, on another socket if `RSSL_IP_FD_CHANGE` is set -/
  | inProgress (newSocket : Option Nat)
  /-- active, with what was negotiated -/
  | success (majorVersion minorVersion : UInt8) (pingTimeout : Nat)
  | failure (left : Option Down)

/-- What becomes of a client that `AcceptClientSession` makes. -/
inductive NewSession where
  /-- an exception before `userSpecPtr` is set -/
  | thrown
  /-- `client_t::Initialize` fails -/
  | uninitialized
  /-- a client at `address`; the map refuses it by an exception unless `emplaced` -/
  | initialized (address : Nat) (directoryToken : Int32) (emplaced : Bool)
  deriving DecidableEq

/-- `rsslReadEx`, as far as the code tells return codes apart. -/
inductive ReadEx where
  | congestionDetected
  | slowReader
  | packetGapDetected
  | fdChange (newSocket : Nat)
  | ping
  | failure
  /-- any other code, positive or not, and the buffer unless it is null: with the message in it if
      it decodes, and what handling the message meets -/
  | data (positive : Bool) (buf : Option (Option InMsg × Env)) (left : Option Down)

/-- What reading from a channel meets. -/
inductive ReadAnswer where
  | nothing
  | initChannel (ret : InitChannel) (session : NewSession) (left : Down)
  | readEx (ret : ReadEx) (left : Option Down)

/-- The `do … while (rc > 0)` around `rsslFlush` in `Close`: `again` positive codes, then success or
    a failure. -/
structure FlushLoop where
  again : Nat
  flushed : Bool

/-- The calls of RSSL that concern a connection. -/
inductive RsslCall where
  | accept (a : Accepted)
  /-- `rsslAccept` with `nakMount` -/
  | nak (a : Accepted)
  | session (c : UInt64) (e : Event)
  | flush (c : UInt64) (rc : RsslRet)
  | ping (c : UInt64) (rc : RsslRet)
  | closeChannel (c : UInt64)

/-! ## State -/

/-- `provider_t`, with the channels its pointers refer to. -/
structure Pump extends Provider where
  links : UInt64 → Link
  /-- `connections_` -/
  connections : List UInt64
  /-- the keys of `clients_`, each with the address of the client stored -/
  sessions : List (UInt64 × Nat)
  /-- the socket of `rssl_sock_` -/
  rsslSock : Option Nat
  isAcceptingConnections : Bool
  sessionCapacity : Nat
  inRfds : Finset Nat
  inEfds : Finset Nat
  outNfds : Int

/-- A pump after a handler, and the calls the handler made. -/
structure Handled where
  pump : Pump
  calls : List RsslCall

/-- `INVALID_SOCKET` -/
def invalidSocket : Nat := 2 ^ 64 - 1

namespace Pump

/-- `c->socketId` -/
def socketId (p : Pump) (c : UInt64) : Nat :=
  (p.channels c).socketId

/-- Writing a member of a channel. -/
def setLink (p : Pump) (c : UInt64) (l : Link) : Pump :=
  { p with links := Function.update p.links c l }

/-- Writing a member of a channel that sessions see. -/
def setChannel (p : Pump) (c : UInt64) (ch : Channel) : Pump :=
  { p with channels := Function.update p.channels c ch }

/-- How a call on a channel leaves it. -/
def leave (p : Pump) (c : UInt64) : Option Down → Pump
  | none => p
  | some d => p.setLink c { p.links c with state := d.state }

/-- `FD_SET` in `in_rfds_` and `in_efds_`. -/
def watch (p : Pump) (socket : Nat) : Pump :=
  { p with inRfds := insert socket p.inRfds, inEfds := insert socket p.inEfds }

/-- `FD_CLR` in `in_rfds_` and `in_efds_`. -/
def unwatch (p : Pump) (socket : Nat) : Pump :=
  { p with inRfds := p.inRfds.erase socket, inEfds := p.inEfds.erase socket }

/-- The keys of `clients_`. -/
def keys (p : Pump) : List UInt64 :=
  p.sessions.map Prod.fst

/-- `reinterpret_cast<client_t*> (c->userSpecPtr)`: the key of the live client at that address. -/
def pointee (p : Pump) (c : UInt64) : Option UInt64 :=
  (p.links c).userSpecPtr.bind fun address =>
    (p.sessions.find? fun entry => entry.2 == address).map Prod.fst

/-- Change the client behind `userSpecPtr` if the pointer is not null; nothing follows from a
    pointer that dangles. -/
def modifyClient (p : Pump) (c : UInt64) (f : Client → Client) : Option Pump :=
  if (p.links c).userSpecPtr = none then some p
  else
    (p.pointee c).bind fun k =>
      (p.clients k).map fun client =>
        { p with clients := Function.update p.clients k (some (f client)) }

/-- A method of the client under `k` wrote on its channel. -/
def afterMethod (p : Pump) (k : UInt64) (d : Done) (left : Option Down) : Pump :=
  ({ p with toProvider := p.toProvider.absorb k d }).leave k left

/-- `provider_t::Abort`. -/
def abort (p : Pump) (c : UInt64) : Pump :=
  { p with toProvider := p.toProvider.abort c }

/-- `provider_t::Close (RsslChannel*)`. -/
def closeChannel (p : Pump) (c : UInt64) (left : Down) : Handled :=
  ⟨p.leave c (some left), [.closeChannel c]⟩

/-! ## New connections -/

/-- `provider_t::RejectConnection`: the channel is accepted with `nakMount`, and forgotten. -/
def rejectConnection (p : Pump) (accepted : Option Accepted) : Handled :=
  ⟨p, (accepted.map .nak).toList⟩

/-- `provider_t::AcceptConnection`; the channel of a null result is not there to add. -/
def acceptConnection (p : Pump) : Option Accepted → Handled
  | none => ⟨p, []⟩
  | some a =>
      let p₁ := (p.setChannel a.handle a.channel).setLink a.handle ⟨.initializing, 0, none⟩
      ⟨({ p₁ with connections := p₁.connections ++ [a.handle] }).watch a.channel.socketId,
        [.accept a]⟩

/-- `provider_t::OnConnection`. -/
def onConnection (p : Pump) (accepted : Option Accepted) : Handled :=
  if p.isAcceptingConnections = false ∨ p.connections.length = p.sessionCapacity then
    p.rejectConnection accepted
  else p.acceptConnection accepted

/-- `provider_t::AcceptClientSession`: `clients_.emplace` keeps an entry that is there. -/
def acceptClientSession (p : Pump) (c : UInt64) (address : Nat) (directoryToken : Int32) : Pump :=
  { p with
    toProvider := p.toProvider.acceptClientSession c (p.channels c) directoryToken
    sessions := if c ∈ p.keys then p.sessions else p.sessions ++ [(c, address)] }

/-- `provider_t::OnActiveClientSession`, exceptions caught. A new client is not placed where another
    one lives. -/
def onActiveClientSession (p : Pump) (c : UInt64) (session : NewSession) (left : Down) :
    Option Handled :=
  if p.isAcceptingConnections = false ∨ p.sessions.length = p.sessionCapacity then
    some (p.closeChannel c left)
  else
    match session with
    | .thrown => some ⟨p, []⟩
    | .uninitialized => some (p.closeChannel c left)
    | .initialized address directoryToken emplaced =>
        if address ∈ p.sessions.map Prod.snd then none
        else
          let p₁ := p.setLink c { p.links c with userSpecPtr := some address }
          some ⟨if emplaced then p₁.acceptClientSession c address directoryToken else p₁, []⟩

/-- `rsslInitChannel` succeeds: the channel is active, with what was negotiated. -/
def activate (p : Pump) (c : UInt64) (majorVersion minorVersion : UInt8) (pingTimeout : Nat) :
    Pump :=
  (p.setChannel c ⟨p.socketId c, majorVersion, minorVersion, pingTimeout⟩).setLink c
    { p.links c with state := .active }

/-- `rsslInitChannel` moves the channel to another socket. -/
def downgrade (p : Pump) (c : UInt64) (newSocket : Nat) : Pump :=
  p.setChannel c { p.channels c with socketId := newSocket }

/-- `provider_t::OnInitializingState`. -/
def onInitializingState (p : Pump) (c : UInt64) (ret : InitChannel) (session : NewSession)
    (left : Down) : Option Handled :=
  match ret with
  | .inProgress none => some ⟨p, []⟩
  | .inProgress (some newSocket) =>
      some ⟨((p.downgrade c newSocket).unwatch (p.socketId c)).watch newSocket, []⟩
  | .success majorVersion minorVersion pingTimeout =>
      ((p.activate c majorVersion minorVersion pingTimeout).onActiveClientSession c session
        left).map fun h => { h with pump := h.pump.watch (h.pump.socketId c) }
  | .failure left => some ⟨p.leave c left, []⟩

/-! ## Messages -/

/-- `client->SetNextPong (last_activity_ + c->pingTimeout)`. -/
def setNextPong (p : Pump) (c : UInt64) : Option Pump :=
  p.modifyClient c fun client =>
    { client with nextPong := p.view.lastActivity + (p.channels c).pingTimeout }

/-- `provider_t::OnMsg`: a buffer that does not decode and a handler that fails abort the
    connection. -/
def onMsg (p : Pump) (c : UInt64) (msg : Option InMsg) (env : Env) (left : Option Down) :
    Option Handled :=
  match msg with
  | none => some ⟨p.abort c, []⟩
  | some m =>
      (p.pointee c).bind fun k =>
        (p.clients k).bind fun client =>
          ((p.session k client).onMsg env m).map fun d =>
            let p₁ := p.afterMethod k d left
            ⟨if d.ret then p₁ else p₁.abort c, d.events.map (.session k)⟩

/-- `RSSL_RET_READ_FD_CHANGE`: interest moves from the old socket to the new one. -/
def onFdChange (p : Pump) (c : UInt64) : Pump :=
  (p.unwatch (p.links c).oldSocketId).watch (p.socketId c)

/-- `rsslReadEx` gives the channel another socket. -/
def reconnect (p : Pump) (c : UInt64) (newSocket : Nat) : Pump :=
  (p.setLink c { p.links c with oldSocketId := p.socketId c }).setChannel c
    { p.channels c with socketId := newSocket }

/-- The events with hard-fail override: on a closed channel they fall through into
    `RSSL_RET_READ_FD_CHANGE`. -/
def checkClosedState (p : Pump) (c : UInt64) : Pump :=
  if (p.links c).state = .closed then p.onFdChange c else p

/-- A buffer that was read: received data is equivalent to a heartbeat pong. -/
def onBuffer (p : Pump) (c : UInt64) (buf : Option (Option InMsg × Env)) (left : Option Down) :
    Option Handled :=
  match buf with
  | none => some ⟨p, []⟩
  | some (msg, env) =>
      (p.onMsg c msg env left).bind fun h =>
        (h.pump.setNextPong c).map fun p' => ⟨p', h.calls⟩

/-- A pending buffer needs flushing out before IO notification can resume. -/
def readAgain (p : Pump) (c : UInt64) : Pump :=
  { p with outRfds := insert (p.socketId c) p.outRfds }

/-- `provider_t::OnActiveState`, after `rsslReadEx`. -/
def onReadEx (p : Pump) (c : UInt64) : ReadEx → Option Handled
  | .congestionDetected | .slowReader | .packetGapDetected => some ⟨p.checkClosedState c, []⟩
  | .fdChange newSocket => some ⟨(p.reconnect c newSocket).onFdChange c, []⟩
  | .ping => (p.setNextPong c).map fun p' => ⟨p', []⟩
  | .failure => some ⟨p, []⟩
  | .data positive buf left =>
      (p.onBuffer c buf left).map fun h =>
        if positive then { h with pump := h.pump.readAgain c } else h

/-- `provider_t::OnCanReadWithoutBlocking`. -/
def onCanRead (p : Pump) (c : UInt64) (answer : ReadAnswer) : Option Handled :=
  match (p.links c).state, answer with
  | .closed, _ => some ⟨p.abort c, []⟩
  | .initializing, .initChannel ret session left => p.onInitializingState c ret session left
  | .active, .readEx ret left => (p.leave c left).onReadEx c ret
  | .inactive, _ | .other _, _ => some ⟨p, []⟩
  | _, _ => none

/-! ## Output -/

/-- `FD_CLR (c->socketId, &in_wfds_)`. -/
def clearPending (p : Pump) (c : UInt64) : Pump :=
  { p with view := { p.view with inWfds := p.view.inWfds.erase (p.socketId c) } }

/-- `provider_t::OnCanWriteWithoutBlocking`. -/
def onCanWrite (p : Pump) (c : UInt64) (rc : RsslRet) (left : Option Down) : Option Handled :=
  if rc = .success then
    ((p.clearPending c).modifyClient c fun client =>
      { client with pendingCount := 0, nextPing := p.view.lastActivity + client.pingInterval }).map
      fun p' => ⟨p', [.flush c rc]⟩
  else some ⟨p.leave c left, [.flush c rc]⟩

/-- `FD_SET (c->socketId, &out_efds_)`: force a disconnect. -/
def markException (p : Pump) (c : UInt64) : Pump :=
  { p with outEfds := insert (p.socketId c) p.outEfds }

/-- `provider_t::Ping`: pings should only occur when no writes are pending, otherwise the
    consequence is to force a disconnect. -/
def ping (p : Pump) (c : UInt64) (rc : RsslRet) (left : Option Down) : Option Handled :=
  match rc with
  | .success =>
      (p.modifyClient c fun client =>
        { client with nextPing := p.view.lastActivity + client.pingInterval }).map
        fun p' => ⟨p', [.ping c rc]⟩
  | .pendingBytes _ | .writeFlushFailed | .bufferNoBuffers =>
      some ⟨(p.markException c).leave c left, [.ping c rc]⟩
  | _ => some ⟨p.leave c left, [.ping c rc]⟩

/-- The keepalive timeouts of an active session. -/
def keepalive (p : Pump) (c : UInt64) (rc : RsslRet) (left : Option Down) : Option Handled :=
  if (p.links c).userSpecPtr ≠ none ∧ (p.links c).state = .active then
    ((p.pointee c).bind p.clients).bind fun client =>
      (if client.nextPing ≤ p.view.lastActivity then p.ping c rc left else some ⟨p, []⟩).map
        fun h =>
          if client.nextPong ≤ p.view.lastActivity then { h with pump := h.pump.abort c } else h
  else some ⟨p, []⟩

/-! ## Removal -/

/-- Remove the connection `c` at position `i`, its client and the interest in its socket. -/
def remove (p : Pump) (i : Nat) (c : UInt64) : Pump :=
  ({ p with
    toProvider := p.toProvider.disconnect c
    connections := p.connections.eraseIdx i
    sessions := p.sessions.filter fun entry => entry.1 ≠ c }).unwatch (p.socketId c)

/-- The disconnect of `DoWork`, the same in its two loops: ensure RSSL has closed out. -/
def disconnect (p : Pump) (i : Nat) (c : UInt64) (left : Down) : Handled :=
  if (p.links c).state = .closed then ⟨p.remove i c, []⟩ else (p.remove i c).closeChannel c left

/-! ## Replies -/

/-- The channel a worker's message is for. -/
def replyHandle (msg : Bytes) : UInt64 :=
  match decodeReply .lengthFirst msg with
  | .ok view => view.handle
  | .error _ => 0

/-- The external socket event of `DoWork`. -/
def onReplySocket (p : Pump) (env : Env) (z : ReadEnv) (msg : Bytes) (left : Option Down) :
    Option Handled :=
  (p.toProvider.onReplySocket env z msg).map fun (q, events) =>
    ⟨({ p with toProvider := q }).leave (replyHandle msg) (if events.isEmpty then none else left),
      events.map (.session (replyHandle msg))⟩

/-! ## Passes of `Close` -/

/-- The interest sets as `Run` and `Close` start with: the listening socket and the reply socket. -/
def resetInterest (p : Pump) (listening : Nat) : Pump :=
  { p with
    inRfds := if p.replySock = invalidSocket then {listening} else {p.replySock, listening}
    inEfds := ∅
    view := { p.view with inWfds := ∅ }
    outNfds := 0 }

/-- Disable new requests via source directory update. -/
def directoryUpdate (p : Pump) (c : UInt64) (env : Env) (left : Option Down) : Option Handled :=
  (p.clients c).bind fun client =>
    ((p.session c client).onSourceDirectoryUpdate env).map fun d =>
      ⟨p.afterMethod c d left, d.events.map (.session c)⟩

/-- The calls of a flush loop. -/
def flushCalls (c : UInt64) (loop : FlushLoop) : List RsslCall :=
  List.replicate loop.again (.flush c (.pendingBytes 0))
    ++ [.flush c (if loop.flushed then .success else .failure 0)]

/-- Flush message stream: if the channel is still open and data is pending. -/
def flushStream (p : Pump) (c : UInt64) (loop : FlushLoop) (left : Option Down) : Handled :=
  if (p.links c).state = .active ∧ p.socketId c ∈ p.view.inWfds then
    if loop.flushed then
      let drained : Client → Client := fun client => { client with pendingCount := 0 }
      ⟨{ p.clearPending c with
          clients := Function.update p.clients c ((p.clients c).map drained) }, flushCalls c loop⟩
    else ⟨p.leave c left, flushCalls c loop⟩
  else ⟨p, []⟩

/-- Send session close notification and flush it. -/
def notify (p : Pump) (c : UInt64) (env : Env) (left : Option Down) (loop : FlushLoop)
    (leftByFlush : Option Down) : Option Handled :=
  (p.clients c).bind fun client =>
    ((p.session c client).close env).map fun d =>
      let h := (p.afterMethod c d left).flushStream c loop leftByFlush
      ⟨h.pump, d.events.map (.session c) ++ h.calls⟩

/-- Close all RSSL client connections. -/
def closeConnections (left : UInt64 → Down) : List UInt64 → Pump → Handled
  | [], p => ⟨p, []⟩
  | c :: rest, p =>
      let h := closeConnections left rest (p.closeChannel c (left c)).pump
      ⟨h.pump, .closeChannel c :: h.calls⟩

/-- Cleanup: the clients, the listening socket, the connections. -/
def teardown (p : Pump) (left : UInt64 → Down) : Handled :=
  let p₁ : Pump := { p with clients := fun _ => none, sessions := [], rsslSock := none }
  let h := closeConnections left p₁.connections p₁
  { h with pump := { h.pump with connections := [] } }

end Pump

end Hitsuji
