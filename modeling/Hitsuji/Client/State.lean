import Hitsuji.Rssl.Encode
import Hitsuji.Sbe.Reply
import Hitsuji.Sbe.Request
import Mathlib.Data.Finset.Basic

set_option autoImplicit false

/-! # A client session

`client_t` keeps one consumer's login, watchlist and keepalive state; everything it writes goes
through `provider_t::Submit` on its channel. A `Session` is what its methods can see: the client,
its RSSL channel, and the members of the provider they read or change.

What RSSL and the request delegate answer during one call of a method is its `Env`. What the method
does to them is the list of `Event`s it returns. -/

namespace Hitsuji

open ByteBuffer

/-! ## State -/

/-- The members of `client_t`. -/
structure Client where
  /-- the address of the `RsslChannel` -/
  handle : UInt64
  isLoggedIn : Bool
  loginToken : Int32
  directoryToken : Int32
  /-- the watchlist of all items -/
  tokens : Finset Int32
  pendingCount : Nat
  pingInterval : Nat
  nextPing : Nat
  nextPong : Nat

/-- The members of `RsslChannel` the provider reads. -/
structure Channel where
  socketId : Nat
  majorVersion : UInt8
  minorVersion : UInt8
  pingTimeout : Nat

/-- The members of `provider_t` a client reads or changes. -/
structure ProviderView where
  serviceName : Bytes
  serviceId : UInt16
  isAcceptingRequests : Bool
  /-- sockets with output pending, `in_wfds_` -/
  inWfds : Finset Nat
  lastActivity : Nat

/-- A client with what it works on. -/
structure Session where
  client : Client
  channel : Channel
  provider : ProviderView

/-- `client_t::rwf_version`. -/
def Channel.rwfVersion (c : Channel) : UInt16 :=
  c.majorVersion.toUInt16 * 256 + c.minorVersion.toUInt16

/-- A client as the constructor and `Initialize` leave it; `directory_token_` is not initialised. -/
def Client.initial (handle : UInt64) (directoryToken : Int32) (channel : Channel) (now : Nat) :
    Client where
  handle := handle
  isLoggedIn := false
  loginToken := 0
  directoryToken := directoryToken
  tokens := ∅
  pendingCount := 0
  pingInterval := channel.pingTimeout / 3
  nextPing := now + channel.pingTimeout / 3
  nextPong := now + channel.pingTimeout

/-- A session that was just accepted. -/
def Session.accepted (handle : UInt64) (directoryToken : Int32) (channel : Channel)
    (provider : ProviderView) : Session where
  client := Client.initial handle directoryToken channel provider.lastActivity
  channel := channel
  provider := provider

/-! ## Surroundings of one call -/

/-- The codes of one `try_again` loop: RSSL asks for the same buffer `again` times while it
    fragments it, and then answers with `last`. -/
structure Writes where
  again : Nat
  last : RsslRet
  last_ne : last ≠ .writeCallAgain

/-- How the build and everything called outside of the program behaves. -/
structure Env where
  codec : Codec
  /-- `rsslGetBuffer` returns a buffer -/
  getBuffer : Bool
  writes : Writes
  /-- what `delegate_->OnRequest` returns -/
  onRequest : Bool
  /-- `DCHECK_IS_ON ()` -/
  dcheckIsOn : Bool

/-- What a buffer handed to `rsslWriteEx` holds. -/
inductive Outgoing where
  /-- a message encoded by these calls -/
  | encoded (response : RsslMsg) (calls : List EncodeCall)
  /-- a worker's message, copied as it is -/
  | reply (token : Int32) (data : Bytes)
  deriving DecidableEq

/-- A call that leaves the program. -/
inductive Event where
  | getBuffer (obtained : Bool)
  | writeEx (out : Outgoing) (direct : Bool) (rc : RsslRet)
  | releaseBuffer
  | onRequest (request : ItemRequest)
  deriving DecidableEq

/-- What a method returns, the session it leaves behind, and the calls it made. -/
structure Done where
  ret : Bool
  session : Session
  events : List Event

/-! ## Submitting -/

/-- `FD_SET (c->socketId, &in_wfds_)`. -/
def Session.setPending (s : Session) : Session :=
  { s with provider := { s.provider with inWfds := insert s.channel.socketId s.provider.inWfds } }

/-- The calls of the `try_again` loop, in order. -/
def writeCalls (out : Outgoing) (direct : Bool) (last : RsslRet) : Nat → List Event
  | 0 => [.writeEx out direct last]
  | n + 1 => .writeEx out direct .writeCallAgain :: writeCalls out direct last n

/-- The state `provider_t::Submit` leaves, by the last code. -/
def Session.afterSubmit (s : Session) : RsslRet → Session
  | .pendingBytes _ =>
      { s with client := { s.client with pendingCount := s.client.pendingCount + 1 } }.setPending
  | .writeFlushFailed | .bufferNoBuffers => s.setPending
  | .success =>
      { s with client :=
        { s.client with nextPing := s.provider.lastActivity + s.client.pingInterval } }
  | _ => s

/-- The value `provider_t::Submit` returns: 1, -1 or 0. -/
def submitStatus : RsslRet → Int
  | .pendingBytes _ | .writeFlushFailed | .bufferNoBuffers => -1
  | .success => 1
  | _ => 0

/-- `client_t::Submit` and `provider_t::Submit`: direct write on a clear socket, enqueue when writes
    are pending. -/
def Session.submit (env : Env) (s : Session) (out : Outgoing) : Int × Session × List Event :=
  let shouldWriteDirect := decide (s.channel.socketId ∉ s.provider.inWfds)
  (submitStatus env.writes.last, s.afterSubmit env.writes.last,
    writeCalls out shouldWriteDirect env.writes.last env.writes.again)

/-! ## Sending one message

The six functions that send a message all take a buffer from the pool, fill it, test the result of
`Submit` as a boolean, and release the buffer at the shared `cleanup` label. -/

/-- Submit a filled buffer, release it when `Submit` returns zero. -/
def Session.submitOrRelease (env : Env) (s : Session) (out : Outgoing) : Done :=
  match s.submit env out with
  | (status, s', writes) =>
      if status ≠ 0 then ⟨true, s', .getBuffer true :: writes⟩
      else ⟨false, s', .getBuffer true :: writes ++ [.releaseBuffer]⟩

/-- Send a message encoded by `steps`; `none` when an assertion fails. -/
def Session.sendEncoded (env : Env) (s : Session) (response : RsslMsg) (steps : List EncodeStep) :
    Option Done :=
  if env.getBuffer then
    match encodeWith env.codec steps with
    | .complete calls => some (s.submitOrRelease env (.encoded response calls))
    | .failed .cleanup => some ⟨false, s, [.getBuffer true, .releaseBuffer]⟩
    | .failed .returnFalse => some ⟨false, s, [.getBuffer true]⟩
    | .checkFailed => none
  else some ⟨false, s, [.getBuffer false]⟩

end Hitsuji
