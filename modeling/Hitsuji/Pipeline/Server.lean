import Hitsuji.Client.Watchlist
import Hitsuji.Lib.Routing
import Hitsuji.Provider.State

set_option autoImplicit false

/-! # The request and reply pipeline

Requests accepted from any number of client sessions are distributed to the workers as SBE messages,
and the workers' replies are routed back by the channel pointer and the token in them. The messages
in flight are kept without an order, so that the workers may finish in any.

Next to the provider and the messages, a `Server` keeps a record that no function of the code reads:
which session is at which address, and which accepted request (`Job`) a message belongs to. -/

namespace Hitsuji

open ByteBuffer Transition

/-! ## State -/

/-- An accepted item request: of which session, and which one among all accepted. -/
structure Job where
  session : Nat
  seq : Nat
  request : ItemRequest
  deriving DecidableEq

/-- The provider, the messages in flight, and the record. -/
structure Server where
  provider : Provider
  /-- the channels whose `userSpecPtr` points to a client that is gone -/
  dangling : Finset UInt64
  requests : List (Bytes × Job)
  replies : List (Bytes × Job)
  /-- the session last accepted at an address -/
  session : UInt64 → Nat
  /-- the request last accepted on a token of the client stored there -/
  latest : UInt64 → Int32 → Option Job
  nextSession : Nat
  nextSeq : Nat

namespace Server

/-- The jobs whose reply is still to come. -/
def outstanding (s : Server) : List Job :=
  (s.requests ++ s.replies).map Prod.snd

/-! ## Steps -/

/-- What can happen to the server. -/
inductive Input where
  /-- `rsslAccept` and a session accepted on the channel -/
  | accept (handle : UInt64) (channel : Channel) (directoryToken : Int32)
  /-- the connection on the channel is removed -/
  | disconnect (handle : UInt64)
  /-- a message for the client on the channel, or a call of the provider's `Close` -/
  | client (handle : UInt64) (env : Env) (mem : Nat → UInt8) (input : Hitsuji.Input)
  /-- a worker answers the `i`-th request in flight -/
  | worker (i : Nat) (mem : Nat → UInt8) (rssl : RsslBuf)
  /-- a worker stops over the `i`-th request in flight -/
  | workerStops (i : Nat)
  /-- the main thread reads the `i`-th reply in flight -/
  | reply (i : Nat) (env : Env) (z : ReadEnv)
  /-- anything else the provider does: select, flush, keepalive, a socket that changes -/
  | drift (channels : UInt64 → Channel) (view : ProviderView)
      (outRfds outWfds outEfds : Finset Nat)

/-- A session is accepted on the channel, whichever pointer `rsslAccept` returned. RSSL may have
    closed the channel that had it before while a client is still stored under it: then
    `clients_.emplace` keeps that client, and the new one is gone when `AcceptClientSession`
    returns. -/
def accept (s : Server) (handle : UInt64) (channel : Channel) (directoryToken : Int32) : Server :=
  let kept := (s.provider.clients handle).isSome
  { s with
    provider := s.provider.acceptClientSession handle channel directoryToken
    dangling := if kept then insert handle s.dangling else s.dangling.erase handle
    session := Function.update s.session handle s.nextSession
    latest := if kept then s.latest else Function.update s.latest handle fun _ => none
    nextSession := s.nextSession + 1 }

/-- `hitsuji_t::OnRequest`: the request is recorded, and queued unless sending it failed. -/
def dispatch (s : Server) (env : Env) (mem : Nat → UInt8) (r : ItemRequest) : Option Server :=
  match encodeRequest mem r with
  | .error _ => none
  | .ok msg =>
      let job : Job := ⟨s.session r.handle, s.nextSeq, r⟩
      some { s with
        requests := if env.onRequest then s.requests ++ [(msg, job)] else s.requests
        latest := Function.update s.latest r.handle
          (Function.update (s.latest r.handle) r.token (some job))
        nextSeq := s.nextSeq + 1 }

/-- The call a step makes on a client. -/
def callOf (s : Server) (handle : UInt64) (env : Env) (input : Hitsuji.Input) : Call :=
  ⟨env, s.provider.channels handle, s.provider.view, input⟩

/-- A method of the client on the channel; replies come from the workers only. A message reaches its
    client by `userSpecPtr`, and nothing follows from a pointer that dangles; `Close` goes through
    `clients_`. -/
def client (s : Server) (handle : UInt64) (env : Env) (mem : Nat → UInt8)
    (input : Hitsuji.Input) : Option Server :=
  match s.provider.clients handle with
  | none => none
  | some c =>
      if input.isReply then none
      else if input.isMsg ∧ handle ∈ s.dangling then none
      else
        match (s.callOf handle env input).run c with
        | none => none
        | some d =>
            let s' := { s with provider := s.provider.afterCall handle input d }
            match Hitsuji.requests d.events with
            | [] => some s'
            | r :: _ => s'.dispatch env mem r

/-- `worker_t::OnTask`: the reply goes to the handle and token of the request. -/
def workerReply (mem : Nat → UInt8) (rssl : RsslBuf) (msg : Bytes) : Option Bytes :=
  match decodeRequest .lengthFirst msg with
  | .ok (some view) => (encodeReply mem view.handle view.token rssl).toOption
  | _ => none

/-- A worker takes a request and sends its reply. -/
def worker (s : Server) (i : Nat) (mem : Nat → UInt8) (rssl : RsslBuf) : Option Server :=
  match s.requests[i]? with
  | none => none
  | some (msg, job) =>
      match workerReply mem rssl msg with
      | none => none
      | some answer => some { s with
          requests := s.requests.eraseIdx i
          replies := s.replies ++ [(answer, job)] }

/-- The main thread takes a reply, if it gets as far as receiving it. -/
def reply (s : Server) (i : Nat) (env : Env) (z : ReadEnv) : Option Server :=
  match s.replies[i]? with
  | none => none
  | some (msg, _) =>
      match s.provider.onReplySocket env z msg with
      | none => none
      | some (p, _) => some { s with
          provider := p
          replies := if z.receives then s.replies.eraseIdx i else s.replies }

/-- One step. -/
def step (s : Server) : Input → Option Server
  | .accept handle channel directoryToken => some (s.accept handle channel directoryToken)
  | .disconnect handle => some { s with provider := s.provider.disconnect handle }
  | .client handle env mem input => s.client handle env mem input
  | .worker i mem rssl => s.worker i mem rssl
  | .workerStops i => some { s with requests := s.requests.eraseIdx i }
  | .reply i env z => s.reply i env z
  | .drift channels view outRfds outWfds outEfds => some { s with provider :=
      { s.provider with channels, view, outRfds, outWfds, outEfds } }

/-- Before the first connection. -/
def Initial (s : Server) : Prop :=
  (∀ handle, s.provider.clients handle = none) ∧ s.requests = [] ∧ s.replies = []

/-! ## A server to compute with -/

/-- Nobody is connected. -/
def idle : Server where
  provider := ⟨fun _ => ⟨0, 0, 0, 0⟩, fun _ => none, clearSession.provider, 3, {3}, ∅, ∅⟩
  dangling := ∅
  requests := []
  replies := []
  session := fun _ => 0
  latest := fun _ _ => none
  nextSession := 0
  nextSeq := 0

/-- A message from the consumer at address 0x7f00. -/
def hears (m : InMsg) : Input :=
  .client 0x7f00 willingEnv (fun _ => 0) (.msg m)

/-- A consumer connects at address 0x7f00, logs in and asks for "u" on token 5. -/
def connectAndAsk : List Input :=
  [.accept 0x7f00 clearSession.channel 0, hears (loginByName 1),
    hears (.plain .request .marketPrice 5)]

/-- A worker's buffer with an empty message. -/
def emptyReply : RsslBuf :=
  .zeros 0 (Nat.zero_le _)

/-- The oldest request is answered and its reply read. -/
def answer : List Input :=
  [.worker 0 (fun _ => 0) emptyReply, .reply 0 willingEnv ⟨some true, true, true, true, some false⟩]

end Server

/-- The server over its lifetime. -/
def serverSystem : System Server Server.Input :=
  .ofFn Server.Initial Server.step

theorem idle_init : serverSystem.init Server.idle :=
  ⟨fun _ => rfl, rfl, rfl⟩

end Hitsuji
