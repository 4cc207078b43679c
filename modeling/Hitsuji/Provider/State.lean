import Hitsuji.Client.Dispatch

set_option autoImplicit false

/-! # The provider

The part of `provider_t` through which messages and replies reach its clients: `clients_` by channel
pointer, the interest sets, and what `DoWork` does with a message, a reply and a disconnect. -/

namespace Hitsuji

open ByteBuffer

/-! ## State -/

/-- The members of `provider_t` involved, with the channels its pointers refer to. -/
structure Provider where
  channels : UInt64 → Channel
  clients : UInt64 → Option Client
  view : ProviderView
  replySock : Nat
  outRfds : Finset Nat
  outWfds : Finset Nat
  outEfds : Finset Nat

namespace Provider

/-- The session of the client on a channel. -/
def session (p : Provider) (handle : UInt64) (c : Client) : Session :=
  ⟨c, p.channels handle, p.view⟩

/-- The provider after a method of the client on `handle`. -/
def absorb (p : Provider) (handle : UInt64) (d : Done) : Provider :=
  { p with
    clients := Function.update p.clients handle (some d.session.client)
    view := d.session.provider }

/-- `provider_t::Abort`: marks the connection for removal. -/
def abort (p : Provider) (handle : UInt64) : Provider :=
  { p with
    outRfds := p.outRfds.erase (p.channels handle).socketId
    outWfds := p.outWfds.erase (p.channels handle).socketId
    outEfds := insert (p.channels handle).socketId p.outEfds }

/-- `provider_t::AcceptClientSession`; `clients_.emplace` keeps an entry that is there. -/
def acceptClientSession (p : Provider) (handle : UInt64) (channel : Channel)
    (directoryToken : Int32) : Provider :=
  { p with
    channels := Function.update p.channels handle channel
    clients := Function.update p.clients handle (some ((p.clients handle).getD
      (.initial handle directoryToken channel p.view.lastActivity))) }

/-- The disconnect of `DoWork`: the client goes, the socket leaves the interest sets. -/
def disconnect (p : Provider) (handle : UInt64) : Provider :=
  { p with
    clients := Function.update p.clients handle none
    view := { p.view with inWfds := p.view.inWfds.erase (p.channels handle).socketId } }

/-! ## Replies -/

/-- `provider_t::SendReply`: the client may have disconnected before the reply is available. -/
def sendReply (env : Env) (p : Provider) (handle : UInt64) (token : Int32) (data : Bytes) :
    Option (Bool × Provider × List Event) :=
  match p.clients handle with
  | none => some (false, p, [])
  | some c =>
      ((p.session handle c).sendReply env token data).map fun d =>
        (d.ret, p.absorb handle d, d.events)

/-- `hitsuji_t::OnReply`; an exception of the decoder is not caught. -/
def onReply (env : Env) (p : Provider) (msg : Bytes) : Option (Bool × Provider × List Event) :=
  match decodeReply .lengthFirst msg with
  | .error _ => none
  | .ok view => p.sendReply env view.handle view.token (view.payload msg)

end Provider

/-- What the ZeroMQ calls of one `OnRead` return. -/
structure ReadEnv where
  /-- `ZMQ_POLLIN` in the first `ZMQ_EVENTS`, `none` if the call fails -/
  events : Option Bool
  msgInit : Bool
  msgRecv : Bool
  msgClose : Bool
  /-- `ZMQ_POLLIN` in the second `ZMQ_EVENTS`, re-read due to edge triggering -/
  eventsAgain : Option Bool

/-- The calls up to `zmq_msg_recv` succeed: a message leaves the queue. -/
def ReadEnv.receives (z : ReadEnv) : Bool :=
  decide (z.events = some true) && z.msgInit && z.msgRecv

/-- The remaining calls succeed and another reply is waiting. -/
def ReadEnv.more (z : ReadEnv) : Bool :=
  z.msgClose && decide (z.eventsAgain = some true)

namespace Provider

/-- `hitsuji_t::OnRead` when `msg` is the next reply in the queue. -/
def onRead (env : Env) (z : ReadEnv) (p : Provider) (msg : Bytes) :
    Option (Bool × Provider × List Event) :=
  if z.receives then
    (p.onReply env msg).map fun (ok, p', events) => (ok && z.more, p', events)
  else some (false, p, [])

/-- The external socket event of `DoWork`. -/
def onReplySocket (env : Env) (z : ReadEnv) (p : Provider) (msg : Bytes) :
    Option (Provider × List Event) :=
  (p.onRead env z msg).map fun (again, p', events) =>
    (if again then p' else { p' with outRfds := p'.outRfds.erase p'.replySock }, events)

/-- Reading a reply: nothing happens, or the client at the decoded handle is sent the reply. -/
theorem onReplySocket_spec (env : Env) (z : ReadEnv) (p p' : Provider) (handle : UInt64)
    (token : Int32) (rssl : RsslBuf) (events : List Event)
    (h : p.onReplySocket env z (replyImage handle token rssl.length rssl.payload)
      = some (p', events)) :
    p'.outEfds = p.outEfds
      ∧ ((p'.clients = p.clients ∧ events = []
          ∧ (z.receives = true → p.clients handle = none))
        ∨ ∃ c data d, p.clients handle = some c ∧ z.receives = true
          ∧ (p.session handle c).sendReply env token data = some d
          ∧ p'.clients = Function.update p.clients handle (some d.session.client)
          ∧ events = d.events) := by
  unfold onReplySocket at h
  obtain ⟨⟨again, p₁, events₁⟩, hread, hpair⟩ := Option.map_eq_some_iff.mp h
  obtain ⟨hp', rfl⟩ := Prod.mk.inj hpair
  have hclients : p'.clients = p₁.clients ∧ p'.outEfds = p₁.outEfds := by
    rw [← hp']
    cases again <;> exact ⟨rfl, rfl⟩
  rw [hclients.1, hclients.2]
  unfold onRead at hread
  split at hread
  · next hrecv =>
      obtain ⟨⟨ok, p₂, events₂⟩, hreply, hpair₂⟩ := Option.map_eq_some_iff.mp hread
      simp only [Prod.mk.injEq] at hpair₂
      obtain ⟨-, rfl, rfl⟩ := hpair₂
      unfold onReply at hreply
      rw [decodeReply_image] at hreply
      simp only [sendReply] at hreply
      split at hreply
      · next hnone =>
          obtain ⟨-, rfl, rfl⟩ := by simpa only [Option.some.injEq, Prod.mk.injEq] using hreply
          exact ⟨rfl, .inl ⟨rfl, rfl, fun _ => hnone⟩⟩
      · next c hc =>
          obtain ⟨d, hd, hdone⟩ := Option.map_eq_some_iff.mp hreply
          simp only [Prod.mk.injEq] at hdone
          obtain ⟨-, rfl, rfl⟩ := hdone
          exact ⟨rfl, .inr ⟨c, _, d, hc, hrecv, hd, rfl, rfl⟩⟩
  · next hrecv =>
      obtain ⟨-, rfl, rfl⟩ := by simpa only [Option.some.injEq, Prod.mk.injEq] using hread
      exact ⟨rfl, .inl ⟨rfl, rfl, fun h => absurd h hrecv⟩⟩

/-! ## Messages -/

/-- The provider after a method of a client. In `provider_t::OnMsg` a handler that fails aborts the
    connection; `provider_t::Close` ignores what the methods it calls return. -/
def afterCall (p : Provider) (handle : UInt64) (input : Input) (d : Done) : Provider :=
  match input with
  | .msg _ => if d.ret then p.absorb handle d else (p.absorb handle d).abort handle
  | _ => p.absorb handle d

theorem afterCall_clients (p : Provider) (handle : UInt64) (input : Input) (d : Done) :
    (p.afterCall handle input d).clients
      = Function.update p.clients handle (some d.session.client) := by
  unfold afterCall
  split
  · split <;> rfl
  · rfl

end Provider

end Hitsuji
