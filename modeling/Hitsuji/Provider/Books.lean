import Hitsuji.Provider.DoWork

set_option autoImplicit false

/-! # What a step does to the books

The books of the provider are everything its bookkeeping is about: the connections, the sessions,
the socket ids and back pointers in the channels, and the interest it keeps by hand. Most handlers
only serve a session (`Serves`): they leave the books alone, mark a socket as pending at most, and
may find the channel out of service. `Change` lists what else a step can do; every invariant of the
provider is checked against that list once. -/

namespace Hitsuji

open ByteBuffer

/-! ## Serving -/

/-- The books. -/
structure Books where
  connections : List UInt64
  sessions : List (UInt64 × Nat)
  hasClient : UInt64 → Bool
  userSpecPtr : UInt64 → Option Nat
  socketId : UInt64 → Nat
  rsslSock : Option Nat
  replySock : Nat
  isAcceptingConnections : Bool
  sessionCapacity : Nat
  inRfds : Finset Nat
  inEfds : Finset Nat

namespace Pump

/-- The books of a provider. -/
def books (p : Pump) : Books where
  connections := p.connections
  sessions := p.sessions
  hasClient c := (p.clients c).isSome
  userSpecPtr c := (p.links c).userSpecPtr
  socketId := p.socketId
  rsslSock := p.rsslSock
  replySock := p.replySock
  isAcceptingConnections := p.isAcceptingConnections
  sessionCapacity := p.sessionCapacity
  inRfds := p.inRfds
  inEfds := p.inEfds

/-- The channels are in the same state, or out of service. -/
def StateKept (p p' : Pump) : Prop :=
  ∀ c, (p'.links c).state = (p.links c).state ∨ ∃ d : Down, (p'.links c).state = d.state

/-- A call that leaves the books alone: a client writes on its own channel, and what RSSL keeps
    queued is marked in `wfds` afterwards. -/
def Harmless (p : Pump) (wfds : Finset Nat) : RsslCall → Prop
  | .session k (.writeEx _ direct rc) => (p.clients k).isSome = true
      ∧ (direct = true → p.socketId k ∉ p.view.inWfds)
      ∧ (rc.isPending = true → p.socketId k ∈ wfds)
  | .flush _ rc => rc ≠ .success
  | .accept _ | .closeChannel _ => False
  | _ => True

/-- A handler that only serves sessions. -/
structure Serves (p : Pump) (h : Handled) : Prop where
  books : h.pump.books = p.books
  state : StateKept p h.pump
  kept : p.view.inWfds ⊆ h.pump.view.inWfds
  within : ∀ s ∈ h.pump.view.inWfds, s ∈ p.view.inWfds
    ∨ ∃ k, (p.clients k).isSome = true ∧ s = p.socketId k
  calls : ∀ call ∈ h.calls, p.Harmless h.pump.view.inWfds call

/-! ### Reading the books -/

section Fields

variable {p p' : Pump} (h : p'.books = p.books)

include h

theorem connections_of_books : p'.connections = p.connections := congrArg Books.connections h

theorem sessions_of_books : p'.sessions = p.sessions := congrArg Books.sessions h

theorem keys_of_books : p'.keys = p.keys := by rw [keys, keys, sessions_of_books h]

theorem hasClient_of_books (c : UInt64) : (p'.clients c).isSome = (p.clients c).isSome :=
  congrFun (congrArg Books.hasClient h) c

theorem userSpecPtr_of_books (c : UInt64) : (p'.links c).userSpecPtr = (p.links c).userSpecPtr :=
  congrFun (congrArg Books.userSpecPtr h) c

theorem socketId_of_books (c : UInt64) : p'.socketId c = p.socketId c :=
  congrFun (congrArg Books.socketId h) c

theorem pointee_of_books (c : UInt64) : p'.pointee c = p.pointee c := by
  rw [pointee, pointee, userSpecPtr_of_books h, sessions_of_books h]

theorem rsslSock_of_books : p'.rsslSock = p.rsslSock := congrArg Books.rsslSock h

theorem replySock_of_books : p'.replySock = p.replySock := congrArg Books.replySock h

theorem capacity_of_books : p'.sessionCapacity = p.sessionCapacity :=
  congrArg Books.sessionCapacity h

theorem inRfds_of_books : p'.inRfds = p.inRfds := congrArg Books.inRfds h

theorem inEfds_of_books : p'.inEfds = p.inEfds := congrArg Books.inEfds h

end Fields

/-! ### Composing -/

theorem stateKept_trans (p p' p'' : Pump) (h : StateKept p p') (h' : StateKept p' p'') :
    StateKept p p'' := by
  intro c
  rcases h' c with hsame | hdown
  · rw [hsame]
    exact h c
  · exact .inr hdown

/-- A call stays harmless seen from before, and when more sockets are marked after it. -/
theorem harmless_trans (p p' : Pump) (wfds wfds' : Finset Nat) (hbooks : p'.books = p.books)
    (hkept : p.view.inWfds ⊆ p'.view.inWfds) (hwfds : wfds ⊆ wfds') (call : RsslCall)
    (h : p'.Harmless wfds call) : p.Harmless wfds' call := by
  cases call with
  | session k e =>
      cases e with
      | writeEx out direct rc =>
          obtain ⟨hclient, hdirect, hpending⟩ := h
          rw [hasClient_of_books hbooks] at hclient
          rw [socketId_of_books hbooks] at hdirect hpending
          exact ⟨hclient, fun hd hmem => hdirect hd (hkept hmem), fun hp => hwfds (hpending hp)⟩
      | getBuffer | releaseBuffer | onRequest => trivial
  | flush | ping | accept | nak | closeChannel => exact h

theorem serves_trans (p : Pump) (h h' : Handled) (hfirst : p.Serves h)
    (hsecond : h.pump.Serves h') : p.Serves ⟨h'.pump, h.calls ++ h'.calls⟩ where
  books := hsecond.books.trans hfirst.books
  state := stateKept_trans p h.pump h'.pump hfirst.state hsecond.state
  kept := hfirst.kept.trans hsecond.kept
  within s hs := by
    rcases hsecond.within s hs with hold | ⟨k, hk, rfl⟩
    · exact hfirst.within s hold
    · rw [hasClient_of_books hfirst.books] at hk
      exact .inr ⟨k, hk, socketId_of_books hfirst.books k⟩
  calls call hmem := by
    rcases List.mem_append.mp hmem with hold | hnew
    · exact harmless_trans p p _ _ rfl (fun _ hs => hs) hsecond.kept call
        (hfirst.calls call hold)
    · exact harmless_trans p h.pump _ _ hfirst.books hfirst.kept (fun _ hs => hs) call
        (hsecond.calls call hnew)

/-- A change of anything but books, states and marks. -/
theorem serves_of_eq (p p' : Pump) (hbooks : p'.books = p.books) (hlinks : p'.links = p.links)
    (hview : p'.view.inWfds = p.view.inWfds) : p.Serves ⟨p', []⟩ where
  books := hbooks
  state c := .inl (by rw [hlinks])
  kept := hview.ge
  within s hs := .inl (hview ▸ hs)
  calls call hmem := absurd hmem List.not_mem_nil

theorem serves_refl (p : Pump) : p.Serves ⟨p, []⟩ :=
  serves_of_eq p p rfl rfl rfl

/-- Serving in between, before a handler that makes the calls. -/
theorem serves_before (p q : Pump) (h : Handled) (hfirst : p.Serves ⟨q, []⟩)
    (hsecond : q.Serves h) : p.Serves h :=
  serves_trans p ⟨q, []⟩ h hfirst hsecond

theorem serves_after (p q : Pump) (h : Handled) (hfirst : p.Serves h)
    (hsecond : h.pump.Serves ⟨q, []⟩) : p.Serves ⟨q, h.calls⟩ := by
  have htrans := serves_trans p h ⟨q, []⟩ hfirst hsecond
  rwa [List.append_nil] at htrans

/-- A call without effect on the books. -/
theorem serves_call (p : Pump) (q : Pump) (call : RsslCall) (h : p.Serves ⟨q, []⟩)
    (hcall : p.Harmless q.view.inWfds call) : p.Serves ⟨q, [call]⟩ :=
  { h with
    calls := by
      intro call' hmem
      obtain rfl := List.mem_singleton.mp hmem
      exact hcall }

/-! ### Handlers that serve -/

theorem books_leave (p : Pump) (c : UInt64) (left : Option Down) :
    (p.leave c left).books = p.books := by
  cases left with
  | none => rfl
  | some d =>
      have hptr : ∀ k, ((p.leave c (some d)).links k).userSpecPtr = (p.links k).userSpecPtr := by
        intro k
        by_cases hk : k = c
        · subst hk
          simp only [leave, setLink, Function.update_self]
        · simp only [leave, setLink, Function.update_of_ne hk]
      simp only [books, hptr]
      rfl

/-- A channel out of service is on the socket it was on. -/
theorem socketId_leave (p : Pump) (c : UInt64) (left : Option Down) (k : UInt64) :
    (p.leave c left).socketId k = p.socketId k :=
  socketId_of_books (books_leave p c left) k

theorem serves_leave (p : Pump) (c : UInt64) (left : Option Down) :
    p.Serves ⟨p.leave c left, []⟩ where
  books := books_leave p c left
  state k := by
    cases left with
    | none => exact .inl rfl
    | some d =>
        by_cases hk : k = c
        · subst hk
          exact .inr ⟨d, by simp only [leave, setLink, Function.update_self]⟩
        · exact .inl (by simp only [leave, setLink, Function.update_of_ne hk])
  kept := by cases left <;> exact fun _ hs => hs
  within s hs := by cases left <;> exact .inl hs
  calls call hmem := absurd hmem List.not_mem_nil

theorem serves_abort (p : Pump) (c : UInt64) : p.Serves ⟨p.abort c, []⟩ :=
  serves_of_eq p _ rfl rfl rfl

theorem serves_markException (p : Pump) (c : UInt64) : p.Serves ⟨p.markException c, []⟩ :=
  serves_of_eq p _ rfl rfl rfl

theorem serves_clearRead (p : Pump) (socket : Nat) : p.Serves ⟨p.clearRead socket, []⟩ :=
  serves_of_eq p _ rfl rfl rfl

/-- Replacing a client that is there. -/
theorem hasClient_update (p : Pump) (k : UInt64) (client client' : Client)
    (hclient : p.clients k = some client) (c : UInt64) :
    (Function.update p.clients k (some client') c).isSome = (p.clients c).isSome := by
  by_cases hc : c = k
  · subst hc
    rw [Function.update_self, hclient]
    rfl
  · rw [Function.update_of_ne hc]

theorem serves_modifyClient (p p' : Pump) (c : UInt64) (f : Client → Client)
    (h : p.modifyClient c f = some p') : p.Serves ⟨p', []⟩ := by
  unfold modifyClient at h
  split at h
  · obtain rfl := Option.some.inj h
    exact serves_refl p
  · obtain ⟨k, -, hk⟩ := Option.bind_eq_some_iff.mp h
    obtain ⟨client, hclient, rfl⟩ := Option.map_eq_some_iff.mp hk
    refine serves_of_eq p _ ?_ rfl rfl
    simp only [books, hasClient_update p k client (f client) hclient]
    rfl

/-- A method of a client, whatever it writes. -/
theorem serves_afterMethod (p : Pump) (k : UInt64) (client : Client) (d : Done)
    (left : Option Down) (hclient : p.clients k = some client)
    (hwrites : (p.session k client).Writes d) :
    p.Serves ⟨p.afterMethod k d left, d.events.map (.session k)⟩ := by
  let q : Pump := { p with toProvider := p.toProvider.absorb k d }
  have hserves : p.Serves ⟨q, d.events.map (.session k)⟩ := by
    refine ⟨?_, fun c => .inl rfl, hwrites.kept, fun s hs => ?_, fun call hmem => ?_⟩
    · simp only [q, books, Provider.absorb, hasClient_update p k client _ hclient]
      rfl
    · rcases Finset.mem_insert.mp (hwrites.within hs) with rfl | hold
      · exact .inr ⟨k, by rw [hclient]; rfl, rfl⟩
      · exact .inl hold
    · obtain ⟨e, he, rfl⟩ := List.mem_map.mp hmem
      cases e with
      | writeEx out direct rc =>
          refine ⟨by rw [hclient]; rfl, fun hdirect => ?_, hwrites.pending out direct rc he⟩
          have hclear := hwrites.direct out direct rc he
          rw [hdirect] at hclear
          exact of_decide_eq_true hclear.symm
      | getBuffer | releaseBuffer | onRequest => trivial
  exact serves_after p _ ⟨q, d.events.map (.session k)⟩ hserves (serves_leave q k left)

theorem serves_setNextPong (p p' : Pump) (c : UInt64) (h : p.setNextPong c = some p') :
    p.Serves ⟨p', []⟩ :=
  serves_modifyClient p p' c _ h

theorem serves_onMsg (p : Pump) (c : UInt64) (msg : Option InMsg) (env : Env)
    (left : Option Down) (h : Handled) (hrun : p.onMsg c msg env left = some h) : p.Serves h := by
  unfold onMsg at hrun
  split at hrun
  · obtain rfl := Option.some.inj hrun
    exact serves_abort p c
  · obtain ⟨k, -, hk⟩ := Option.bind_eq_some_iff.mp hrun
    obtain ⟨client, hclient, hclient'⟩ := Option.bind_eq_some_iff.mp hk
    obtain ⟨d, hd, rfl⟩ := Option.map_eq_some_iff.mp hclient'
    have hserves := serves_afterMethod p k client d left hclient (writes_onMsg _ _ _ d hd)
    simp only
    split
    · exact hserves
    · exact serves_after p _ _ hserves (serves_abort _ c)

theorem serves_onBuffer (p : Pump) (c : UInt64) (buf : Option (Option InMsg × Env))
    (left : Option Down) (h : Handled) (hrun : p.onBuffer c buf left = some h) : p.Serves h := by
  unfold onBuffer at hrun
  split at hrun
  · obtain rfl := Option.some.inj hrun
    exact serves_refl p
  · obtain ⟨h₁, hmsg, hpong⟩ := Option.bind_eq_some_iff.mp hrun
    obtain ⟨p', hp', rfl⟩ := Option.map_eq_some_iff.mp hpong
    exact serves_after p p' h₁ (serves_onMsg p c _ _ left h₁ hmsg) (serves_setNextPong _ p' c hp')

theorem serves_ping (p : Pump) (c : UInt64) (rc : RsslRet) (left : Option Down) (h : Handled)
    (hrun : p.ping c rc left = some h) : p.Serves h := by
  unfold ping at hrun
  split at hrun
  · obtain ⟨p', hp', rfl⟩ := Option.map_eq_some_iff.mp hrun
    exact serves_call p p' _ (serves_modifyClient p p' c _ hp') trivial
  · obtain rfl := Option.some.inj hrun
    exact serves_call p _ _ (serves_before p _ _ (serves_markException p c)
      (serves_leave _ c left)) trivial
  · obtain rfl := Option.some.inj hrun
    exact serves_call p _ _ (serves_before p _ _ (serves_markException p c)
      (serves_leave _ c left)) trivial
  · obtain rfl := Option.some.inj hrun
    exact serves_call p _ _ (serves_before p _ _ (serves_markException p c)
      (serves_leave _ c left)) trivial
  · obtain rfl := Option.some.inj hrun
    exact serves_call p _ _ (serves_leave p c left) trivial

theorem serves_keepalive (p : Pump) (c : UInt64) (rc : RsslRet) (left : Option Down) (h : Handled)
    (hrun : p.keepalive c rc left = some h) : p.Serves h := by
  unfold keepalive at hrun
  split at hrun
  · obtain ⟨client, -, hclient⟩ := Option.bind_eq_some_iff.mp hrun
    obtain ⟨h₁, hping, rfl⟩ := Option.map_eq_some_iff.mp hclient
    have hserves : p.Serves h₁ := by
      split at hping
      · exact serves_ping p c rc left h₁ hping
      · obtain rfl := Option.some.inj hping
        exact serves_refl p
    split
    · exact serves_after p _ h₁ hserves (serves_abort _ c)
    · exact hserves
  · obtain rfl := Option.some.inj hrun
    exact serves_refl p

theorem serves_directoryUpdate (p : Pump) (c : UInt64) (env : Env) (left : Option Down)
    (h : Handled) (hrun : p.directoryUpdate c env left = some h) : p.Serves h := by
  obtain ⟨client, hclient, hupdate⟩ := Option.bind_eq_some_iff.mp hrun
  obtain ⟨d, hd, rfl⟩ := Option.map_eq_some_iff.mp hupdate
  exact serves_afterMethod p c client d left hclient (writes_sendEncoded _ _ _ _ d hd)

theorem replyHandle_eq (msg : Bytes) (view : ReplyView)
    (h : decodeReply .lengthFirst msg = .ok view) : replyHandle msg = view.handle := by
  rw [replyHandle, h]

/-- A reply reaches the client under its handle, or none. -/
theorem onReplySocket_cases (env : Env) (z : ReadEnv) (p q : Provider) (msg : Bytes)
    (events : List Event) (h : p.onReplySocket env z msg = some (q, events)) :
    ∃ out, (q = { p with outRfds := out } ∧ events = [])
      ∨ ∃ view client d, z.receives = true ∧ decodeReply .lengthFirst msg = .ok view
        ∧ p.clients view.handle = some client
        ∧ (p.session view.handle client).sendReply env view.token (view.payload msg) = some d
        ∧ q = { p.absorb view.handle d with outRfds := out } ∧ events = d.events := by
  obtain ⟨⟨again, q₁, events₁⟩, hread, hpair⟩ := Option.map_eq_some_iff.mp h
  obtain ⟨hq, rfl⟩ := Prod.mk.inj hpair
  have hmsg : (q₁ = p ∧ events₁ = []) ∨ ∃ view client d, z.receives = true
      ∧ decodeReply .lengthFirst msg = .ok view ∧ p.clients view.handle = some client
      ∧ (p.session view.handle client).sendReply env view.token (view.payload msg) = some d
      ∧ q₁ = p.absorb view.handle d ∧ events₁ = d.events := by
    unfold Provider.onRead at hread
    split at hread
    · next hreceives =>
      obtain ⟨⟨ok, q₂, events₂⟩, hreply, hpair₂⟩ := Option.map_eq_some_iff.mp hread
      obtain ⟨-, hpair₂⟩ := Prod.mk.inj hpair₂
      obtain ⟨rfl, rfl⟩ := Prod.mk.inj hpair₂
      unfold Provider.onReply at hreply
      split at hreply
      · exact absurd hreply (by simp)
      · next view hview =>
          unfold Provider.sendReply at hreply
          split at hreply
          · obtain ⟨-, hpair₃⟩ := Prod.mk.inj (Option.some.inj hreply)
            obtain ⟨rfl, rfl⟩ := Prod.mk.inj hpair₃
            exact .inl ⟨rfl, rfl⟩
          · next client hclient =>
              obtain ⟨d, hd, hdone⟩ := Option.map_eq_some_iff.mp hreply
              obtain ⟨-, hpair₃⟩ := Prod.mk.inj hdone
              obtain ⟨rfl, rfl⟩ := Prod.mk.inj hpair₃
              exact .inr ⟨view, client, d, hreceives, hview, hclient, hd, rfl, rfl⟩
    · obtain ⟨-, hpair₂⟩ := Prod.mk.inj (Option.some.inj hread)
      obtain ⟨rfl, rfl⟩ := Prod.mk.inj hpair₂
      exact .inl ⟨rfl, rfl⟩
  obtain ⟨out, hout⟩ : ∃ out, q = { q₁ with outRfds := out } := by
    rw [← hq]
    split
    · exact ⟨q₁.outRfds, rfl⟩
    · exact ⟨_, rfl⟩
  refine ⟨out, ?_⟩
  rcases hmsg with ⟨rfl, hevents⟩ | ⟨view, client, d, hreceives, hview, hclient, hd, rfl, hevents⟩
  · exact .inl ⟨hout, hevents⟩
  · exact .inr ⟨view, client, d, hreceives, hview, hclient, hd, hout, hevents⟩

theorem serves_onReplySocket (p : Pump) (env : Env) (z : ReadEnv) (msg : Bytes)
    (left : Option Down) (h : Handled) (hrun : p.onReplySocket env z msg left = some h) :
    p.Serves h := by
  obtain ⟨⟨q, events⟩, hread, rfl⟩ := Option.map_eq_some_iff.mp hrun
  obtain ⟨out, ⟨rfl, rfl⟩ | ⟨view, client, d, -, hview, hclient, hd, rfl, rfl⟩⟩ :=
    onReplySocket_cases env z p.toProvider q msg events hread
  · exact serves_of_eq p _ rfl rfl rfl
  · have hwrites : (p.session view.handle client).Writes d := writes_sendReply _ _ _ _ d hd
    have hserves := serves_afterMethod p view.handle client d none hclient hwrites
    rw [replyHandle_eq msg view hview]
    refine serves_after p _ _ hserves (serves_before _ _ _ ?_ (serves_leave _ _ _))
    exact serves_of_eq _ _ rfl rfl rfl

end Pump

end Hitsuji
