import Hitsuji.Provider.Connections

set_option autoImplicit false

/-! # Exceptions while a session is accepted

`OnActiveClientSession` catches what `AcceptClientSession` throws and ignores it: the channel stays
active, polled and a connection, and no client is stored for it. Thrown before `userSpecPtr` is set,
the exception leaves the pointer null; thrown after it, the pointer dangles. Either way `OnMsg`
finds no client for the next message, unless the connection is removed before one is read: when
`select` reported an exception on its socket in the same pass. -/

namespace Hitsuji

open ByteBuffer Transition

/-! ## Exceptions that are swallowed -/

/-- An exception leaves `AcceptClientSession`. -/
def NewSession.throws : NewSession → Bool
  | .thrown => true
  | .uninitialized => false
  | .initialized _ _ emplaced => !emplaced

/-- It does so before `userSpecPtr` is set. -/
def Op.throwsEarly : Op → Bool
  | .read _ (.initChannel (.success _ _ _) .thrown _) => true
  | _ => false

namespace Pump

/-- The channel for which `OnActiveClientSession` swallows an exception. -/
def swallows (p : Pump) : Op → Option UInt64
  | .read i (.initChannel (.success _ _ _) session _) =>
      p.connections[i]?.filter fun c =>
        decide (p.socketId c ∈ p.outRfds ∧ (p.links c).state = .initializing ∧ ¬ p.Refuses)
          && session.throws
  | _ => none

/-- `userSpecPtr` is null or points to a client held in `clients_`. -/
def Backed (p : Pump) (c : UInt64) : Prop :=
  (p.links c).userSpecPtr = none ∨ p.PointsToClient c

/-- The pointer is null or backed, and no message of the channel reaches `OnMsg` without a live
    client: the channel is removed, closed or aborted, or has one. -/
structure AcceptedSafely (p : Pump) (c : UInt64) : Prop where
  backed : p.Backed c
  served : c ∉ p.connections ∨ (p.links c).state = .closed ∨ p.socketId c ∈ p.outEfds
    ∨ p.PointsToClient c

/-- Nothing was published yet, and this pass disconnects the channel anyway. -/
def Spared (p : Pump) (op : Op) (c : UInt64) : Prop :=
  op.throwsEarly = true ∧ p.socketId c ∈ p.outEfds

instance (p : Pump) (op : Op) (c : UInt64) : Decidable (p.Spared op c) :=
  inferInstanceAs (Decidable (_ ∧ _))

/-! ## What an exception leaves behind -/

/-- A channel before its session has a null pointer. -/
def Fresh (p : Pump) : Prop :=
  ∀ c ∈ p.connections, (p.links c).state = .initializing → (p.links c).userSpecPtr = none

/-- The channel stays an active connection that is polled; its pointer is as it was, or that of a
    client that is stored nowhere. -/
structure LeftBehind (p : Pump) (op : Op) (c : UInt64) (p' : Pump) : Prop where
  connected : c ∈ p.connections
  connections : p'.connections = p.connections
  state : (p'.links c).state = .active
  watched : p'.socketId c ∈ p'.inRfds
  marked : p'.socketId c ∈ p'.outEfds ↔ p.socketId c ∈ p.outEfds
  pointer : op.throwsEarly = true ∧ (p'.links c).userSpecPtr = none
    ∨ op.throwsEarly = false ∧ ∃ address, (p'.links c).userSpecPtr = some address
      ∧ address ∉ p'.sessions.map Prod.snd

theorem swallows_eq_some (p : Pump) (op : Op) (c : UInt64) (hc : p.swallows op = some c) :
    ∃ i majorVersion minorVersion pingTimeout session left,
      op = .read i (.initChannel (.success majorVersion minorVersion pingTimeout) session left)
        ∧ p.Reading i c ∧ (p.links c).state = .initializing ∧ ¬ p.Refuses
        ∧ session.throws = true := by
  unfold swallows at hc
  split at hc
  · next i majorVersion minorVersion pingTimeout session left =>
      obtain ⟨hposition, hguard⟩ := Option.filter_eq_some_iff.mp hc
      rw [Bool.and_eq_true, decide_eq_true_eq] at hguard
      obtain ⟨⟨hready, hstate, haccept⟩, hthrows⟩ := hguard
      exact ⟨i, majorVersion, minorVersion, pingTimeout, session, left, rfl,
        ⟨hposition, hready⟩, hstate, haccept, hthrows⟩
  · exact absurd hc (by simp)

/-- Where the exception is caught: nothing was done, or the pointer was set. -/
theorem onActiveClientSession_of_throws (p : Pump) (c : UInt64) (session : NewSession)
    (left : Down) (h : Handled) (haccept : ¬ p.Refuses) (hthrows : session.throws = true)
    (hrun : p.onActiveClientSession c session left = some h) :
    session = .thrown ∧ h = ⟨p, []⟩
      ∨ ∃ address directoryToken, session = .initialized address directoryToken false
        ∧ address ∉ p.sessions.map Prod.snd
        ∧ h = ⟨p.setLink c { p.links c with userSpecPtr := some address }, []⟩ := by
  unfold onActiveClientSession at hrun
  split at hrun
  · next hrefuse => exact absurd hrefuse haccept
  · cases session with
    | thrown => exact .inl ⟨rfl, (Option.some.inj hrun).symm⟩
    | uninitialized => exact absurd hthrows (by simp [NewSession.throws])
    | initialized address directoryToken emplaced =>
        obtain rfl : emplaced = false := by simpa [NewSession.throws] using hthrows
        obtain ⟨hfresh, hcaught⟩ := Option.ite_none_left_eq_some.mp hrun
        exact .inr ⟨address, directoryToken, rfl, hfresh, (Option.some.inj hcaught).symm⟩

/-- **An exception that is swallowed leaves an active channel behind.** -/
theorem leftBehind_of_swallows (p : Pump) (op : Op) (h : Handled) (c : UInt64) (hp : p.Fresh)
    (hrun : p.exec op = some h) (hc : p.swallows op = some c) : p.LeftBehind op c h.pump := by
  obtain ⟨i, majorVersion, minorVersion, pingTimeout, session, left, rfl, hreading, hstate, haccept,
    hthrows⟩ := swallows_eq_some p op c hc
  have hmem := List.mem_of_getElem? hreading.position
  have hnull := hp c hmem hstate
  let q := (p.clearRead (p.socketId c)).activate c majorVersion minorVersion pingTimeout
  obtain ⟨h₁, hsession, rfl⟩ := exec_activates p i c majorVersion minorVersion pingTimeout session
    left h hreading hstate hrun
  rcases onActiveClientSession_of_throws q c session left h₁ haccept hthrows hsession with
    ⟨rfl, rfl⟩ | ⟨address, directoryToken, rfl, hfresh, rfl⟩
  · refine ⟨hmem, rfl, ?_, ?_, ?_, .inl ⟨rfl, ?_⟩⟩
    · simp [q, watch, activate, setLink]
    · exact Finset.mem_insert_self _ _
    · simp [q, watch, activate, setLink, setChannel, clearRead, socketId]
    · simpa [q, watch, activate, setLink, setChannel, clearRead] using hnull
  · refine ⟨hmem, rfl, ?_, ?_, ?_, .inr ⟨rfl, address, ?_, hfresh⟩⟩
    · simp [q, watch, activate, setLink]
    · exact Finset.mem_insert_self _ _
    · simp [q, watch, activate, setLink, setChannel, clearRead, socketId]
    · simp [watch, setLink]

/-- There is no client behind its pointer. -/
theorem pointee_of_leftBehind (p p' : Pump) (op : Op) (c : UInt64) (h : p.LeftBehind op c p') :
    p'.pointee c = none := by
  rcases h.pointer with ⟨-, hnull⟩ | ⟨-, address, hptr, hfresh⟩
  · rw [pointee, hnull, Option.bind_none]
  · rw [pointee, hptr, Option.bind_some, Option.map_eq_none_iff, List.find?_eq_none]
    intro entry hentry heq
    exact hfresh (List.mem_map.mpr ⟨entry, hentry, by simpa using heq⟩)

/-- `OnMsg` cannot serve the next message of such a channel. -/
theorem onMsg_of_leftBehind (p p' : Pump) (op : Op) (c : UInt64) (h : p.LeftBehind op c p')
    (m : InMsg) (env : Env) (left : Option Down) : p'.onMsg c (some m) env left = none := by
  rw [onMsg, pointee_of_leftBehind p p' op c h, Option.bind_none]

/-- Acceptance ends safely exactly when the channel is spared. -/
theorem acceptedSafely_iff (p p' : Pump) (op : Op) (c : UInt64) (h : p.LeftBehind op c p') :
    p'.AcceptedSafely c ↔ p.Spared op c := by
  have hnobody : ¬ p'.PointsToClient c := by
    rintro ⟨address, client, -, -, -, hpointee⟩
    exact absurd ((pointee_of_leftBehind p p' op c h).symm.trans hpointee) (by simp)
  constructor
  · rintro ⟨hbacked, hserved⟩
    have hnull := hbacked.resolve_right hnobody
    constructor
    · rcases h.pointer with ⟨hearly, -⟩ | ⟨-, address, hptr, -⟩
      · exact hearly
      · exact absurd (hptr.symm.trans hnull) (by simp)
    · rcases hserved with hgone | hclosed | hmarked | hclient
      · exact absurd (h.connections ▸ h.connected) hgone
      · exact absurd (h.state.symm.trans hclosed) (by simp)
      · exact h.marked.mp hmarked
      · exact absurd hclient hnobody
  · rintro ⟨hearly, hefds⟩
    refine ⟨.inl ?_, .inr (.inr (.inl (h.marked.mpr hefds)))⟩
    rcases h.pointer with ⟨-, hnull⟩ | ⟨hlate, -⟩
    · exact hnull
    · exact absurd (hearly.symm.trans hlate) (by simp)

/-! ## The books and the back pointers -/

/-- Connections at most go, and channels at most go out of service. -/
structure Settles (p p' : Pump) : Prop where
  connections : p'.connections.Sublist p.connections
  sessions : p'.sessions.Sublist p.sessions
  stored : p.connections.Nodup → ∀ c ∈ p'.connections, ∀ address,
    (c, address) ∈ p.sessions → (c, address) ∈ p'.sessions
  state : ∀ c ∈ p'.connections, (p'.links c).state = (p.links c).state
    ∨ ∃ d : Down, (p'.links c).state = d.state
  pointer : ∀ c ∈ p'.connections, (p'.links c).userSpecPtr = (p.links c).userSpecPtr

/-- A step may do to a channel: -/
inductive Course (p : Pump) (op : Op) (p' : Pump) : Prop where
  /-- nothing but take it out of service or away, -/
  | settles (h : p.Settles p')
  /-- make it a connection, -/
  | accepted (a : Accepted) (hop : op.accepted = some a)
      (hlinks : p'.links = Function.update p.links a.handle ⟨.initializing, 0, none⟩)
      (hconnections : p'.connections = p.connections ++ [a.handle])
      (hsessions : p'.sessions = p.sessions)
  /-- activate it and be interrupted by an exception, -/
  | threw (c : UInt64) (link : Link) (hc : p.swallows op = some c) (hstate : link.state = .active)
      (hlinks : p'.links = Function.update p.links c link)
      (hconnections : p'.connections = p.connections) (hsessions : p'.sessions = p.sessions)
  /-- or give it a session. -/
  | opened (c : UInt64) (link : Link) (address : Nat) (hc : c ∈ p.connections)
      (hbefore : (p.links c).state = .initializing) (hstate : link.state = .active)
      (hptr : link.userSpecPtr = some address) (hfresh : address ∉ p.sessions.map Prod.snd)
      (hlinks : p'.links = Function.update p.links c link)
      (hconnections : p'.connections = p.connections)
      (hsessions : p'.sessions = if c ∈ p.keys then p.sessions else p.sessions ++ [(c, address)])

theorem settles_of_links (p p' : Pump) (hconnections : p'.connections = p.connections)
    (hsessions : p'.sessions = p.sessions) (hstate : StateKept p p')
    (hptr : ∀ c, (p'.links c).userSpecPtr = (p.links c).userSpecPtr) : p.Settles p' where
  connections := by rw [hconnections]
  sessions := by rw [hsessions]
  stored _ c _ address hmem := by rwa [hsessions]
  state c _ := hstate c
  pointer c _ := hptr c

theorem settles_of_books (p p' : Pump) (hbooks : p'.books = p.books) (hstate : StateKept p p') :
    p.Settles p' :=
  settles_of_links p p' (connections_of_books hbooks) (sessions_of_books hbooks) hstate
    (userSpecPtr_of_books hbooks)

/-- A connection goes with its client. -/
theorem settles_disconnect (p : Pump) (i : Nat) (c : UInt64) (left : Down)
    (hc : p.connections[i]? = some c) : p.Settles (p.disconnect i c left).pump := by
  have hlinks : (p.disconnect i c left).pump.links = p.links
      ∨ (p.disconnect i c left).pump.links
        = Function.update p.links c { p.links c with state := left.state } := by
    unfold disconnect
    split
    · exact .inl rfl
    · exact .inr rfl
  have hconnections : (p.disconnect i c left).pump.connections = p.connections.eraseIdx i := by
    rw [disconnect_eq]
    rfl
  have hsessions : (p.disconnect i c left).pump.sessions
      = p.sessions.filter fun entry => entry.1 ≠ c := by
    rw [disconnect_eq]
    rfl
  refine ⟨?_, ?_, fun hunique k hk address hmem => ?_, fun k _ => ?_, fun k _ => ?_⟩
  · rw [hconnections]
    exact List.eraseIdx_sublist _ i
  · rw [hsessions]
    exact List.filter_sublist
  · rw [hconnections] at hk
    rw [hsessions]
    exact List.mem_filter.mpr
      ⟨hmem, decide_eq_true (mem_of_eraseIdx p i c k hc hunique hk).2⟩
  · rcases hlinks with hsame | hdown
    · rw [hsame]
      exact .inl rfl
    · rw [hdown]
      by_cases hk : k = c
      · subst hk
        exact .inr ⟨left, by rw [Function.update_self]⟩
      · exact .inl (by rw [Function.update_of_ne hk])
  · rcases hlinks with hsame | hdown
    · rw [hsame]
    · rw [hdown]
      by_cases hk : k = c
      · subst hk
        rw [Function.update_self]
      · rw [Function.update_of_ne hk]

/-- A channel leaves service before its socket changes. -/
theorem settles_leave (p p' : Pump) (c : UInt64) (left : Option Down)
    (hconnections : p'.connections = p.connections) (hsessions : p'.sessions = p.sessions)
    (hlinks : ∀ k, (p'.links k).state = ((p.leave c left).links k).state
      ∧ (p'.links k).userSpecPtr = ((p.leave c left).links k).userSpecPtr) : p.Settles p' := by
  refine settles_of_links p p' hconnections hsessions (fun k => ?_) fun k => ?_
  · rw [(hlinks k).1]
    exact (serves_leave p c left).state k
  · rw [(hlinks k).2]
    exact userSpecPtr_of_books (books_leave p c left) k

/-- **What a step does to the channels.** -/
theorem course_exec (p : Pump) (op : Op) (h : Handled) (hrun : p.exec op = some h) :
    p.Course op h.pump := by
  cases exec_cases p op h hrun with
  | serves _ _ hserves => exact .settles (settles_of_books p _ hserves.books hserves.state)
  | accepted a listening hsock hready haccepting hroom => exact .accepted a rfl rfl rfl rfl
  | rejected i c majorVersion minorVersion pingTimeout session left hreading hstate hreject =>
      refine .settles (settles_of_links p _ rfl rfl (fun k => ?_) fun k => ?_)
      · by_cases hk : k = c
        · subst hk
          exact .inr ⟨left, by simp [watch, leave, setLink]⟩
        · exact .inl (by simp [watch, leave, setLink, activate, setChannel, clearRead, hk])
      · by_cases hk : k = c
        · subst hk
          simp [watch, leave, setLink, activate, setChannel, clearRead]
        · simp [watch, leave, setLink, activate, setChannel, clearRead, hk]
  | threw i c majorVersion minorVersion pingTimeout left hreading hstate haccept =>
      refine .threw c { p.links c with state := .active } ?_ rfl rfl rfl rfl
      simp [swallows, hreading.position, Option.filter, hreading.ready, hstate, haccept,
        NewSession.throws]
  | opened i c majorVersion minorVersion pingTimeout address directoryToken emplaced left q hreading
      hstate haccept hfresh hq =>
      have hlinks : q.links
          = Function.update p.links c ⟨.active, (p.links c).oldSocketId, some address⟩ := by
        rw [hq]
        simp [setLink, activate, setChannel, clearRead]
      cases emplaced with
      | false =>
          refine .threw c ⟨.active, (p.links c).oldSocketId, some address⟩ ?_ rfl hlinks ?_ ?_
          · simp [swallows, hreading.position, Option.filter, hreading.ready, hstate, haccept,
              NewSession.throws]
          · rw [hq]
            rfl
          · rw [hq]
            rfl
      | true =>
          refine .opened c ⟨.active, (p.links c).oldSocketId, some address⟩ address
            (List.mem_of_getElem? hreading.position) hstate rfl rfl hfresh hlinks ?_ ?_
          · rw [hq]
            rfl
          · rw [hq]
            rfl
  | reconnected i c newSocket left hreading hstate =>
      refine .settles (settles_leave p _ c left ?_ ?_ fun k => ?_)
      · rw [leave_eq]
        rfl
      · rw [leave_eq]
        rfl
      · have hleave : ((p.clearRead (p.socketId c)).leave c left).links
            = (p.leave c left).links := by
          cases left <;> rfl
        by_cases hk : k = c
        · subst hk
          simp [onFdChange, watch, unwatch, reconnect, setLink, setChannel, hleave]
        · simp [onFdChange, watch, unwatch, reconnect, setLink, setChannel, hk, hleave]
  | fellThrough i c ret left hreading hstate =>
      refine .settles (settles_leave p _ c left ?_ ?_ fun k => ?_)
      · rw [leave_eq]
        rfl
      · rw [leave_eq]
        rfl
      · cases left <;> exact ⟨rfl, rfl⟩
  | flushed i c left p' hc hready hflushes =>
      exact .settles (settles_of_books p p' hflushes.books hflushes.state)
  | disconnected i c left hc hefds => exact .settles (settles_disconnect p i c left hc)
  | notified c env left leftByFlush loop h' p' hclient hserves hflushed hflushes =>
      exact .settles (settles_of_books p p' (hflushes.books.trans hserves.books)
        (stateKept_trans p h'.pump p' hserves.state hflushes.state))
  | tornDown left =>
      simp only [teardown]
      rw [closeConnections_eq]
      exact .settles ⟨List.nil_sublist _, List.nil_sublist _,
        fun _ c hc => absurd hc List.not_mem_nil, fun c hc => absurd hc List.not_mem_nil,
        fun c hc => absurd hc List.not_mem_nil⟩
  | reset | downgraded | closing =>
      exact .settles (settles_of_links p _ rfl rfl (fun _ => .inl rfl) fun _ => rfl)

/-- A channel in service was in service before. -/
theorem state_of_settles (p p' : Pump) (hsettles : p.Settles p') (c : UInt64)
    (hc : c ∈ p'.connections) (state : ChannelState)
    (hservice : state = .initializing ∨ state = .active) (hstate : (p'.links c).state = state) :
    (p.links c).state = state := by
  rcases hsettles.state c hc with hsame | ⟨d, hdown⟩
  · exact hsame.symm.trans hstate
  · rw [hstate] at hdown
    rcases hservice with rfl | rfl
    · cases d <;> exact absurd hdown (by simp [Down.state])
    · cases d <;> exact absurd hdown (by simp [Down.state])

/-- A channel that became active is past its null pointer. -/
theorem fresh_update (p p' : Pump) (c : UInt64) (link : Link) (hactive : link.state = .active)
    (hlinks : p'.links = Function.update p.links c link)
    (hconnections : p'.connections = p.connections) (hp : p.Fresh) : p'.Fresh := by
  intro k hk hstate
  rw [hlinks] at hstate ⊢
  by_cases hself : k = c
  · rw [hself, Function.update_self, hactive] at hstate
    exact absurd hstate (by simp)
  · rw [Function.update_of_ne hself] at hstate ⊢
    exact hp k (hconnections ▸ hk) hstate

/-- Whatever is thrown, channels before their sessions keep null pointers. -/
theorem fresh_exec (p : Pump) (op : Op) (h : Handled) (hp : p.Fresh)
    (hrun : p.exec op = some h) : h.pump.Fresh := by
  cases course_exec p op h hrun with
  | settles hsettles =>
      intro c hc hstate
      rw [hsettles.pointer c hc]
      exact hp c (hsettles.connections.subset hc)
        (state_of_settles p _ hsettles c hc _ (.inl rfl) hstate)
  | accepted a hop hlinks hconnections hsessions =>
      intro c hc hstate
      rw [hlinks] at hstate ⊢
      by_cases hnew : c = a.handle
      · rw [hnew, Function.update_self]
      · rw [Function.update_of_ne hnew] at hstate ⊢
        rw [hconnections] at hc
        rcases List.mem_append.mp hc with hold | hself
        · exact hp c hold hstate
        · exact absurd (List.mem_singleton.mp hself) hnew
  | threw c link hswallows hactive hlinks hconnections hsessions =>
      exact fresh_update p _ c link hactive hlinks hconnections hp
  | opened c link address hmem hbefore hactive hptr hfresh hlinks hconnections hsessions =>
      exact fresh_update p _ c link hactive hlinks hconnections hp

/-- The pointers of the connections are those of the clients stored for them. -/
structure Booked (p : Pump) : Prop where
  unique : p.connections.Nodup
  addresses : (p.sessions.map Prod.snd).Nodup
  pointer : ∀ c ∈ p.connections, ∀ address,
    (p.links c).userSpecPtr = some address ↔ (c, address) ∈ p.sessions

/-- An active connection with a null pointer. -/
structure Orphan (p : Pump) (c : UInt64) : Prop where
  connected : c ∈ p.connections
  state : (p.links c).state = .active
  null : (p.links c).userSpecPtr = none

theorem booked_of_settles (p p' : Pump) (hsettles : p.Settles p') (hp : p.Booked) :
    p'.Booked where
  unique := hsettles.connections.nodup hp.unique
  addresses := (hsettles.sessions.map Prod.snd).nodup hp.addresses
  pointer c hc address := by
    rw [hsettles.pointer c hc, hp.pointer c (hsettles.connections.subset hc) address]
    constructor
    · exact hsettles.stored hp.unique c hc address
    · exact fun hmem => hsettles.sessions.subset hmem

/-- A session for a channel that had a null pointer. -/
theorem booked_open (p p' : Pump) (c : UInt64) (address : Nat) (hc : c ∈ p.connections)
    (hnull : (p.links c).userSpecPtr = none) (hfresh : address ∉ p.sessions.map Prod.snd)
    (hptr : (p'.links c).userSpecPtr = some address)
    (hlinks : ∀ k, k ≠ c → p'.links k = p.links k) (hconnections : p'.connections = p.connections)
    (hsessions : p'.sessions = p.sessions ++ [(c, address)]) (hp : p.Booked) : p'.Booked where
  unique := by
    rw [hconnections]
    exact hp.unique
  addresses := by
    rw [hsessions, ← List.concat_eq_append, List.map_concat]
    exact hp.addresses.concat hfresh
  pointer k hk address' := by
    rw [hconnections] at hk
    rw [hsessions, List.mem_append, List.mem_singleton, Prod.mk.injEq]
    by_cases hself : k = c
    · subst hself
      have hnone : (k, address') ∉ p.sessions := fun hmem => by
        have hsome := (hp.pointer k hk address').mpr hmem
        exact absurd (hnull.symm.trans hsome) (by simp)
      rw [hptr, Option.some.injEq]
      constructor
      · exact fun heq => .inr ⟨rfl, heq.symm⟩
      · rintro (hold | ⟨-, rfl⟩)
        · exact absurd hold hnone
        · rfl
    · rw [hlinks k hself, hp.pointer k hk address']
      constructor
      · exact .inl
      · rintro (hold | ⟨heq, -⟩)
        · exact hold
        · exact absurd heq hself

/-- A connection that is new has a null pointer and no client. -/
theorem booked_accept (p p' : Pump) (a : Accepted) (hnew : a.handle ∉ p.connections)
    (hcoherent : p.Coherent)
    (hlinks : p'.links = Function.update p.links a.handle ⟨.initializing, 0, none⟩)
    (hconnections : p'.connections = p.connections ++ [a.handle])
    (hsessions : p'.sessions = p.sessions) (hp : p.Booked) : p'.Booked where
  unique := by
    rw [hconnections, ← List.concat_eq_append]
    exact hp.unique.concat hnew
  addresses := by
    rw [hsessions]
    exact hp.addresses
  pointer k hk address := by
    rw [hconnections] at hk
    rw [hlinks, hsessions]
    by_cases hself : k = a.handle
    · subst hself
      have hnone : (a.handle, address) ∉ p.sessions := fun hmem =>
        hnew (hcoherent.connected _ (List.mem_map_of_mem (f := Prod.fst) hmem))
      rw [Function.update_self]
      exact iff_of_false (by simp) hnone
    · rw [Function.update_of_ne hself]
      rcases List.mem_append.mp hk with hold | hlast
      · exact hp.pointer k hold address
      · exact absurd (List.mem_singleton.mp hlast) hself

/-- Exceptions that come early publish no pointer. -/
theorem booked_exec (p : Pump) (op : Op) (h : Handled) (hcoherent : p.Coherent) (hfresh : p.Fresh)
    (hnew : p.AcceptsNew op) (hearly : ∀ c ∈ p.swallows op, op.throwsEarly = true)
    (hrun : p.exec op = some h) (hp : p.Booked) : h.pump.Booked := by
  cases course_exec p op h hrun with
  | settles hsettles => exact booked_of_settles p _ hsettles hp
  | accepted a hop hlinks hconnections hsessions =>
      exact booked_accept p _ a (hnew a hop) hcoherent hlinks hconnections hsessions hp
  | threw c link hswallows hactive hlinks hconnections hsessions =>
      -- the pointer is null before and after
      obtain ⟨i, _, _, _, _, _, -, hreading, hstate, -, -⟩ := swallows_eq_some p op c hswallows
      have hnull := hfresh c (List.mem_of_getElem? hreading.position) hstate
      have hleft := leftBehind_of_swallows p op h c hfresh hrun hswallows
      refine ⟨hconnections ▸ hp.unique, hsessions ▸ hp.addresses, fun k hk address => ?_⟩
      rw [hconnections] at hk
      rw [hsessions, ← hp.pointer k hk address]
      by_cases hself : k = c
      · subst hself
        rcases hleft.pointer with ⟨-, hnone⟩ | ⟨hlate, -⟩
        · rw [hnone, hnull]
        · exact absurd ((hearly k hswallows).symm.trans hlate) (by simp)
      · rw [hlinks, Function.update_of_ne hself]
  | opened c link address hmem hbefore hactive hptr hunused hlinks hconnections hsessions =>
      have hnull := hfresh c hmem hbefore
      have hkey : c ∉ p.keys := by
        intro hkey
        obtain ⟨⟨k, address'⟩, hentry, rfl⟩ := List.mem_map.mp hkey
        have hsome := (hp.pointer k hmem address').mpr hentry
        exact absurd (hnull.symm.trans hsome) (by simp)
      rw [if_neg hkey] at hsessions
      refine booked_open p _ c address hmem hnull hunused ?_ (fun k hk => ?_) hconnections
        hsessions hp
      · rw [hlinks, Function.update_self, hptr]
      · rw [hlinks, Function.update_of_ne hk]

/-- A channel without client is one from before, or was just left behind. -/
theorem orphan_exec (p : Pump) (op : Op) (h : Handled) (c : UInt64)
    (hrun : p.exec op = some h) (hc : h.pump.Orphan c) :
    p.Orphan c ∨ p.swallows op = some c := by
  obtain ⟨hmem, hstate, hnull⟩ := hc
  cases course_exec p op h hrun with
  | settles hsettles =>
      exact .inl ⟨hsettles.connections.subset hmem,
        state_of_settles p _ hsettles c hmem _ (.inr rfl) hstate,
        (hsettles.pointer c hmem).symm.trans hnull⟩
  | accepted a hop hlinks hconnections hsessions =>
      rw [hlinks] at hstate hnull
      by_cases hnew : c = a.handle
      · rw [hnew, Function.update_self] at hstate
        exact absurd hstate (by simp)
      · rw [Function.update_of_ne hnew] at hstate hnull
        rw [hconnections] at hmem
        rcases List.mem_append.mp hmem with hold | hself
        · exact .inl ⟨hold, hstate, hnull⟩
        · exact absurd (List.mem_singleton.mp hself) hnew
  | threw k link hswallows hactive hlinks hconnections hsessions =>
      by_cases hk : c = k
      · exact .inr (hk ▸ hswallows)
      · rw [hlinks, Function.update_of_ne hk] at hstate hnull
        exact .inl ⟨hconnections ▸ hmem, hstate, hnull⟩
  | opened k link address hk' hbefore hactive hptr hfresh hlinks hconnections hsessions =>
      rw [hlinks] at hstate hnull
      by_cases hk : c = k
      · rw [hk, Function.update_self, hptr] at hnull
        exact absurd hnull (by simp)
      · rw [Function.update_of_ne hk] at hstate hnull
        exact .inl ⟨hconnections ▸ hmem, hstate, hnull⟩

/-- A channel past its acceptance with a null pointer. -/
structure Unserved (p : Pump) (c : UInt64) : Prop where
  null : (p.links c).userSpecPtr = none
  accepted : (p.links c).state ≠ .initializing

/-- Thrown early, the exception leaves such a channel. -/
theorem unserved_of_leftBehind (p p' : Pump) (op : Op) (c : UInt64) (h : p.LeftBehind op c p')
    (hearly : op.throwsEarly = true) : p'.Unserved c where
  null := by
    rcases h.pointer with ⟨-, hnull⟩ | ⟨hlate, -⟩
    · exact hnull
    · exact absurd (hearly.symm.trans hlate) (by simp)
  accepted := by
    rw [h.state]
    exact ChannelState.noConfusion

/-- It never gets a client. -/
theorem unserved_exec (p : Pump) (op : Op) (h : Handled) (c : UInt64) (hnew : p.AcceptsNew op)
    (hrun : p.exec op = some h) (hc : c ∈ p.connections) (hstays : c ∈ h.pump.connections)
    (hunserved : p.Unserved c) : h.pump.Unserved c := by
  obtain ⟨hnull, haccepted⟩ := hunserved
  have hkept : ∀ (k : UInt64) (link : Link), k ≠ c →
      h.pump.links = Function.update p.links k link → h.pump.Unserved c := by
    intro k link hk hlinks
    have hsame : h.pump.links c = p.links c := by
      rw [hlinks, Function.update_of_ne hk.symm]
    exact ⟨hsame ▸ hnull, hsame ▸ haccepted⟩
  cases course_exec p op h hrun with
  | settles hsettles =>
      refine ⟨(hsettles.pointer c hstays).trans hnull, fun hstate => haccepted ?_⟩
      exact state_of_settles p _ hsettles c hstays _ (.inl rfl) hstate
  | accepted a hop hlinks hconnections hsessions =>
      refine hkept a.handle _ ?_ hlinks
      rintro rfl
      exact hnew a hop hc
  | threw k link hswallows hactive hlinks hconnections hsessions =>
      refine hkept k link ?_ hlinks
      rintro rfl
      obtain ⟨_, _, _, _, _, _, -, -, hbefore, -⟩ := swallows_eq_some p op k hswallows
      exact haccepted hbefore
  | opened k link address hmem hbefore hactive hptr hfresh hlinks hconnections hsessions =>
      refine hkept k link ?_ hlinks
      rintro rfl
      exact haccepted hbefore

/-- Pointers that are booked are backed. -/
theorem backed_of_booked (p : Pump) (hcoherent : p.Coherent) (hp : p.Booked) (c : UInt64)
    (hc : c ∈ p.connections) : p.Backed c := by
  cases hptr : (p.links c).userSpecPtr with
  | none => exact .inl hptr
  | some address =>
      have hmem := (hp.pointer c hc address).mp hptr
      have hkey : c ∈ p.keys := List.mem_map_of_mem (f := Prod.fst) hmem
      obtain ⟨client, hclient⟩ := Option.isSome_iff_exists.mp ((hcoherent.hasClient c).mpr hkey)
      exact .inr ⟨address, client, hptr, hmem, hclient,
        pointee_of_mem p c address hp.addresses hptr hmem⟩

end Pump

end Hitsuji
