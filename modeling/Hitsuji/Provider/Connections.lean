import Hitsuji.Provider.Change

set_option autoImplicit false

/-! # Connection bookkeeping

The list, the map and the back pointers are updated separately, but in step: a client is stored only
under a connection, a connection that becomes active gets a client that its back pointer points to,
and both go together. -/

namespace Hitsuji

open ByteBuffer Transition

namespace Pump

/-! ## Keys are connections -/

/-- The map is a map, and its keys are connections. -/
structure Coherent (p : Pump) : Prop where
  hasClient : ∀ c, (p.clients c).isSome = true ↔ c ∈ p.keys
  nodup : p.keys.Nodup
  connected : ∀ c ∈ p.keys, c ∈ p.connections

theorem coherent_of_books (p p' : Pump) (hbooks : p'.books = p.books) (hp : p.Coherent) :
    p'.Coherent where
  hasClient c := by
    rw [hasClient_of_books hbooks, keys_of_books hbooks]
    exact hp.hasClient c
  nodup := by
    rw [keys_of_books hbooks]
    exact hp.nodup
  connected c hc := by
    rw [keys_of_books hbooks] at hc
    rw [connections_of_books hbooks]
    exact hp.connected c hc

/-- Coherence looks at the connections, the sessions and the clients only. -/
theorem coherent_congr (p p' : Pump) (hconnections : p'.connections = p.connections)
    (hsessions : p'.sessions = p.sessions) (hclients : p'.clients = p.clients)
    (hp : p.Coherent) : p'.Coherent where
  hasClient c := by
    rw [hclients, keys, hsessions]
    exact hp.hasClient c
  nodup := by
    rw [keys, hsessions]
    exact hp.nodup
  connected c hc := by
    rw [keys, hsessions] at hc
    rw [hconnections]
    exact hp.connected c hc

theorem leave_eq (p : Pump) (c : UInt64) (left : Option Down) :
    p.leave c left = { p with links := (p.leave c left).links } := by
  cases left <;> rfl

/-- Closing every connection touches the channels only. -/
theorem closeConnections_eq (left : UInt64 → Down) (cs : List UInt64) (p : Pump) :
    (closeConnections left cs p).pump
      = { p with links := (closeConnections left cs p).pump.links } := by
  induction cs generalizing p with
  | nil => rfl
  | cons c rest ih =>
      rw [closeConnections, ih]
      rfl

theorem closeConnections_calls (left : UInt64 → Down) (cs : List UInt64) (p : Pump) :
    (closeConnections left cs p).calls = cs.map .closeChannel := by
  induction cs generalizing p with
  | nil => rfl
  | cons c rest ih => rw [closeConnections, List.map_cons, ih]

theorem disconnect_eq (p : Pump) (i : Nat) (c : UInt64) (left : Down) :
    (p.disconnect i c left).pump
      = { p.remove i c with links := (p.disconnect i c left).pump.links } := by
  unfold disconnect
  split <;> rfl

/-- A connection other than the one removed stays. -/
theorem mem_eraseIdx_of_ne (p : Pump) (i : Nat) (c k : UInt64) (hc : p.connections[i]? = some c)
    (hne : k ≠ c) (hk : k ∈ p.connections) : k ∈ p.connections.eraseIdx i := by
  obtain ⟨j, hj⟩ := List.mem_iff_getElem?.mp hk
  refine List.mem_eraseIdx_iff_getElem?.mpr ⟨j, ?_, hj⟩
  rintro rfl
  exact hne (Option.some.inj (hj.symm.trans hc))

theorem keys_remove (p : Pump) (i : Nat) (c k : UInt64) :
    k ∈ (p.remove i c).keys ↔ k ∈ p.keys ∧ k ≠ c := by
  simp only [keys, remove, unwatch, List.mem_map, List.mem_filter, decide_eq_true_eq]
  constructor
  · rintro ⟨entry, ⟨hmem, hne⟩, rfl⟩
    exact ⟨⟨entry, hmem, rfl⟩, hne⟩
  · rintro ⟨⟨entry, hmem, rfl⟩, hne⟩
    exact ⟨entry, ⟨hmem, hne⟩, rfl⟩

theorem coherent_remove (p : Pump) (i : Nat) (c : UInt64) (hc : p.connections[i]? = some c)
    (hp : p.Coherent) : (p.remove i c).Coherent where
  hasClient k := by
    rw [keys_remove]
    by_cases hk : k = c
    · subst hk
      simp [remove, unwatch, Provider.disconnect]
    · have hclients : (p.remove i c).clients k = p.clients k := by
        simp only [remove, unwatch, Provider.disconnect, Function.update_of_ne hk]
      rw [hclients, hp.hasClient k]
      exact (and_iff_left hk).symm
  nodup := (List.Sublist.map Prod.fst List.filter_sublist).nodup hp.nodup
  connected k hk := by
    obtain ⟨hmem, hne⟩ := (keys_remove p i c k).mp hk
    exact mem_eraseIdx_of_ne p i c k hc hne (hp.connected k hmem)

theorem keys_acceptClientSession (p : Pump) (c : UInt64) (address : Nat)
    (directoryToken : Int32) :
    (p.acceptClientSession c address directoryToken).keys
      = if c ∈ p.keys then p.keys else p.keys ++ [c] := by
  have hsessions : (p.acceptClientSession c address directoryToken).sessions
      = if c ∈ p.keys then p.sessions else p.sessions ++ [(c, address)] := rfl
  rw [keys, hsessions]
  split
  · rfl
  · rw [List.map_append]
    rfl

theorem mem_keys_acceptClientSession (p : Pump) (c : UInt64) (address : Nat)
    (directoryToken : Int32) (k : UInt64) :
    k ∈ (p.acceptClientSession c address directoryToken).keys ↔ k ∈ p.keys ∨ k = c := by
  rw [keys_acceptClientSession]
  split
  · next hc =>
      constructor
      · exact .inl
      · rintro (hk | rfl)
        · exact hk
        · exact hc
  · rw [List.mem_append, List.mem_singleton]

theorem coherent_acceptClientSession (p : Pump) (c : UInt64) (address : Nat)
    (directoryToken : Int32) (hc : c ∈ p.connections) (hp : p.Coherent) :
    (p.acceptClientSession c address directoryToken).Coherent where
  hasClient k := by
    rw [mem_keys_acceptClientSession, ← hp.hasClient k]
    by_cases hk : k = c
    · subst hk
      simp [acceptClientSession, Provider.acceptClientSession]
    · simp [acceptClientSession, Provider.acceptClientSession, hk]
  nodup := by
    rw [keys_acceptClientSession]
    split
    · exact hp.nodup
    · next hkey =>
        rw [← List.concat_eq_append]
        exact hp.nodup.concat hkey
  connected k hk := by
    rcases (mem_keys_acceptClientSession p c address directoryToken k).mp hk with hold | rfl
    · exact hp.connected k hold
    · exact hc

/-- **Whatever a step does, keys are connections.** -/
theorem coherent_exec (p : Pump) (op : Op) (h : Handled) (hp : p.Coherent)
    (hrun : p.exec op = some h) : h.pump.Coherent := by
  cases exec_cases p op h hrun with
  | serves _ _ hserves => exact coherent_of_books p _ hserves.books hp
  | accepted a listening hsock hready haccepting hroom =>
      exact ⟨hp.hasClient, hp.nodup, fun c hc => List.mem_append_left _ (hp.connected c hc)⟩
  | opened i c majorVersion minorVersion pingTimeout address directoryToken emplaced left q hreading
      hstate haccept hfresh hq =>
      have hcoherent : q.Coherent := by
        rw [hq]
        exact coherent_congr p _ rfl rfl rfl hp
      have hc : c ∈ q.connections := by
        rw [hq]
        exact List.mem_of_getElem? hreading.position
      split
      · exact coherent_congr (q.acceptClientSession c address directoryToken) _ rfl rfl rfl
          (coherent_acceptClientSession q c address directoryToken hc hcoherent)
      · exact coherent_congr q _ rfl rfl rfl hcoherent
  | flushed i c left p' hc hready hflushes => exact coherent_of_books p p' hflushes.books hp
  | disconnected i c left hc hefds =>
      rw [disconnect_eq]
      exact coherent_congr (p.remove i c) _ rfl rfl rfl (coherent_remove p i c hc hp)
  | notified c env left leftByFlush loop h' p' hclient hserves hflushed hflushes =>
      exact coherent_of_books p p' (hflushes.books.trans hserves.books) hp
  | tornDown left =>
      simp only [teardown]
      rw [closeConnections_eq]
      exact ⟨fun c => ⟨fun hc => absurd hc (by simp), fun hc => absurd hc List.not_mem_nil⟩,
        List.nodup_nil, fun c hc => absurd hc List.not_mem_nil⟩
  | reconnected i c newSocket left hreading hstate =>
      rw [leave_eq]
      exact coherent_congr p _ rfl rfl rfl hp
  | fellThrough i c ret left hreading hstate =>
      rw [leave_eq]
      exact coherent_congr p _ rfl rfl rfl hp
  | reset | downgraded | rejected | threw | closing => exact coherent_congr p _ rfl rfl rfl hp

/-! ## Active connections have a client -/

/-- A channel is out of service, or as it was. -/
def LinkKept (l l' : Link) : Prop :=
  (∃ d : Down, l'.state = d.state) ∨ l'.state = l.state ∧ l'.userSpecPtr = l.userSpecPtr

/-- A channel before its session has no client, an active one has that of its back pointer. -/
structure Linked (p : Pump) : Prop where
  addresses : (p.sessions.map Prod.snd).Nodup
  initializing : ∀ c ∈ p.connections, (p.links c).state = .initializing → c ∉ p.keys
  active : ∀ c ∈ p.connections, (p.links c).state = .active →
    ∃ address, (p.links c).userSpecPtr = some address ∧ (c, address) ∈ p.sessions

/-- A channel in service was in service before. -/
theorem linkKept_state (l l' : Link) (h : LinkKept l l')
    (hservice : l'.state = .initializing ∨ l'.state = .active) :
    l'.state = l.state ∧ l'.userSpecPtr = l.userSpecPtr := by
  rcases h with ⟨d, hd⟩ | hsame
  · rw [hd] at hservice
    cases d <;> simp [Down.state] at hservice
  · exact hsame

theorem linkKept_of_books (p p' : Pump) (hbooks : p'.books = p.books) (hstate : StateKept p p')
    (k : UInt64) : LinkKept (p.links k) (p'.links k) := by
  rcases hstate k with hsame | hdown
  · exact .inr ⟨hsame, userSpecPtr_of_books hbooks k⟩
  · exact .inl hdown

/-- Links survive whatever takes connections away or out of service. -/
theorem linked_congr (p p' : Pump) (hconnections : ∀ c ∈ p'.connections, c ∈ p.connections)
    (hsessions : p'.sessions = p.sessions)
    (hlinks : ∀ c ∈ p'.connections, LinkKept (p.links c) (p'.links c)) (hp : p.Linked) :
    p'.Linked where
  addresses := by
    rw [hsessions]
    exact hp.addresses
  initializing c hc hstate := by
    have hkept := linkKept_state _ _ (hlinks c hc) (.inl hstate)
    rw [keys, hsessions]
    exact hp.initializing c (hconnections c hc) (hkept.1.symm.trans hstate)
  active c hc hstate := by
    have hkept := linkKept_state _ _ (hlinks c hc) (.inr hstate)
    rw [hsessions, hkept.2]
    exact hp.active c (hconnections c hc) (hkept.1.symm.trans hstate)

theorem linked_of_books (p p' : Pump) (hbooks : p'.books = p.books) (hstate : StateKept p p')
    (hp : p.Linked) : p'.Linked := by
  refine linked_congr p p' ?_ (sessions_of_books hbooks) ?_ hp
  · rw [connections_of_books hbooks]
    exact fun c hc => hc
  · exact fun c _ => linkKept_of_books p p' hbooks hstate c

/-- The list and the links together. -/
structure WellKept (p : Pump) : Prop extends Linked p where
  unique : p.connections.Nodup
  bounded : p.connections.length ≤ p.sessionCapacity

theorem wellKept_congr (p p' : Pump) (hconnections : p'.connections = p.connections)
    (hcapacity : p'.sessionCapacity = p.sessionCapacity) (hlinked : p'.Linked) (hp : p.WellKept) :
    p'.WellKept where
  toLinked := hlinked
  unique := by
    rw [hconnections]
    exact hp.unique
  bounded := by
    rw [hconnections, hcapacity]
    exact hp.bounded

theorem wellKept_of_books (p p' : Pump) (hbooks : p'.books = p.books) (hstate : StateKept p p')
    (hp : p.WellKept) : p'.WellKept :=
  wellKept_congr p p' (connections_of_books hbooks) (capacity_of_books hbooks)
    (linked_of_books p p' hbooks hstate hp.toLinked) hp

/-- A change of the links that keeps connections and sessions. -/
theorem wellKept_of_links (p p' : Pump) (hconnections : p'.connections = p.connections)
    (hsessions : p'.sessions = p.sessions) (hcapacity : p'.sessionCapacity = p.sessionCapacity)
    (hlinks : ∀ c, LinkKept (p.links c) (p'.links c)) (hp : p.WellKept) : p'.WellKept := by
  refine wellKept_congr p p' hconnections hcapacity ?_ hp
  refine linked_congr p p' ?_ hsessions (fun c _ => hlinks c) hp.toLinked
  rw [hconnections]
  exact fun c hc => hc

/-! ### The changes -/

/-- A new connection, of a channel that is not one already. -/
theorem wellKept_accept (p : Pump) (a : Accepted) (hnew : a.handle ∉ p.connections)
    (hroom : p.connections.length ≠ p.sessionCapacity) (hcoherent : p.Coherent)
    (hp : p.WellKept) : (p.acceptConnection (some a)).pump.WellKept := by
  have hold : ∀ c ∈ p.connections,
      (p.acceptConnection (some a)).pump.links c = p.links c := by
    intro c hc
    have hne : c ≠ a.handle := fun h => hnew (h ▸ hc)
    simp only [acceptConnection, watch, setLink, setChannel, Function.update_of_ne hne]
  have hlink : (p.acceptConnection (some a)).pump.links a.handle = ⟨.initializing, 0, none⟩ := by
    simp only [acceptConnection, watch, setLink, setChannel, Function.update_self]
  refine ⟨⟨hp.addresses, fun c hc hstate => ?_, fun c hc hstate => ?_⟩, ?_, ?_⟩
  · rcases List.mem_append.mp hc with hmem | hmem
    · rw [hold c hmem] at hstate
      exact hp.initializing c hmem hstate
    · obtain rfl := List.mem_singleton.mp hmem
      exact fun hkey => hnew (hcoherent.connected _ hkey)
  · rcases List.mem_append.mp hc with hmem | hmem
    · rw [hold c hmem] at hstate ⊢
      exact hp.active c hmem hstate
    · obtain rfl := List.mem_singleton.mp hmem
      rw [hlink] at hstate
      exact absurd hstate (by simp)
  · change (p.connections ++ [a.handle]).Nodup
    rw [← List.concat_eq_append]
    exact hp.unique.concat hnew
  · have hbounded := hp.bounded
    change (p.connections ++ [a.handle]).length ≤ p.sessionCapacity
    rw [List.length_append, List.length_singleton]
    omega

/-- A session for a connection that had none. -/
theorem wellKept_open (p : Pump) (c : UInt64) (address : Nat) (directoryToken : Int32)
    (hfresh : address ∉ p.sessions.map Prod.snd) (hkey : c ∉ p.keys)
    (hlink : (p.links c).userSpecPtr = some address ∧ (p.links c).state = .active)
    (hothers : ∀ k ∈ p.connections, k ≠ c → (p.links k).state = .initializing → k ∉ p.keys)
    (hactive : ∀ k ∈ p.connections, k ≠ c → (p.links k).state = .active →
      ∃ address, (p.links k).userSpecPtr = some address ∧ (k, address) ∈ p.sessions)
    (haddresses : (p.sessions.map Prod.snd).Nodup) :
    (p.acceptClientSession c address directoryToken).Linked := by
  have hsessions : (p.acceptClientSession c address directoryToken).sessions
      = p.sessions ++ [(c, address)] := if_neg hkey
  refine ⟨?_, fun k hk hstate => ?_, fun k hk hstate => ?_⟩
  · rw [hsessions, ← List.concat_eq_append, List.map_concat]
    exact haddresses.concat hfresh
  · have hne : k ≠ c := by
      rintro rfl
      exact absurd (hlink.2.symm.trans hstate) (by simp)
    rw [mem_keys_acceptClientSession]
    rintro (hold | hnew)
    · exact hothers k hk hne hstate hold
    · exact hne hnew
  · rw [hsessions]
    by_cases hc : k = c
    · subst hc
      exact ⟨address, hlink.1, List.mem_append_right _ (List.mem_singleton_self _)⟩
    · obtain ⟨address', hptr, hmem⟩ := hactive k hk hc hstate
      exact ⟨address', hptr, List.mem_append_left _ hmem⟩

/-- Among different channels, only the one removed goes. -/
theorem mem_of_eraseIdx (p : Pump) (i : Nat) (c k : UInt64) (hc : p.connections[i]? = some c)
    (hunique : p.connections.Nodup) (hk : k ∈ p.connections.eraseIdx i) :
    k ∈ p.connections ∧ k ≠ c := by
  obtain ⟨j, hj, hget⟩ := List.mem_eraseIdx_iff_getElem?.mp hk
  refine ⟨List.mem_of_getElem? hget, ?_⟩
  rintro rfl
  obtain ⟨hlt, -⟩ := List.getElem?_eq_some_iff.mp hget
  exact hj ((List.getElem?_inj hlt hunique).mp (hget.trans hc.symm))

/-- A connection removed with its client. -/
theorem wellKept_disconnect (p : Pump) (i : Nat) (c : UInt64) (left : Down)
    (hc : p.connections[i]? = some c) (hp : p.WellKept) :
    (p.disconnect i c left).pump.WellKept := by
  have hother : ∀ k ∈ p.connections.eraseIdx i, k ∈ p.connections ∧ k ≠ c := fun k hk =>
    mem_of_eraseIdx p i c k hc hp.unique hk
  have hlinks : ∀ k, k ≠ c → (p.disconnect i c left).pump.links k = p.links k := by
    intro k hk
    unfold disconnect
    split
    · rfl
    · simp only [closeChannel, leave, setLink, Function.update_of_ne hk]
      rfl
  rw [disconnect_eq]
  refine ⟨⟨?_, fun k hk hstate => ?_, fun k hk hstate => ?_⟩, ?_, ?_⟩
  · exact (List.Sublist.map Prod.snd List.filter_sublist).nodup hp.addresses
  · obtain ⟨hmem, hne⟩ := hother k hk
    simp only [hlinks k hne] at hstate
    exact fun hkey => hp.initializing k hmem hstate ((keys_remove p i c k).mp hkey).1
  · obtain ⟨hmem, hne⟩ := hother k hk
    simp only [hlinks k hne] at hstate ⊢
    obtain ⟨address, hptr, hsession⟩ := hp.active k hmem hstate
    exact ⟨address, hptr, List.mem_filter.mpr ⟨hsession, decide_eq_true hne⟩⟩
  · exact (List.eraseIdx_sublist p.connections i).nodup hp.unique
  · exact Nat.le_trans (List.eraseIdx_sublist p.connections i).length_le hp.bounded

/-! ### Every step -/

end Pump

/-- An exception is thrown. -/
def Op.throws : Op → Bool
  | .throw => true
  | .read _ (.initChannel (.success _ _ _) .thrown _) => true
  | .read _ (.initChannel (.success _ _ _) (.initialized _ _ emplaced) _) => !emplaced
  | _ => false

namespace Pump

/-- `rsslAccept` returns no channel that is a connection. -/
def AcceptsNew (p : Pump) (op : Op) : Prop :=
  ∀ a ∈ op.accepted, a.handle ∉ p.connections

instance (p : Pump) (op : Op) : Decidable (p.AcceptsNew op) :=
  inferInstanceAs (Decidable (∀ a ∈ op.accepted, a.handle ∉ p.connections))

/-- **Without exceptions, the books stay well kept.** -/
theorem wellKept_exec (p : Pump) (op : Op) (h : Handled) (hcoherent : p.Coherent)
    (hp : p.WellKept) (hno : op.throws = false) (hnew : p.AcceptsNew op)
    (hrun : p.exec op = some h) : h.pump.WellKept := by
  cases exec_cases p op h hrun with
  | serves _ _ hserves => exact wellKept_of_books p _ hserves.books hserves.state hp
  | accepted a listening hsock hready haccepting hroom =>
      exact wellKept_accept (p.clearRead listening) a (hnew a rfl) hroom
        (coherent_congr p _ rfl rfl rfl hcoherent)
        (wellKept_of_links p _ rfl rfl rfl (fun _ => .inr ⟨rfl, rfl⟩) hp)
  | rejected i c majorVersion minorVersion pingTimeout session left hreading hstate hreject =>
      refine wellKept_of_links p _ rfl rfl rfl (fun k => ?_) hp
      by_cases hk : k = c
      · subst hk
        exact .inl ⟨left, by simp [watch, leave, setLink]⟩
      · exact .inr (by simp [watch, leave, setLink, activate, setChannel, clearRead, hk])
  | threw => exact absurd hno (by simp [Op.throws])
  | opened i c majorVersion minorVersion pingTimeout address directoryToken emplaced left q hreading
      hstate haccept hfresh hq =>
      have hemplaced : emplaced = true := by simpa [Op.throws] using hno
      subst hemplaced
      have hmem := List.mem_of_getElem? hreading.position
      have hother : ∀ k, k ≠ c → q.links k = p.links k := by
        intro k hk
        rw [hq]
        simp [setLink, activate, setChannel, clearRead, hk]
      have hopen : (q.acceptClientSession c address directoryToken).Linked := by
        refine wellKept_open q c address directoryToken ?_ ?_ ?_ ?_ ?_ ?_
        · rw [hq]
          exact hfresh
        · rw [hq]
          exact hp.initializing c hmem hstate
        · rw [hq]
          simp [setLink]
        · intro k hk hne hstate'
          rw [hother k hne] at hstate'
          rw [hq] at hk ⊢
          exact hp.initializing k hk hstate'
        · intro k hk hne hstate'
          rw [hother k hne] at hstate' ⊢
          rw [hq] at hk ⊢
          exact hp.active k hk hstate'
        · rw [hq]
          exact hp.addresses
      refine wellKept_congr p _ ?_ ?_ ?_ hp
      · rw [hq]
        rfl
      · rw [hq]
        rfl
      · exact linked_congr (q.acceptClientSession c address directoryToken) _ (fun _ hk => hk) rfl
          (fun _ _ => .inr ⟨rfl, rfl⟩) hopen
  | reconnected i c newSocket left hreading hstate =>
      have hleave := wellKept_of_books p _ (books_leave (p.clearRead (p.socketId c)) c left)
        (serves_leave (p.clearRead (p.socketId c)) c left).state hp
      refine wellKept_of_links ((p.clearRead (p.socketId c)).leave c left) _ rfl rfl rfl
        (fun k => .inr ?_) hleave
      by_cases hk : k = c
      · subst hk
        simp [onFdChange, watch, unwatch, reconnect, setLink, setChannel]
      · simp [onFdChange, watch, unwatch, reconnect, setLink, setChannel, hk]
  | fellThrough i c ret left hreading hstate =>
      have hleave := wellKept_of_books p _ (books_leave (p.clearRead (p.socketId c)) c left)
        (serves_leave (p.clearRead (p.socketId c)) c left).state hp
      exact wellKept_of_links ((p.clearRead (p.socketId c)).leave c left) _ rfl rfl rfl
        (fun _ => .inr ⟨rfl, rfl⟩) hleave
  | flushed i c left p' hc hready hflushes =>
      exact wellKept_of_books p p' hflushes.books hflushes.state hp
  | disconnected i c left hc hefds => exact wellKept_disconnect p i c left hc hp
  | notified c env left leftByFlush loop h' p' hclient hserves hflushed hflushes =>
      exact wellKept_of_books p p' (hflushes.books.trans hserves.books)
        (stateKept_trans p h'.pump p' hserves.state hflushes.state) hp
  | tornDown left =>
      simp only [teardown]
      rw [closeConnections_eq]
      exact ⟨⟨List.nodup_nil, fun c hc => absurd hc List.not_mem_nil,
        fun c hc => absurd hc List.not_mem_nil⟩, List.nodup_nil, Nat.zero_le _⟩
  | reset | downgraded | closing =>
      exact wellKept_of_links p _ rfl rfl rfl (fun _ => .inr ⟨rfl, rfl⟩) hp

/-! ## Every run -/

/-- `userSpecPtr` is not null and points to the client stored under the channel. -/
def PointsToClient (p : Pump) (c : UInt64) : Prop :=
  ∃ address client, (p.links c).userSpecPtr = some address ∧ (c, address) ∈ p.sessions
    ∧ p.clients c = some client ∧ p.pointee c = some c

/-- What the provider's list, map and back pointers say together. -/
structure ConnectionsKept (p : Pump) : Prop where
  unique : p.connections.Nodup
  bounded : p.connections.length ≤ p.sessionCapacity
  connected : ∀ c, (p.clients c).isSome = true → c ∈ p.connections
  active : ∀ c ∈ p.connections, (p.links c).state = .active → p.PointsToClient c

/-- When a message is read from an active connection, `OnMsg` finds its client behind the pointer,
    whatever `rsslReadEx` did to the channel. -/
def DereferencesClient (p : Pump) (op : Op) : Prop :=
  ∀ i c ret left, op = .read i (.readEx ret left) → p.connections[i]? = some c →
    (p.links c).state = .active →
    ((p.clearRead (p.socketId c)).leave c left).PointsToClient c

/-- The client found at an address is the one that was stored there. -/
theorem pointee_of_mem (p : Pump) (c : UInt64) (address : Nat)
    (haddresses : (p.sessions.map Prod.snd).Nodup)
    (hptr : (p.links c).userSpecPtr = some address) (hmem : (c, address) ∈ p.sessions) :
    p.pointee c = some c := by
  simp only [pointee, hptr, Option.bind_some]
  cases hfind : p.sessions.find? fun entry => entry.2 == address with
  | none =>
      have hnone := List.find?_eq_none.mp hfind (c, address) hmem
      exact absurd hnone (by simp)
  | some entry =>
      have haddress : entry.2 = address := by simpa using List.find?_some hfind
      have hentry := List.mem_of_find?_eq_some hfind
      obtain rfl := List.inj_on_of_nodup_map haddresses hentry hmem haddress
      rfl

theorem connectionsKept_of_wellKept (p : Pump) (hcoherent : p.Coherent) (hp : p.WellKept) :
    p.ConnectionsKept where
  unique := hp.unique
  bounded := hp.bounded
  connected c hc := hcoherent.connected c ((hcoherent.hasClient c).mp hc)
  active c hc hstate := by
    obtain ⟨address, hptr, hmem⟩ := hp.active c hc hstate
    have hkey : c ∈ p.keys := List.mem_map_of_mem (f := Prod.fst) hmem
    obtain ⟨client, hclient⟩ := Option.isSome_iff_exists.mp ((hcoherent.hasClient c).mpr hkey)
    exact ⟨address, client, hptr, hmem, hclient, pointee_of_mem p c address hp.addresses hptr hmem⟩

/-- Whatever `rsslReadEx` does to a channel, its client stays behind the pointer. -/
theorem pointsToClient_leave (p : Pump) (c : UInt64) (left : Option Down)
    (hc : p.PointsToClient c) :
    ((p.clearRead (p.socketId c)).leave c left).PointsToClient c := by
  obtain ⟨address, client, hptr, hmem, hclient, hpointee⟩ := hc
  have hptr' := userSpecPtr_of_books (books_leave (p.clearRead (p.socketId c)) c left) c
  refine ⟨address, client, hptr'.trans hptr, ?_, ?_, ?_⟩
  · rw [leave_eq]
    exact hmem
  · rw [leave_eq]
    exact hclient
  · rw [pointee, hptr', leave_eq]
    exact hpointee

theorem dereferencesClient_of_kept (p : Pump) (op : Op) (hp : p.ConnectionsKept) :
    p.DereferencesClient op := by
  intro i c ret left _ hc hstate
  exact pointsToClient_leave p c left (hp.active c (List.mem_of_getElem? hc) hstate)

end Pump

/-! ## Runs -/

theorem coherent_step (m m' : Machine) (op : Op) (hm : m.pump.Coherent)
    (h : m.step op = some m') : m'.pump.Coherent := by
  obtain ⟨handled, pc, hexec, -, rfl⟩ := (step_eq_some m m' op).mp h
  exact Pump.coherent_exec m.pump op handled hm hexec

theorem coherent_init (m : Machine) (hm : m.init) : m.pump.Coherent := by
  obtain ⟨-, -, hsessions, hclients, -⟩ := hm
  have hkeys : m.pump.keys = [] := by rw [Pump.keys, hsessions, List.map_nil]
  refine ⟨fun c => ?_, ?_, ?_⟩
  · rw [hclients c, hkeys]
    simp
  · rw [hkeys]
    exact List.nodup_nil
  · rw [hkeys]
    exact fun c hc => absurd hc List.not_mem_nil

/-- **The connections are well kept in every run without exceptions**, if `rsslAccept` returns no
    channel that is a connection: no duplicates, no more than the capacity, every client under a
    connection, and behind every active connection its client, which `OnMsg` finds. -/
theorem connections_kept (m₀ : Machine) (p : Steps Machine Op) (hrun : pumpSystem.Run m₀ p)
    (hno : Along (fun _ op _ => op.throws = false) m₀ p)
    (hnew : Along (fun m op _ => m.pump.AcceptsNew op) m₀ p) :
    m₀.pump.ConnectionsKept
      ∧ Along (fun m op m' => m.pump.DereferencesClient op ∧ m'.pump.ConnectionsKept) m₀ p := by
  let kept : Machine → Prop := fun m => m.pump.Coherent ∧ m.pump.WellKept
  have hinit : kept m₀ := by
    obtain ⟨-, hconnections, hsessions, -⟩ := hrun.1
    have hempty : ∀ c, c ∉ m₀.pump.connections := by
      rw [hconnections]
      exact fun c => List.not_mem_nil
    refine ⟨coherent_init m₀ hrun.1, ⟨⟨?_, fun c hc => absurd hc (hempty c),
      fun c hc => absurd hc (hempty c)⟩, ?_, ?_⟩⟩
    · rw [hsessions]
      exact List.nodup_nil
    · rw [hconnections]
      exact List.nodup_nil
    · rw [hconnections]
      exact Nat.zero_le _
  have hstep : ∀ m op m', kept m →
      (m.step op = some m' ∧ op.throws = false) ∧ m.pump.AcceptsNew op → kept m' := by
    rintro m op m' ⟨hcoherent, hkept⟩ ⟨⟨hm, hthrow⟩, haccept⟩
    refine ⟨coherent_step m m' op hcoherent hm, ?_⟩
    obtain ⟨h, pc, hexec, -, rfl⟩ := (step_eq_some m m' op).mp hm
    exact Pump.wellKept_exec m.pump op h hcoherent hkept hthrow haccept hexec
  have hall := (along_and _ _ m₀ p).mpr ⟨(along_and _ _ m₀ p).mpr ⟨hrun.2, hno⟩, hnew⟩
  have hinv := along_invariant _ kept hstep m₀ p hinit hall
  have hkept : ∀ m, kept m → m.pump.ConnectionsKept := fun m hm =>
    Pump.connectionsKept_of_wellKept m.pump hm.1 hm.2
  refine ⟨hkept m₀ hinit, along_imp _ _ (fun m op m' h => ?_) m₀ p hinv.1⟩
  exact ⟨Pump.dereferencesClient_of_kept m.pump op (hkept m h.1), hkept m' h.2⟩

/-- A consumer connects, logs in and is disconnected for an exception on its socket. -/
def comeAndGo : List Op :=
  connectConsumer ++ activateConsumer (.initialized 1 0 true)
    ++ receive (loginByName 1) willingEnv
    ++ [.select 1 ∅ ∅ {1024}] ++ passOver 4 none (visit 0 .nothing)

section Replay

set_option maxRecDepth 20000

theorem comeAndGo_kept :
    ∃ p, replay Machine.step Machine.bound comeAndGo = some p
      ∧ Along (fun m op m' => m.pump.DereferencesClient op ∧ m'.pump.ConnectionsKept)
        Machine.bound p := by
  refine ⟨_, rfl, (connections_kept Machine.bound _
    (run_replay _ Machine.step Machine.bound comeAndGo _ bound_init rfl) ?_ ?_).2⟩
  · exact along_replay_labels Machine.step (fun op => op.throws = false) Machine.bound comeAndGo _
      rfl (by decide)
  · decide

end Replay

end Hitsuji
