import Hitsuji.Provider.Orphans

set_option autoImplicit false

/-! # Who is removed

`select` is called on copies of the interest sets, and leaves them as they are when it fails. `DoWork`
treats a failure as a timeout, and then finds an exception on every socket of the copy: all
connections are removed. Where no `select` fails, a connection is removed for an exception that was
reported on its socket or for a mark of its own since then, as long as channels get sockets of their
own. -/

namespace Hitsuji

open ByteBuffer Transition

namespace Pump

/-! ## Sockets -/

/-- The connection that is accepted. -/
def admits (p : Pump) (accepted : Option Accepted) : Option Accepted :=
  if p.serverReady = true ∧ p.isAcceptingConnections = true
      ∧ p.connections.length ≠ p.sessionCapacity then accepted
  else none

/-- The connection at the iterator, if it is ready to read in this state. -/
def reads (p : Pump) (i : Nat) (state : ChannelState) : Option UInt64 :=
  p.connections[i]?.filter fun c =>
    decide (p.socketId c ∈ p.outRfds ∧ (p.links c).state = state)

/-- The channel that a step gives a socket, and the socket. -/
def gives (p : Pump) : Op → Option (UInt64 × Nat)
  | .connection accepted => (p.admits accepted).map fun a => (a.handle, a.channel.socketId)
  | .read i (.initChannel (.inProgress (some newSocket)) _ _) =>
      (p.reads i .initializing).map fun c => (c, newSocket)
  | .read i (.readEx (.fdChange newSocket) _) => (p.reads i .active).map fun c => (c, newSocket)
  | _ => none

/-- No two connections are on one socket. -/
def Apart (p : Pump) : Prop :=
  ∀ c ∈ p.connections, ∀ d ∈ p.connections, p.socketId c = p.socketId d → c = d

/-- The socket that a channel gets is not that of another connection, and not in `out_efds_`. -/
def SocketFresh (p : Pump) (op : Op) : Prop :=
  ∀ given ∈ p.gives op,
    given.2 ∉ p.outEfds ∧ ∀ d ∈ p.connections, d ≠ given.1 → p.socketId d ≠ given.2

instance (p : Pump) (op : Op) : Decidable (p.SocketFresh op) :=
  inferInstanceAs (Decidable (∀ given ∈ p.gives op, _))

theorem reads_eq_some (p : Pump) (i : Nat) (state : ChannelState) (c : UInt64) :
    p.reads i state = some c ↔ p.Reading i c ∧ (p.links c).state = state := by
  simp only [reads, Option.filter_eq_some_iff, decide_eq_true_eq]
  exact ⟨fun ⟨hc, hready, hstate⟩ => ⟨⟨hc, hready⟩, hstate⟩,
    fun ⟨⟨hc, hready⟩, hstate⟩ => ⟨hc, hready, hstate⟩⟩

/-- Who is given a socket: a connection that is accepted, or one being read that moves. -/
theorem gives_cases (p : Pump) (op : Op) (c : UInt64) (s : Nat)
    (hgives : p.gives op = some (c, s)) :
    (∃ accepted a, op = .connection accepted ∧ p.admits accepted = some a ∧ c = a.handle
        ∧ s = a.channel.socketId)
      ∨ (∃ i session left, op = .read i (.initChannel (.inProgress (some s)) session left)
        ∧ p.Reading i c ∧ (p.links c).state = .initializing)
      ∨ ∃ i left, op = .read i (.readEx (.fdChange s) left)
        ∧ p.Reading i c ∧ (p.links c).state = .active := by
  unfold gives at hgives
  split at hgives
  · next accepted =>
      obtain ⟨a, hadmits, hpair⟩ := Option.map_eq_some_iff.mp hgives
      obtain ⟨rfl, rfl⟩ := Prod.mk.inj hpair
      exact .inl ⟨accepted, a, rfl, hadmits, rfl, rfl⟩
  · next i newSocket session left =>
      obtain ⟨d, hreads, hpair⟩ := Option.map_eq_some_iff.mp hgives
      obtain ⟨rfl, rfl⟩ := Prod.mk.inj hpair
      exact .inr (.inl ⟨i, session, left, rfl, (reads_eq_some p i _ d).mp hreads⟩)
  · next i newSocket left =>
      obtain ⟨d, hreads, hpair⟩ := Option.map_eq_some_iff.mp hgives
      obtain ⟨rfl, rfl⟩ := Prod.mk.inj hpair
      exact .inr (.inr ⟨i, left, rfl, (reads_eq_some p i _ d).mp hreads⟩)
  · exact absurd hgives (by simp)

/-- A channel that is given a socket is on it afterwards. -/
theorem socketId_given (p : Pump) (op : Op) (h : Handled) (hrun : p.exec op = some h) (c : UInt64)
    (s : Nat) (hgives : p.gives op = some (c, s)) : h.pump.socketId c = s := by
  rcases p.gives_cases op c s hgives with ⟨accepted, a, rfl, hadmits, rfl, rfl⟩
    | ⟨i, session, left, rfl, hreading, hstate⟩ | ⟨i, left, rfl, hreading, hstate⟩
  · obtain ⟨⟨hready, haccepting, hroom⟩, rfl⟩ := Option.ite_none_right_eq_some.mp hadmits
    obtain ⟨listening, hsock, rfl⟩ := Option.map_eq_some_iff.mp hrun
    have hlistening : listening ∈ p.outRfds := by
      simpa [serverReady, hsock] using hready
    have hopen : ¬ ((p.clearRead listening).isAcceptingConnections = false
        ∨ (p.clearRead listening).connections.length
          = (p.clearRead listening).sessionCapacity) := by
      rintro (hclosed | hfull)
      · exact absurd (haccepting.symm.trans hclosed) (by decide)
      · exact hroom hfull
    rw [if_pos hlistening, onConnection, if_neg hopen]
    simp only [acceptConnection, watch, setLink, setChannel, socketId, Function.update_self]
  · have hread := p.exec_reading i c _ h hreading hrun
    have hinit : ((p.clearRead (p.socketId c)).links c).state = .initializing := hstate
    simp only [onCanRead, hinit, onInitializingState] at hread
    obtain rfl := Option.some.inj hread
    simp only [watch, unwatch, downgrade, setChannel, socketId, Function.update_self]
  · have hread := p.exec_reading i c _ h hreading hrun
    have hactive : ((p.clearRead (p.socketId c)).links c).state = .active := hstate
    simp only [onCanRead, hactive, onReadEx] at hread
    obtain rfl := Option.some.inj hread
    simp only [onFdChange, watch, unwatch, reconnect, setChannel, setLink, socketId,
      Function.update_self]

theorem mem_of_marks (p : Pump) (op : Op) (c : UInt64) (h : p.marks op = some c) :
    c ∈ p.connections := by
  cases op with
  | read i answer => exact List.mem_of_getElem? (Option.filter_eq_some_iff.mp h).1
  | keepalive i rc left => exact List.mem_of_getElem? (Option.filter_eq_some_iff.mp h).1
  | _ => exact absurd h (by simp [marks])

/-- What is given a socket is not marked. -/
theorem marks_of_gives (p : Pump) (op : Op) (c : UInt64) (s : Nat)
    (hgives : p.gives op = some (c, s)) : p.marks op = none := by
  rcases p.gives_cases op c s hgives with ⟨accepted, a, rfl, -⟩
    | ⟨i, session, left, rfl, hreading, hstate⟩ | ⟨i, left, rfl, hreading, hstate⟩
  · rfl
  · simp [marks, hreading.position, readAborts, hstate]
  · simp [marks, hreading.position, readAborts, hstate, readExAborts]

/-- A connection that is not given a socket was there before, on the same one. -/
theorem kept_of_not_given (p : Pump) (op : Op) (h : Handled) (hrun : p.exec op = some h)
    (d : UInt64) (hd : d ∈ h.pump.connections) (hgives : ∀ s, p.gives op ≠ some (d, s)) :
    d ∈ p.connections ∧ h.pump.socketId d = p.socketId d := by
  have hother : ∀ c s, p.gives op = some (c, s) → d ≠ c := by
    rintro c s hc rfl
    exact hgives s hc
  cases exec_cases p op h hrun with
  | serves _ _ hserves =>
      rw [connections_of_books hserves.books] at hd
      exact ⟨hd, socketId_of_books hserves.books d⟩
  | accepted a listening hsock hready haccepting hroom =>
      have hserver : p.serverReady = true := by simp [serverReady, hsock, hready]
      have hne := hother a.handle a.channel.socketId
        (by simp [gives, admits, hserver, haccepting, hroom])
      refine ⟨?_, ?_⟩
      · exact (List.mem_append.mp hd).resolve_right fun hmem => hne (List.mem_singleton.mp hmem)
      · simp only [acceptConnection, watch, setLink, setChannel, socketId, Function.update_of_ne hne]
        rfl
  | downgraded i c newSocket session left hreading hstate =>
      have hne := hother c newSocket
        (by simp [gives, (reads_eq_some p i .initializing c).mpr ⟨hreading, hstate⟩])
      refine ⟨hd, ?_⟩
      simp only [watch, unwatch, downgrade, setChannel, socketId, Function.update_of_ne hne]
      rfl
  | reconnected i c newSocket left hreading hstate =>
      have hne := hother c newSocket
        (by simp [gives, (reads_eq_some p i .active c).mpr ⟨hreading, hstate⟩])
      rw [leave_eq] at hd ⊢
      refine ⟨hd, ?_⟩
      simp only [onFdChange, watch, unwatch, reconnect, setChannel, setLink, socketId,
        Function.update_of_ne hne]
      rfl
  | fellThrough i c ret left hreading hstate =>
      rw [leave_eq] at hd ⊢
      exact ⟨hd, rfl⟩
  | rejected i c majorVersion minorVersion pingTimeout session left =>
      exact ⟨hd, socketId_activate (p.clearRead _) c _ _ _ d⟩
  | threw i c majorVersion minorVersion pingTimeout left =>
      exact ⟨hd, socketId_activate (p.clearRead _) c _ _ _ d⟩
  | opened i c majorVersion minorVersion pingTimeout address directoryToken emplaced left q
      hreading hstate haccept hfresh hq =>
      have hsocket : q.socketId d = p.socketId d := by
        rw [hq]
        exact socketId_activate (p.clearRead _) c _ _ _ d
      have hconnections : q.connections = p.connections := by
        rw [hq]
        rfl
      cases emplaced with
      | false => exact ⟨hconnections ▸ hd, hsocket⟩
      | true => exact ⟨hconnections ▸ hd, (socketId_acceptClientSession q c address _ d).trans hsocket⟩
  | flushed i c left p' hc hready hflushes =>
      rw [connections_of_books hflushes.books] at hd
      exact ⟨hd, socketId_of_books hflushes.books d⟩
  | disconnected i c left hc hefds =>
      rw [disconnect_eq] at hd ⊢
      exact ⟨List.mem_of_mem_eraseIdx hd, rfl⟩
  | notified c env left leftByFlush loop h' p' hclient hserves hflushed hflushes =>
      have hbooks := hflushes.books.trans hserves.books
      rw [connections_of_books hbooks] at hd
      exact ⟨hd, socketId_of_books hbooks d⟩
  | tornDown left =>
      simp only [teardown] at hd
      exact absurd hd List.not_mem_nil
  | reset | closing => exact ⟨hd, rfl⟩

/-- A connection that a step of `DoWork` removes has an exception on its socket. -/
theorem removed_exec (p : Pump) (op : Op) (h : Handled) (hrun : p.exec op = some h)
    (hop : ∀ left, op ≠ .teardown left) (c : UInt64) (hc : c ∈ p.connections)
    (hremoved : c ∉ h.pump.connections) : p.socketId c ∈ p.outEfds := by
  have hkept : h.pump.connections = p.connections → p.socketId c ∈ p.outEfds := by
    intro hsame
    exact absurd hc (hsame ▸ hremoved)
  cases exec_cases p op h hrun with
  | serves _ _ hserves => exact hkept (connections_of_books hserves.books)
  | accepted a => exact absurd (List.mem_append_left _ hc) hremoved
  | opened i k majorVersion minorVersion pingTimeout address directoryToken emplaced left q
      hreading hstate haccept hfresh hq =>
      refine hkept ?_
      rw [hq]
      cases emplaced <;> rfl
  | reconnected | fellThrough =>
      refine hkept ?_
      rw [leave_eq]
      rfl
  | flushed i k left p' hk hready hflushes => exact hkept (connections_of_books hflushes.books)
  | disconnected i k left hk hefds =>
      rw [disconnect_eq] at hremoved
      have hck : c = k := by
        by_contra hne
        exact hremoved (mem_eraseIdx_of_ne p i k c hk hne hc)
      exact hck ▸ hefds
  | notified k env left leftByFlush loop h' p' hclient hserves hflushed hflushes =>
      exact hkept (connections_of_books (hflushes.books.trans hserves.books))
  | tornDown left => exact absurd rfl (hop left)
  | reset | downgraded | rejected | threw | closing => exact hkept rfl

end Pump

/-! ## Since the last `select` -/

/-- What there is to remove connections for. -/
structure Since where
  /-- the sockets on which the last `select` reported an exception -/
  reported : Finset Nat
  /-- the connections that were marked since then -/
  marked : List UInt64

/-- Before the first `select`. -/
def Since.initial : Since :=
  ⟨∅, []⟩

/-- After a step; a channel that is accepted is a new one. -/
def Since.after (since : Since) (p : Pump) : Op → Since
  | .select n _ _ efds => ⟨if n < 0 then ∅ else efds, []⟩
  | .connection accepted =>
      ⟨since.reported, since.marked.filter fun c => some c ≠ (p.admits accepted).map Accepted.handle⟩
  | op => ⟨since.reported, (p.marks op).toList ++ since.marked⟩

/-- There is something to remove the connection for. -/
def Since.Accounts (since : Since) (p : Pump) (c : UInt64) : Prop :=
  p.socketId c ∈ since.reported ∨ c ∈ since.marked

instance (since : Since) (p : Pump) (c : UInt64) : Decidable (since.Accounts p c) :=
  inferInstanceAs (Decidable (_ ∨ _))

/-- A step of `DoWork` that removes a connection has something to remove it for. -/
def Since.Justifies (since : Since) (m m' : Machine) : Prop :=
  ∀ c ∈ m.pump.connections, m.pc.pumping.isSome = true → c ∉ m'.pump.connections →
    since.Accounts m.pump c

instance (since : Since) (m m' : Machine) : Decidable (since.Justifies m m') :=
  inferInstanceAs (Decidable (∀ c ∈ m.pump.connections, _))

/-- So it is with every step of a run. -/
def Accounted : Since → Machine → Steps Machine Op → Prop
  | _, _, [] => True
  | since, m, (op, m') :: rest => since.Justifies m m' ∧ Accounted (since.after m.pump op) m' rest

instance decidableAccounted :
    (since : Since) → (m : Machine) → (p : Steps Machine Op) → Decidable (Accounted since m p)
  | _, _, [] => .isTrue trivial
  | since, m, (op, m') :: rest =>
      have := decidableAccounted (since.after m.pump op) m' rest
      inferInstanceAs (Decidable (since.Justifies m m' ∧ Accounted (since.after m.pump op) m' rest))

/-- `select` fails, and leaves sockets in the copy of `in_efds_`. -/
def Op.selectFails : Op → Bool
  | .select n _ _ efds => decide (n < 0 ∧ efds ≠ ∅)
  | _ => false

/-- No `select` fails that was to report exceptions, and no channel gets a socket that is taken. -/
def Machine.SelectsWell (m : Machine) (op : Op) : Prop :=
  op.selectFails = false ∧ m.pump.SocketFresh op

instance (m : Machine) (op : Op) : Decidable (m.SelectsWell op) :=
  inferInstanceAs (Decidable (_ ∧ _))

/-- There is something to remove each connection for that is about to be removed. -/
structure Since.Covers (since : Since) (p : Pump) : Prop where
  apart : p.Apart
  covered : ∀ c ∈ p.connections, p.socketId c ∈ p.outEfds → since.Accounts p c

/-- Connections stay apart if no channel is given the socket of another one. -/
theorem apart_of_gives (p : Pump) (op : Op) (h : Handled) (hrun : p.exec op = some h)
    (hp : p.Apart) (hown : ∀ given ∈ p.gives op, ∀ d ∈ p.connections, d ≠ given.1 →
      p.socketId d ≠ given.2) : h.pump.Apart := by
  have hmixed : ∀ c d s, p.gives op = some (c, s) → d ∈ p.connections →
      h.pump.socketId d = p.socketId d → h.pump.socketId c = h.pump.socketId d → c = d := by
    intro c d s hgives hd hsame hsocket
    by_contra hne
    refine hown (c, s) hgives d hd (Ne.symm hne) ?_
    rw [← hsame, ← hsocket, Pump.socketId_given p op h hrun c s hgives]
  intro c hc d hd hsocket
  by_cases hgc : ∃ s, p.gives op = some (c, s)
  · obtain ⟨s, hgc⟩ := hgc
    by_cases hgd : ∃ s, p.gives op = some (d, s)
    · obtain ⟨s', hgd⟩ := hgd
      exact (Prod.mk.inj (Option.some.inj (hgc.symm.trans hgd))).1
    · obtain ⟨hd, hsame⟩ := p.kept_of_not_given op h hrun d hd (not_exists.mp hgd)
      exact hmixed c d s hgc hd hsame hsocket
  · obtain ⟨hc, hsame⟩ := p.kept_of_not_given op h hrun c hc (not_exists.mp hgc)
    by_cases hgd : ∃ s, p.gives op = some (d, s)
    · obtain ⟨s, hgd⟩ := hgd
      exact (hmixed d c s hgd hc hsame hsocket.symm).symm
    · obtain ⟨hd, hsame'⟩ := p.kept_of_not_given op h hrun d hd (not_exists.mp hgd)
      exact hp c hc d hd (hsame ▸ hsame' ▸ hsocket)

theorem apart_exec (p : Pump) (op : Op) (h : Handled) (hrun : p.exec op = some h) (hp : p.Apart)
    (hfresh : p.SocketFresh op) : h.pump.Apart :=
  apart_of_gives p op h hrun hp fun given hgives => (hfresh given hgives).2

/-- After a `select` that did not fail, it accounts for what is in `out_efds_`. -/
theorem covers_select (since : Since) (p : Pump) (n : Int) (rfds wfds efds : Finset Nat)
    (h : Handled) (hrun : p.exec (.select n rfds wfds efds) = some h) (hp : p.Apart)
    (hselect : (Op.select n rfds wfds efds).selectFails = false) :
    h.pump.connections = p.connections
      ∧ (since.after p (.select n rfds wfds efds)).Covers h.pump := by
  obtain ⟨-, hrun⟩ := Option.ite_none_right_eq_some.mp hrun
  obtain rfl := Option.some.inj hrun
  refine ⟨rfl, hp, fun c _ hefds => .inl ?_⟩
  by_cases hfailed : n < 0
  · have hempty : efds = ∅ := by
      simpa [Op.selectFails, hfailed] using hselect
    subst hempty
    exact absurd hefds (Finset.notMem_empty _)
  · show _ ∈ if n < 0 then ∅ else efds
    rw [if_neg hfailed]
    exact hefds

/-- What accounts for a connection still does after a step that does not make it a new one. -/
theorem accounts_after (since : Since) (p : Pump) (op : Op) (c : UInt64)
    (hop : ∀ n rfds wfds efds, op ≠ .select n rfds wfds efds)
    (hgives : ∀ s, p.gives op ≠ some (c, s)) (h : since.Accounts p c ∨ p.marks op = some c) :
    p.socketId c ∈ (since.after p op).reported ∨ c ∈ (since.after p op).marked := by
  cases op with
  | select n rfds wfds efds => exact absurd rfl (hop n rfds wfds efds)
  | connection accepted =>
      rcases h with (hreported | hmarked) | hmarks
      · exact .inl hreported
      · refine .inr (List.mem_filter.mpr ⟨hmarked, decide_eq_true fun hnew => ?_⟩)
        obtain ⟨a, ha, rfl⟩ := Option.map_eq_some_iff.mp hnew.symm
        exact hgives a.channel.socketId (by rw [Pump.gives, ha]; rfl)
      · exact absurd hmarks (by simp [Pump.marks])
  | _ =>
      rcases h with (hreported | hmarked) | hmarks
      · exact .inl hreported
      · exact .inr (List.mem_append_right _ hmarked)
      · exact .inr (List.mem_append_left _ (Option.mem_toList.mpr hmarks))

/-- **What accounts for the removals to come is kept up to date by every step.** -/
theorem covers_exec (since : Since) (p : Pump) (op : Op) (h : Handled)
    (hrun : p.exec op = some h) (hp : since.Covers p)
    (hselect : op.selectFails = false)
    (hfresh : p.SocketFresh op) : (since.after p op).Covers h.pump := by
  by_cases hop : ∃ n rfds wfds efds, op = .select n rfds wfds efds
  · obtain ⟨n, rfds, wfds, efds, rfl⟩ := hop
    exact (covers_select since p n rfds wfds efds h hrun hp.apart hselect).2
  · have hnot : ∀ n rfds wfds efds, op ≠ .select n rfds wfds efds :=
      fun n rfds wfds efds h => hop ⟨n, rfds, wfds, efds, h⟩
    refine ⟨apart_exec p op h hrun hp.apart hfresh, fun c hc hefds => ?_⟩
    have hmem := (p.mem_outEfds_exec op h hnot hrun _).mp hefds
    by_cases hgives : ∃ s, p.gives op = some (c, s)
    · -- its socket is a fresh one, and the step marks nobody
      obtain ⟨s, hgives⟩ := hgives
      rw [p.socketId_given op h hrun c s hgives, p.marks_of_gives op c s hgives] at hmem
      rcases hmem with hold | ⟨d, hd, -⟩
      · exact absurd hold (hfresh (c, s) hgives).1
      · exact absurd hd (by simp)
    · rw [not_exists] at hgives
      obtain ⟨hc, hsame⟩ := p.kept_of_not_given op h hrun c hc hgives
      rw [hsame] at hmem
      have hkept : since.Accounts p c ∨ p.marks op = some c := by
        rcases hmem with hold | ⟨d, hd, hsocket⟩
        · exact .inl (hp.covered c hc hold)
        · obtain rfl := hp.apart d (p.mem_of_marks op d hd) c hc hsocket
          exact .inr hd
      have hafter := accounts_after since p op c hnot hgives hkept
      rw [← hsame] at hafter
      exact hafter

/-- From a state that is covered, every removal is accounted for. -/
theorem accounted_of_covers (since : Since) (m : Machine) (p : Steps Machine Op)
    (hsteps : Along pumpSystem.step m p) (hcovers : since.Covers m.pump)
    (hwell : Along (fun m op _ => m.SelectsWell op) m p) : Accounted since m p := by
  induction p generalizing since m with
  | nil => trivial
  | cons t rest ih =>
      obtain ⟨op, m'⟩ := t
      obtain ⟨h, pc, hexec, hcontrol, rfl⟩ := (step_eq_some m m' op).mp hsteps.1
      refine ⟨fun c hc hpass hremoved => hcovers.covered c hc ?_, ih _ _ hsteps.2 ?_ hwell.2⟩
      · refine m.pump.removed_exec op h hexec ?_ c hc hremoved
        rintro left rfl
        have hflow := control_flow m.pc pc m.pump h.pump _ hcontrol
        generalize m.pc = before at hflow hpass
        cases hflow
        exact absurd hpass (by decide)
      · exact covers_exec since m.pump op h hexec hcovers hwell.1.1 hwell.1.2

/-- The steps begin with the provider, or with a `select`. -/
def Machine.Begins (m : Machine) (p : Steps Machine Op) : Prop :=
  pumpSystem.init m
    ∨ m.pump.Apart ∧ ∃ n rfds wfds efds m' rest, p = (.select n rfds wfds efds, m') :: rest

/-- **A connection is only removed for what `select` reported on its socket or for a mark of its own
    since then**, from any state in which a `select` is called on, if no `select` fails that was to
    report exceptions and no channel gets a socket that is taken. -/
theorem removals_accounted (m : Machine) (p : Steps Machine Op)
    (hsteps : Along pumpSystem.step m p) (hbegins : m.Begins p)
    (hwell : Along (fun m op _ => m.SelectsWell op) m p) : Accounted .initial m p := by
  rcases hbegins with hinit | ⟨hapart, n, rfds, wfds, efds, m', rest, rfl⟩
  · have hnobody : m.pump.connections = [] := hinit.2.1
    refine accounted_of_covers .initial m p hsteps ⟨?_, ?_⟩ hwell
    · rw [Pump.Apart, hnobody]
      exact nofun
    · rw [hnobody]
      exact nofun
  · obtain ⟨h, pc, hexec, -, rfl⟩ := (step_eq_some m m' _).mp hsteps.1
    obtain ⟨hsame, hcovers⟩ := covers_select .initial m.pump n rfds wfds efds h hexec hapart
      hwell.1.1
    refine ⟨fun c hc _ hremoved => ?_, accounted_of_covers _ _ rest hsteps.2 hcovers hwell.2⟩
    exact absurd (hsame ▸ hc) hremoved

/-- A `select` that fails dooms every connection it was to report on. -/
theorem doomed_of_selectFails (m m' : Machine) (n : Int) (rfds wfds efds : Finset Nat)
    (hfailed : n < 0) (hstep : m.step (.select n rfds wfds efds) = some m') (c : UInt64)
    (hc : m.pump.socketId c ∈ efds) : m'.Doomed c := by
  obtain ⟨h, pc, hexec, hcontrol, rfl⟩ := (step_eq_some m m' _).mp hstep
  obtain ⟨-, hexec⟩ := Option.ite_none_right_eq_some.mp hexec
  obtain rfl := Option.some.inj hexec
  refine ⟨hc, ?_⟩
  generalize m.pc = before at hcontrol
  cases control_flow before pc m.pump _ _ hcontrol with
  | select k => exact hfailed.le

/-- The consumer's socket has an exception. -/
def socketException : List Op :=
  connectConsumer.dropLast ++ [.select 1 ∅ ∅ {1024}] ++ passOver 2 none (visit 0 .nothing)

/-- The consumer is there when `select` fails, with the sets as they were passed in. -/
def selectError : List Op :=
  connectConsumer.dropLast
    ++ [.select (-1) {3, 4, 1024} ∅ {1024}, .doWork 2, .keepalive 0 .success none,
      .disconnect 0 .closed, .returns false]

theorem socketException_accounted :
    ∃ p, replay Machine.step Machine.bound socketException = some p
      ∧ (last Machine.bound p).pump.connections = [] ∧ Accounted .initial Machine.bound p :=
  ⟨_, rfl, rfl, removals_accounted Machine.bound _
    (run_replay _ Machine.step Machine.bound socketException _ bound_init rfl).2 (.inl bound_init)
    (by decide)⟩

/-- The consumer is removed, and there is nothing to remove it for. -/
theorem selectError_disconnects :
    ∃ p, pumpSystem.Run Machine.bound p ∧ replay Machine.step Machine.bound selectError = some p
      ∧ (last Machine.bound p).pump.connections = [] ∧ ¬ Accounted .initial Machine.bound p :=
  ⟨_, run_replay _ Machine.step Machine.bound selectError _ bound_init rfl, rfl, rfl, by decide⟩

end Hitsuji
