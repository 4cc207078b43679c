import Hitsuji.Lib.Interest
import Hitsuji.Provider.Removals

set_option autoImplicit false

/-! # Every connection is polled

A connection that is missing from `in_rfds_` or `in_efds_` is never read again, and nothing that
`select` finds on its socket removes it. Sockets leave the sets when a connection is removed or
moves, and in two other places: `Close` starts the sets afresh under the connections that are there,
and a read that falls through to `RSSL_RET_READ_FD_CHANGE` on a closed channel clears the socket the
channel had before, whoever is on it by then. -/

namespace Hitsuji

open ByteBuffer Interest Transition

/-- The events with hard-fail override. -/
def ReadEx.overrides : ReadEx → Bool
  | .congestionDetected | .slowReader | .packetGapDetected => true
  | _ => false

/-- `Close` is about to wait for the responses that are due. -/
def Op.isDrain : Op → Bool
  | .drain => true
  | _ => false

theorem Op.isDrain_eq_true (op : Op) : op.isDrain = true ↔ op = .drain := by
  cases op <;> simp [isDrain]

namespace Pump

/-! ## Polls -/

/-- The sockets polled for reading and for exceptions. -/
def polled (p : Pump) : Finset Nat :=
  p.inRfds ∩ p.inEfds

/-- Every connection is polled. -/
def Polls (p : Pump) : Prop :=
  CoversAll p.connections p.socketId p.polled

instance (p : Pump) : Decidable p.Polls :=
  inferInstanceAs (Decidable (∀ c ∈ p.connections, p.socketId c ∈ p.polled))

/-- The closed channel that a read treats as if it had moved. -/
def fallsThrough (p : Pump) : Op → Option UInt64
  | .read i (.readEx ret left) =>
      if ret.overrides = true ∧ left = some .closed then p.reads i .active else none
  | _ => none

/-- The socket that a channel gets is not that of another connection. -/
def SocketOwn (p : Pump) (op : Op) : Prop :=
  ∀ given ∈ p.gives op, ∀ d ∈ p.connections, d ≠ given.1 → p.socketId d ≠ given.2

/-- `Close` finds no clients, and a closed channel that is treated as if it had moved was not on a
    socket before that is another connection's now. -/
structure KeepsPolls (p : Pump) (op : Op) : Prop where
  drain : op = .drain → p.mustDrain = false
  fallsThrough : ∀ c ∈ p.fallsThrough op, ∀ d ∈ p.connections, d ≠ c →
    p.socketId d = (p.links c).oldSocketId → (p.links c).oldSocketId = p.socketId c

/-- RSSL hands out channels that are no connections, on sockets that no other connection is on. -/
def HandsOutNew (p : Pump) (op : Op) : Prop :=
  p.AcceptsNew op ∧ p.SocketOwn op

instance (p : Pump) (op : Op) : Decidable (p.SocketOwn op) :=
  inferInstanceAs (Decidable (∀ given ∈ p.gives op, _))

instance (p : Pump) (op : Op) : Decidable (p.HandsOutNew op) :=
  inferInstanceAs (Decidable (_ ∧ _))

instance (p : Pump) (op : Op) : Decidable (p.KeepsPolls op) :=
  decidable_of_iff ((op.isDrain = true → p.mustDrain = false) ∧ ∀ c ∈ p.fallsThrough op,
      ∀ d ∈ p.connections, d ≠ c → p.socketId d = (p.links c).oldSocketId →
        (p.links c).oldSocketId = p.socketId c)
    ⟨fun h => ⟨fun hdrain => h.1 (hdrain ▸ rfl), h.2⟩,
      fun h => ⟨fun hdrain => h.drain ((op.isDrain_eq_true).mp hdrain), h.fallsThrough⟩⟩

@[simp] theorem polled_watch (p : Pump) (socket : Nat) :
    (p.watch socket).polled = insert socket p.polled :=
  Finset.insert_inter_distrib _ _ _ |>.symm

@[simp] theorem polled_unwatch (p : Pump) (socket : Nat) :
    (p.unwatch socket).polled = p.polled.erase socket := by
  ext s
  simp only [polled, unwatch, Finset.mem_inter, Finset.mem_erase]
  tauto

@[simp] theorem socketId_watch (p : Pump) (socket : Nat) (c : UInt64) :
    (p.watch socket).socketId c = p.socketId c := rfl

@[simp] theorem socketId_unwatch (p : Pump) (socket : Nat) (c : UInt64) :
    (p.unwatch socket).socketId c = p.socketId c := rfl

theorem polled_of_books (p p' : Pump) (hbooks : p'.books = p.books) : p'.polled = p.polled := by
  rw [polled, polled, inRfds_of_books hbooks, inEfds_of_books hbooks]

/-- The same connections on the same sockets, and no socket less polled. -/
theorem polls_grow (p p' : Pump) (hconnections : p'.connections = p.connections)
    (hsocket : ∀ c, p'.socketId c = p.socketId c) (hpolled : p.polled ⊆ p'.polled)
    (hp : p.Polls) : p'.Polls := by
  refine coversAll_sub _ _ _ _ _ _ hp (fun c hc => ⟨hconnections ▸ hc, hsocket c⟩) ?_
  exact fun c _ hmem => hpolled hmem

theorem polls_of_books (p p' : Pump) (hbooks : p'.books = p.books) (hp : p.Polls) : p'.Polls :=
  polls_grow p p' (connections_of_books hbooks) (socketId_of_books hbooks)
    (polled_of_books p p' hbooks).ge hp

/-- A connection more, and its socket. -/
theorem polls_accept (p p' : Pump) (c : UInt64)
    (hconnections : ∀ k ∈ p'.connections, k ≠ c → k ∈ p.connections)
    (hothers : ∀ k, k ≠ c → p'.socketId k = p.socketId k)
    (hpolled : p'.polled = insert (p'.socketId c) p.polled) (hp : p.Polls) : p'.Polls := by
  rw [Polls, hpolled]
  exact coversAll_add _ _ _ _ _ c hp hconnections hothers

/-- A channel moves, as the provider sees it: exactly the connections on the socket it clears are
    missed then. -/
theorem polls_move_iff (p p' : Pump) (c : UInt64) (s : Nat)
    (hconnections : p'.connections = p.connections)
    (hothers : ∀ k, k ≠ c → p'.socketId k = p.socketId k)
    (hpolled : p'.polled = insert (p'.socketId c) (p.polled.erase s)) (hp : p.Polls) :
    p'.Polls ↔ ∀ d ∈ p.connections, d ≠ c → p.socketId d = s → s = p'.socketId c := by
  rw [Polls, hconnections, hpolled]
  exact coversAll_move_iff _ _ _ _ c s hp hothers

/-- A channel that clears its own socket, or one that nobody else is on. -/
theorem polls_move (p p' : Pump) (c : UInt64) (hapart : p.Apart) (hc : c ∈ p.connections)
    (hconnections : p'.connections = p.connections)
    (hothers : ∀ k, k ≠ c → p'.socketId k = p.socketId k)
    (hpolled : p'.polled = insert (p'.socketId c) (p.polled.erase (p.socketId c))) (hp : p.Polls) :
    p'.Polls := by
  refine (polls_move_iff p p' c _ hconnections hothers hpolled hp).mpr ?_
  intro d hd hdc hsocket
  exact absurd (hapart d hd c hc hsocket) hdc

/-! ## One step -/

/-- What reading an active channel comes to, other than that it moves. -/
theorem books_onReadEx (q : Pump) (c : UInt64) (ret : ReadEx) (h : Handled)
    (hret : ret.overrides = false) (hmove : ∀ newSocket, ret ≠ .fdChange newSocket)
    (hrun : q.onReadEx c ret = some h) : h.pump.books = q.books := by
  cases ret with
  | congestionDetected | slowReader | packetGapDetected => exact Bool.noConfusion hret
  | fdChange newSocket => exact absurd rfl (hmove newSocket)
  | ping =>
      obtain ⟨p', hp', rfl⟩ := Option.map_eq_some_iff.mp hrun
      exact (serves_setNextPong q p' c hp').books
  | failure =>
      obtain rfl := Option.some.inj hrun
      rfl
  | data positive buf left =>
      obtain ⟨h₁, hbuf, rfl⟩ := Option.map_eq_some_iff.mp hrun
      have hserves := (serves_onBuffer q c buf left h₁ hbuf).books
      split
      · exact hserves
      · exact hserves

theorem keepsPolls_of (p : Pump) (op : Op) (hop : op ≠ .drain)
    (hfalls : p.fallsThrough op = none) : p.KeepsPolls op where
  drain hdrain := absurd hdrain hop
  fallsThrough c hc := by
    rw [hfalls] at hc
    exact absurd hc (by simp)

/-- The socket that the channel had before is cleared, its own is polled. -/
theorem polls_onFdChange_iff (p q : Pump) (c : UInt64) (hbooks : q.books = p.books)
    (hp : p.Polls) : (q.onFdChange c).Polls ↔ ∀ d ∈ p.connections, d ≠ c →
      p.socketId d = (q.links c).oldSocketId → (q.links c).oldSocketId = p.socketId c := by
  have hconnections : q.connections = p.connections := connections_of_books hbooks
  have hsocket : (q.onFdChange c).socketId c = p.socketId c := socketId_of_books hbooks c
  rw [polls_move_iff p (q.onFdChange c) c (q.links c).oldSocketId hconnections
    (fun k _ => socketId_of_books hbooks k) ?_ hp, hsocket]
  rw [hsocket, onFdChange, polled_watch, polled_unwatch, polled_of_books p q hbooks,
    socketId_of_books hbooks c]

/-- A channel that moves clears its own. -/
theorem polls_reconnect (p q : Pump) (c : UInt64) (newSocket : Nat) (hbooks : q.books = p.books)
    (hapart : p.Apart) (hc : c ∈ p.connections) (hp : p.Polls) :
    ((q.reconnect c newSocket).onFdChange c).Polls := by
  have hconnections : q.connections = p.connections := connections_of_books hbooks
  refine polls_move p _ c hapart hc hconnections (fun k hk => ?_) ?_ hp
  · simp only [onFdChange, watch, unwatch, reconnect, setChannel, setLink, socketId,
      Function.update_of_ne hk]
    exact socketId_of_books hbooks k
  · have hold : ((q.reconnect c newSocket).links c).oldSocketId = p.socketId c := by
      simp only [reconnect, setLink, setChannel, Function.update_self]
      exact socketId_of_books hbooks c
    have hsame : (q.reconnect c newSocket).polled = p.polled := polled_of_books p q hbooks
    rw [onFdChange, polled_watch, polled_unwatch, hold, hsame]
    rfl

/-- Whether the hard-fail override takes effect. -/
theorem checkClosedState_leave (p : Pump) (c : UInt64) (left : Option Down)
    (hstate : (p.links c).state = .active) : (p.leave c left).checkClosedState c
      = if left = some .closed then (p.leave c left).onFdChange c else p.leave c left := by
  cases left with
  | none => simp [checkClosedState, leave, hstate]
  | some left => cases left <;> simp [checkClosedState, leave, setLink, Down.state]

/-- A read of an active channel keeps every connection polled, unless it falls through and clears
    the socket of another one. -/
theorem polls_readEx (p : Pump) (i : Nat) (c : UInt64) (ret : ReadEx) (left : Option Down)
    (h : Handled) (hapart : p.Apart) (hreading : p.Reading i c)
    (hstate : (p.links c).state = .active) (hrun : p.exec (.read i (.readEx ret left)) = some h)
    (hp : p.Polls) : h.pump.Polls ↔ p.KeepsPolls (.read i (.readEx ret left)) := by
  have hread := p.exec_reading i c _ h hreading hrun
  have hactive : ((p.clearRead (p.socketId c)).links c).state = .active := hstate
  simp only [onCanRead, hactive] at hread
  have hbooks : ((p.clearRead (p.socketId c)).leave c left).books = p.books :=
    (serves_before p _ _ (serves_clearRead p _) (serves_leave _ c left)).books
  have hreads : p.reads i .active = some c := (reads_eq_some p i .active c).mpr ⟨hreading, hstate⟩
  by_cases hover : ret.overrides = true
  · have hcheck : h = ⟨((p.clearRead (p.socketId c)).leave c left).checkClosedState c, []⟩ := by
      cases ret with
      | congestionDetected | slowReader | packetGapDetected => exact (Option.some.inj hread).symm
      | fdChange | ping | failure | data => exact Bool.noConfusion hover
    rw [hcheck, checkClosedState_leave _ c left hactive]
    by_cases hclosed : left = some .closed
    · have hfalls : p.fallsThrough (.read i (.readEx ret left)) = some c := by
        rw [fallsThrough, if_pos ⟨hover, hclosed⟩, hreads]
      have hold : (((p.clearRead (p.socketId c)).leave c left).links c).oldSocketId
          = (p.links c).oldSocketId := by
        subst hclosed
        simp only [leave, setLink, Function.update_self]
        rfl
      rw [if_pos hclosed, polls_onFdChange_iff p _ c hbooks hp, hold]
      constructor
      · intro hothers
        refine ⟨fun hdrain => absurd hdrain (by simp), fun k hk => ?_⟩
        obtain rfl := Option.some.inj (hfalls.symm.trans hk)
        exact hothers
      · intro hkeeps
        exact hkeeps.fallsThrough c hfalls
    · rw [if_neg hclosed]
      refine iff_of_true (polls_of_books p _ hbooks hp) (keepsPolls_of p _ (by simp) ?_)
      rw [fallsThrough, if_neg fun hall => hclosed hall.2]
  · have hfalls : p.fallsThrough (.read i (.readEx ret left)) = none := by
      rw [fallsThrough, if_neg fun hall => hover hall.1]
    refine iff_of_true ?_ (keepsPolls_of p _ (by simp) hfalls)
    by_cases hmove : ∃ newSocket, ret = .fdChange newSocket
    · obtain ⟨newSocket, rfl⟩ := hmove
      obtain rfl := Option.some.inj hread
      have hc := List.mem_of_getElem? hreading.position
      exact polls_reconnect p _ c newSocket hbooks hapart hc hp
    · rw [Bool.not_eq_true] at hover
      have hkept := books_onReadEx _ c ret h hover (not_exists.mp hmove) hread
      exact polls_of_books p _ (hkept.trans hbooks) hp

/-- `Close` waits for the responses that are due with no connection polled. -/
theorem polls_drain_iff (p : Pump) (h : Handled) (hcoherent : p.Coherent)
    (hrun : p.exec .drain = some h) (hp : p.Polls) : h.pump.Polls ↔ p.mustDrain = false := by
  cases hdrain : p.mustDrain with
  | false =>
      simp only [exec, hdrain, Bool.false_eq_true, if_false, Option.some.injEq] at hrun
      subst hrun
      exact iff_of_true hp rfl
  | true =>
      simp only [exec, hdrain, if_true] at hrun
      obtain ⟨listening, -, rfl⟩ := Option.map_eq_some_iff.mp hrun
      have hclients : p.sessions ≠ [] := by
        simpa [mustDrain] using (Bool.and_eq_true_iff.mp hdrain).2
      obtain ⟨entry, rest, hentry⟩ := List.exists_cons_of_ne_nil hclients
      have hc : entry.1 ∈ p.connections :=
        hcoherent.connected _ (List.mem_map_of_mem (hentry ▸ List.mem_cons_self))
      refine iff_of_false (fun hpolls => ?_) Bool.noConfusion
      exact absurd (Finset.mem_inter.mp (hpolls _ hc)).2 (Finset.notMem_empty _)

/-- **A step keeps every connection polled exactly under `KeepsPolls`.** -/
theorem polls_exec (p : Pump) (op : Op) (h : Handled) (hrun : p.exec op = some h)
    (hcoherent : p.Coherent) (hapart : p.Apart) (hunique : p.connections.Nodup)
    (hstart : op ≠ .start) (hp : p.Polls) : h.pump.Polls ↔ p.KeepsPolls op := by
  by_cases hdrain : op = .drain
  · subst hdrain
    refine (polls_drain_iff p h hcoherent hrun hp).trans ⟨fun hno => ⟨fun _ => hno, ?_⟩, ?_⟩
    · exact fun c hc => absurd hc (by simp [Pump.fallsThrough])
    · exact fun hkeeps => hkeeps.drain rfl
  by_cases hread : ∃ i ret left c, op = .read i (.readEx ret left) ∧ p.reads i .active = some c
  · obtain ⟨i, ret, left, c, rfl, hreads⟩ := hread
    obtain ⟨hreading, hstate⟩ := (reads_eq_some p i .active c).mp hreads
    exact polls_readEx p i c ret left h hapart hreading hstate hrun hp
  have hfalls : p.fallsThrough op = none := by
    unfold Pump.fallsThrough
    split
    · next i ret left =>
        split
        · exact Option.eq_none_iff_forall_ne_some.mpr fun c hc => hread ⟨i, ret, left, c, rfl, hc⟩
        · rfl
    · rfl
  refine iff_of_true ?_ (keepsPolls_of p op hdrain hfalls)
  have hactivated : ∀ (q : Pump) (c : UInt64), q.connections = p.connections →
      (∀ k, q.socketId k = p.socketId k) → q.polled = p.polled →
      (q.watch (p.socketId c)).Polls := by
    intro q c hconnections hsocket hpolled
    refine polls_grow p _ hconnections hsocket ?_ hp
    rw [polled_watch, hpolled]
    exact Finset.subset_insert _ _
  cases exec_cases p op h hrun with
  | serves _ _ hserves => exact polls_of_books p _ hserves.books hp
  | reset _ listening hop => exact absurd hop (not_or.mpr ⟨hstart, fun hboth => hdrain hboth.1⟩)
  | accepted a listening hsock hready haccepting hroom =>
      refine polls_accept p _ a.handle (fun k hk hne => ?_) (fun k hne => ?_) ?_ hp
      · exact (List.mem_append.mp hk).resolve_right fun hmem => hne (List.mem_singleton.mp hmem)
      · simp only [acceptConnection, watch, setLink, setChannel, socketId, Function.update_of_ne hne]
        rfl
      · rw [acceptConnection, polled_watch, socketId_watch]
        simp only [setLink, setChannel, socketId, Function.update_self]
        rfl
  | downgraded i c newSocket session left hreading hstate =>
      refine polls_move p _ c hapart (List.mem_of_getElem? hreading.position) rfl (fun k hk => ?_)
        ?_ hp
      · simp only [watch, unwatch, downgrade, setChannel, socketId, Function.update_of_ne hk]
        rfl
      · rw [polled_watch, polled_unwatch, socketId_watch, socketId_unwatch]
        simp only [downgrade, setChannel, socketId, Function.update_self]
        rfl
  | rejected i c majorVersion minorVersion pingTimeout session left hreading hstate =>
      exact hactivated _ c rfl (socketId_activate (p.clearRead _) c _ _ _) rfl
  | threw i c majorVersion minorVersion pingTimeout left =>
      exact hactivated _ c rfl (socketId_activate (p.clearRead _) c _ _ _) rfl
  | opened i c majorVersion minorVersion pingTimeout address directoryToken emplaced left q
      hreading hstate haccept hfresh hq =>
      have hsocket : ∀ k, q.socketId k = p.socketId k := by
        rw [hq]
        exact socketId_activate (p.clearRead _) c _ _ _
      have hconnections : q.connections = p.connections := by
        rw [hq]
        rfl
      have hpolled : q.polled = p.polled := by
        rw [hq]
        rfl
      cases emplaced with
      | false => exact hactivated q c hconnections hsocket hpolled
      | true =>
          exact hactivated _ c hconnections
            (fun k => (socketId_acceptClientSession q c address _ k).trans (hsocket k)) hpolled
  | reconnected i c newSocket left hreading hstate =>
      have hreads := (reads_eq_some p i .active c).mpr ⟨hreading, hstate⟩
      exact absurd ⟨i, _, left, c, rfl, hreads⟩ hread
  | fellThrough i c ret left hreading hstate =>
      have hreads := (reads_eq_some p i .active c).mpr ⟨hreading, hstate⟩
      exact absurd ⟨i, ret, left, c, rfl, hreads⟩ hread
  | flushed i c left p' hc hready hflushes => exact polls_of_books p _ hflushes.books hp
  | disconnected i c left hc hefds =>
      have hleft : ∀ k ∈ p.connections.eraseIdx i, k ∈ p.connections ∧ k ≠ c := fun k hk =>
        mem_of_eraseIdx p i c k hc hunique hk
      rw [disconnect_eq]
      refine coversAll_sub _ _ _ _ _ _ hp (fun k hk => ⟨(hleft k hk).1, rfl⟩) fun k hk hmem => ?_
      change _ ∈ (p.unwatch (p.socketId c)).polled
      rw [polled_unwatch]
      refine Finset.mem_erase.mpr ⟨fun hsocket => (hleft k hk).2 ?_, hmem⟩
      exact hapart k (hleft k hk).1 c (List.mem_of_getElem? hc) hsocket
  | notified c env left leftByFlush loop h' p' hclient hserves hflushed hflushes =>
      exact polls_of_books p _ (hflushes.books.trans hserves.books) hp
  | tornDown left => exact fun k hk => absurd hk List.not_mem_nil
  | closing => exact hp

theorem nodup_exec (p : Pump) (op : Op) (h : Handled) (hrun : p.exec op = some h)
    (hnew : p.AcceptsNew op) (hp : p.connections.Nodup) : h.pump.connections.Nodup := by
  cases course_exec p op h hrun with
  | settles hsettles => exact hsettles.connections.nodup hp
  | accepted a hop hlinks hconnections =>
      rw [hconnections, ← List.concat_eq_append]
      exact hp.concat (hnew a hop)
  | threw c link hswallows hactive hlinks hconnections => exact hconnections ▸ hp
  | opened c link address hmem hbefore hactive hptr hfresh hlinks hconnections =>
      exact hconnections ▸ hp

end Pump

/-! ## Whole runs -/

/-- What holds of the connections anyway. -/
structure Machine.Housed (m : Machine) : Prop where
  coherent : m.pump.Coherent
  apart : m.pump.Apart
  unique : m.pump.connections.Nodup
  fresh : m.pc = .ready → m.pump.connections = []

theorem housed_init (m : Machine) (hm : pumpSystem.init m) : m.Housed := by
  have hnobody : m.pump.connections = [] := hm.2.1
  refine ⟨coherent_init m hm, ?_, hnobody ▸ List.nodup_nil, fun _ => hnobody⟩
  intro c hc
  exact absurd hc (hnobody ▸ List.not_mem_nil)

theorem housed_step (m m' : Machine) (op : Op) (hm : m.Housed) (hnew : m.pump.HandsOutNew op)
    (h : m.step op = some m') : m'.Housed := by
  obtain ⟨handled, pc, hexec, hcontrol, rfl⟩ := (step_eq_some m m' op).mp h
  refine ⟨coherent_step m _ op hm.coherent h, ?_, ?_, fun hready => ?_⟩
  · exact apart_of_gives m.pump op handled hexec hm.apart hnew.2
  · exact m.pump.nodup_exec op handled hexec hnew.1 hm.unique
  · exact (control_ne_ready _ _ _ op (hcontrol.trans (congrArg some hready))).elim

theorem polls_step (m m' : Machine) (op : Op) (hm : m.Housed) (hpolls : m.pump.Polls)
    (h : m.step op = some m') : m'.pump.Polls ↔ m.pump.KeepsPolls op := by
  obtain ⟨handled, pc, hexec, hcontrol, rfl⟩ := (step_eq_some m m' op).mp h
  by_cases hstart : op = .start
  · subst hstart
    have hnobody := hm.fresh (control_start _ _ _ _ hcontrol)
    obtain ⟨listening, -, rfl⟩ := Option.map_eq_some_iff.mp hexec
    refine iff_of_true (fun c hc => ?_) (m.pump.keepsPolls_of _ (by simp) rfl)
    exact absurd hc (hnobody ▸ List.not_mem_nil)
  · exact m.pump.polls_exec op handled hexec hm.coherent hm.apart hm.unique hstart hpolls

/-- **Every connection is polled throughout a run exactly when `Close` finds no clients and no
    closed channel clears a socket it once had that is another connection's now**, as long as RSSL
    hands out new channels on sockets of their own. -/
theorem polls_iff (m₀ : Machine) (p : Steps Machine Op) (hrun : pumpSystem.Run m₀ p)
    (hnew : Along (fun m op _ => m.pump.HandsOutNew op) m₀ p) :
    Along (fun _ _ m' => m'.pump.Polls) m₀ p
      ↔ Along (fun m op _ => m.pump.KeepsPolls op) m₀ p := by
  have hinit : m₀.pump.Polls := fun c hc => absurd hc (hrun.1.2.1 ▸ List.not_mem_nil)
  exact along_iff (fun m op m' => pumpSystem.step m op m' ∧ m.pump.HandsOutNew op) Machine.Housed
    (fun m => m.pump.Polls) (fun m op => m.pump.KeepsPolls op)
    (fun m op m' hm h => housed_step m m' op hm h.2 h.1)
    (fun m op m' hm hpolls h => polls_step m m' op hm hpolls h.1) m₀ p
    (housed_init m₀ hrun.1) hinit ((along_and _ _ m₀ p).mpr ⟨hrun.2, hnew⟩)

/-- RSSL moves the first consumer to socket 1025, and socket 1024 is the second one's when the first
    channel is closed. -/
def reuseSocket : List Op :=
  connectConsumer ++ activateConsumer (.initialized 1 0 true)
    ++ [.select 1 {1024} ∅ ∅]
    ++ passOver 4 none (visit 0 (.readEx (.fdChange 1025) none))
    ++ passOver 4 none (visit 0 .nothing)
    ++ [.select 1 {3} ∅ ∅]
    ++ passOver 5 (some ⟨0x7f08, ⟨1024, 0, 0, 60⟩⟩) (visit 0 .nothing ++ visit 1 .nothing)
    ++ passOver 5 none (visit 0 .nothing ++ visit 1 .nothing)
    ++ [.select 1 {1025} ∅ ∅]
    ++ passOver 6 none (visit 0 (.readEx .slowReader (some .closed)) ++ visit 1 .nothing)
    ++ passOver 6 none (visit 0 .nothing ++ visit 1 .nothing)

section Replay

set_option maxRecDepth 20000

theorem comeAndGo_polls :
    ∃ p, replay Machine.step Machine.bound comeAndGo = some p
      ∧ Along (fun _ _ m' => m'.pump.Polls) Machine.bound p :=
  ⟨_, rfl, (polls_iff Machine.bound _
    (run_replay _ Machine.step Machine.bound comeAndGo _ bound_init rfl) (by decide)).mpr
    (by decide)⟩

/-- The second consumer is not polled any more when `select` is called. -/
theorem reuseSocket_unpolled :
    ∃ p, pumpSystem.Run Machine.bound p
      ∧ replay Machine.step Machine.bound reuseSocket = some p
      ∧ (last Machine.bound p).pc = .select .run
      ∧ Along (fun m op _ => m.pump.HandsOutNew op) Machine.bound p
      ∧ (last Machine.bound p).pump.socketId 0x7f08 ∉ (last Machine.bound p).pump.polled :=
  ⟨_, run_replay _ Machine.step Machine.bound reuseSocket _ bound_init rfl, rfl, rfl, by decide,
    by decide⟩

end Replay

end Hitsuji
