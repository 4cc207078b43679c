import Hitsuji.Provider.Hygiene

set_option autoImplicit false

/-! # Output that is pending

`in_wfds_` is what the provider knows of the output queued inside RSSL: `Submit` sets the bit of the
channel's socket, a flush clears it. The bit stays with the socket when RSSL moves the channel to
another one, and `provider_t::Close` clears all bits before it pumps messages. -/

namespace Hitsuji

open ByteBuffer Interest Transition

/-! ## The record of queued output -/

namespace Record

/-- What is queued after calls that leave the books alone is marked. -/
theorem mem_queued_harmless (p : Pump) (wfds : Finset Nat) (r : Record) (calls : List RsslCall)
    (h : ∀ call ∈ calls, p.Harmless wfds call) (k : UInt64) (hk : k ∈ (r.logAll calls).queued) :
    k ∈ r.queued ∨ (p.clients k).isSome = true ∧ p.socketId k ∈ wfds := by
  induction calls generalizing r with
  | nil => exact .inl hk
  | cons call rest ih =>
      have hcall := h call List.mem_cons_self
      rcases ih (r.log call) (fun c hc => h c (List.mem_cons_of_mem call hc)) hk with hlog | hmark
      · cases call with
        | session c e =>
            cases e with
            | writeEx out direct rc =>
                obtain ⟨hclient, -, hpending⟩ := hcall
                simp only [log] at hlog
                split at hlog
                · next hrc =>
                    rcases Finset.mem_insert.mp hlog with rfl | hold
                    · exact .inr ⟨hclient, hpending hrc⟩
                    · exact .inl hold
                · exact .inl hlog
            | getBuffer | releaseBuffer | onRequest => exact .inl hlog
        | flush c rc =>
            simp only [log, if_neg hcall] at hlog
            exact .inl hlog
        | ping | nak => exact .inl hlog
        | accept | closeChannel => exact hcall.elim
      · exact .inr hmark

/-- The channel a call is about. -/
def channelOf : RsslCall → UInt64
  | .accept a | .nak a => a.handle
  | .session c _ | .flush c _ | .ping c _ | .closeChannel c => c

/-- A call about one channel leaves the record of the others alone. -/
theorem mem_log_of_ne (r : Record) (call : RsslCall) (k : UInt64) (hk : k ≠ channelOf call) :
    (k ∈ (r.log call).queued ↔ k ∈ r.queued)
      ∧ (k ∈ (r.log call).unflushed ↔ k ∈ r.unflushed) := by
  cases call with
  | session c e =>
      have hne : k ≠ c := hk
      cases e with
      | writeEx out direct rc =>
          simp only [log]
          split
          · simp [hne]
          · exact ⟨Iff.rfl, Iff.rfl⟩
      | getBuffer | releaseBuffer | onRequest => exact ⟨Iff.rfl, Iff.rfl⟩
  | flush c rc =>
      have hne : k ≠ c := hk
      simp only [log]
      split <;> simp [hne]
  | accept a =>
      have hne : k ≠ a.handle := hk
      simp [log, hne]
  | ping | nak | closeChannel => exact ⟨Iff.rfl, Iff.rfl⟩

theorem mem_logAll_of_ne (r : Record) (calls : List RsslCall) (k : UInt64)
    (h : ∀ call ∈ calls, k ≠ channelOf call) :
    (k ∈ (r.logAll calls).queued ↔ k ∈ r.queued)
      ∧ (k ∈ (r.logAll calls).unflushed ↔ k ∈ r.unflushed) := by
  induction calls generalizing r with
  | nil => exact ⟨Iff.rfl, Iff.rfl⟩
  | cons call rest ih =>
      obtain ⟨hqueued, hunflushed⟩ := mem_log_of_ne r call k (h call List.mem_cons_self)
      obtain ⟨hqueued', hunflushed'⟩ :=
        ih (r.log call) fun call' hc => h call' (List.mem_cons_of_mem call hc)
      exact ⟨hqueued'.trans hqueued, hunflushed'.trans hunflushed⟩

/-- Unflushed output is queued. -/
theorem unflushed_subset (r : Record) (calls : List RsslCall) (h : r.unflushed ⊆ r.queued) :
    (r.logAll calls).unflushed ⊆ (r.logAll calls).queued := by
  induction calls generalizing r with
  | nil => exact h
  | cons call rest ih =>
      refine ih (r.log call) ?_
      cases call with
      | session c e =>
          cases e with
          | writeEx out direct rc =>
              simp only [log]
              split
              · exact Finset.insert_subset_insert c h
              · exact h
          | getBuffer | releaseBuffer | onRequest => exact h
      | flush c rc =>
          simp only [log]
          split
          · exact Finset.erase_subset_erase c h
          · exact (Finset.erase_subset c _).trans h
      | accept a => exact Finset.erase_subset_erase a.handle h
      | ping | nak | closeChannel => exact h

/-- The last call is a flush. -/
theorem unflushed_flushCalls (r : Record) (calls : List RsslCall) (c : UInt64)
    (loop : FlushLoop) : c ∉ (r.logAll (calls ++ Pump.flushCalls c loop)).unflushed := by
  rw [logAll, Pump.flushCalls, ← List.append_assoc, List.foldl_append, List.foldl_cons,
    List.foldl_nil]
  exact Finset.notMem_erase c _

/-- A loop that ends with a success flushed the channel. -/
theorem queued_flushCalls (r : Record) (calls : List RsslCall) (c : UInt64) (loop : FlushLoop)
    (hflushed : loop.flushed = true) :
    c ∉ (r.logAll (calls ++ Pump.flushCalls c loop)).queued := by
  rw [logAll, Pump.flushCalls, hflushed, ← List.append_assoc, List.foldl_append, List.foldl_cons,
    List.foldl_nil]
  exact Finset.notMem_erase c _

end Record

/-! ## Marks that are kept -/

/-- RSSL has not taken the channel out of service. -/
def Link.isOpen (l : Link) : Bool :=
  decide (l.state ≠ .closed ∧ l.state ≠ .inactive)

/-- The connections whose channel is open. -/
def Pump.openConnections (p : Pump) : List UInt64 :=
  p.connections.filter fun c => (p.links c).isOpen

/-- The channel whose mark a step clears. -/
def Pump.clears (p : Pump) : Op → Option UInt64
  | .write i .success _ => p.connections[i]?.filter fun c => decide (p.socketId c ∈ p.outWfds)
  | .disconnect i _ => p.connections[i]?.filter fun c => decide (p.socketId c ∈ p.outEfds)
  | .notify c _ _ loop _ => if loop.flushed then some c else none
  | _ => none

/-- `Close` starts its pump. -/
def Pump.drains (p : Pump) : Op → Bool
  | .drain => p.mustDrain
  | _ => false

namespace Machine

/-- The sockets of the open connections with queued output are marked. -/
def KeepsPending (m : Machine) : Prop :=
  Covers m.pump.openConnections m.pump.socketId m.record.queued m.pump.view.inWfds

/-- A step that unmarks no queued output: RSSL gives no such channel an unmarked socket, `Close`
    does not start its pump, and the socket that is cleared is not that of another such
    connection. -/
structure KeepsMarks (m : Machine) (op : Op) : Prop where
  moves : ∀ x ∈ m.pump.movesTo op, x.1 ∈ m.record.queued → x.2 ∈ m.pump.view.inWfds
  drains : m.pump.drains op = true → ∀ c ∈ m.pump.openConnections, c ∉ m.record.queued
  clears : ∀ c ∈ m.pump.clears op, ∀ k ∈ m.pump.openConnections, k ≠ c → k ∈ m.record.queued →
    m.pump.socketId k ≠ m.pump.socketId c

instance (m : Machine) (op : Op) : Decidable (m.KeepsMarks op) :=
  decidable_of_iff ((∀ x ∈ m.pump.movesTo op, x.1 ∈ m.record.queued → x.2 ∈ m.pump.view.inWfds)
    ∧ (m.pump.drains op = true → ∀ c ∈ m.pump.openConnections, c ∉ m.record.queued)
    ∧ ∀ c ∈ m.pump.clears op, ∀ k ∈ m.pump.openConnections, k ≠ c → k ∈ m.record.queued →
      m.pump.socketId k ≠ m.pump.socketId c)
    ⟨fun h => ⟨h.1, h.2.1, h.2.2⟩, fun h => ⟨h.moves, h.drains, h.clears⟩⟩

/-- A message written on an open channel with queued output is queued behind it. -/
def WritesBehind (m : Machine) (op : Op) : Prop :=
  ∀ h, m.pump.exec op = some h → ∀ c ∈ m.pump.openConnections, ∀ out direct rc,
    RsslCall.session c (.writeEx out direct rc) ∈ h.calls → c ∈ m.record.queued → direct = false

/-- No active channel is closed by `Close` with output that it did not try to flush. -/
def FlushesFirst (m : Machine) (op : Op) : Prop :=
  ∀ left, op = .teardown left → ∀ c ∈ m.pump.connections, (m.pump.links c).state = .active →
    c ∉ m.record.unflushed

end Machine

/-! ## Open connections -/

namespace Pump

theorem mem_openConnections (p : Pump) (c : UInt64) :
    c ∈ p.openConnections ↔ c ∈ p.connections ∧ (p.links c).isOpen = true :=
  List.mem_filter

/-- A channel out of service is not open. -/
theorem isOpen_of_stateKept (p p' : Pump) (hstate : StateKept p p') (c : UInt64)
    (hopen : (p'.links c).isOpen = true) : (p.links c).isOpen = true := by
  rcases hstate c with hsame | ⟨d, hdown⟩
  · rwa [Link.isOpen, ← hsame]
  · rw [Link.isOpen, hdown] at hopen
    cases d <;> simp [Down.state] at hopen

theorem open_of_serves (p p' : Pump) (hbooks : p'.books = p.books) (hstate : StateKept p p')
    (c : UInt64) (hc : c ∈ p'.openConnections) : c ∈ p.openConnections := by
  rw [mem_openConnections, connections_of_books hbooks] at hc
  exact (mem_openConnections p c).mpr ⟨hc.1, isOpen_of_stateKept p p' hstate c hc.2⟩

/-- Only the link of an open channel changes. -/
theorem open_of_link (p p' : Pump) (c k : UInt64) (hk : k ∈ p'.openConnections)
    (hc : (p.links c).isOpen = true) (hconnections : p'.connections = p.connections)
    (hlinks : k ≠ c → p'.links k = p.links k) : k ∈ p.openConnections := by
  rw [mem_openConnections, hconnections] at hk
  refine (mem_openConnections p k).mpr ⟨hk.1, ?_⟩
  by_cases hkc : k = c
  · rw [hkc]
    exact hc
  · rw [← hlinks hkc]
    exact hk.2

theorem links_leave_of_ne (p : Pump) (c : UInt64) (left : Option Down) (k : UInt64) (hk : k ≠ c) :
    (p.leave c left).links k = p.links k := by
  cases left with
  | none => rfl
  | some d => simp only [leave, setLink, Function.update_of_ne hk]

/-- A channel that is disconnected is closed. -/
theorem open_of_disconnect (p : Pump) (i : Nat) (c : UInt64) (left : Down) (k : UInt64)
    (hk : k ∈ (p.disconnect i c left).pump.openConnections) : k ∈ p.openConnections ∧ k ≠ c := by
  obtain ⟨hmem, hopen⟩ := (mem_openConnections _ k).mp hk
  unfold disconnect at hmem hopen
  split at hmem
  · next hclosed =>
      rw [if_pos hclosed] at hopen
      refine ⟨(mem_openConnections p k).mpr ⟨List.mem_of_mem_eraseIdx hmem, hopen⟩, ?_⟩
      rintro rfl
      exact absurd hopen (by simp [Link.isOpen, remove, unwatch, hclosed])
  · next hclosed =>
      rw [if_neg hclosed] at hopen
      have hne : k ≠ c := by
        rintro rfl
        simp only [closeChannel, leave, setLink, Function.update_self] at hopen
        cases left <;> exact absurd hopen (by simp [Link.isOpen, Down.state])
      rw [closeChannel, links_leave_of_ne _ c _ k hne] at hopen
      exact ⟨(mem_openConnections p k).mpr ⟨List.mem_of_mem_eraseIdx hmem, hopen⟩, hne⟩

/-- An open connection with queued output was open before, as nothing is queued on a new one. -/
theorem open_of_queued (p : Pump) (r : Record) (op : Op) (h : Handled) (hrun : p.exec op = some h)
    (k : UInt64) (hk : k ∈ h.pump.openConnections) (hmark : k ∈ (r.logAll h.calls).queued) :
    k ∈ p.openConnections := by
  have hin : ∀ c, (p.links c).state = .initializing ∨ (p.links c).state = .active →
      (p.links c).isOpen = true := by
    rintro c (hstate | hstate) <;> simp [Link.isOpen, hstate]
  cases exec_cases p op h hrun with
  | serves _ _ hserves => exact open_of_serves p h.pump hserves.books hserves.state k hk
  | accepted a listening hsock hready haccepting hroom =>
      obtain ⟨hne, -⟩ := Finset.mem_erase.mp hmark
      obtain ⟨hmem, hopen⟩ := (mem_openConnections _ k).mp hk
      refine (mem_openConnections p k).mpr ⟨?_, ?_⟩
      · rcases List.mem_append.mp hmem with hold | hnew
        · exact hold
        · exact absurd (List.mem_singleton.mp hnew) hne
      · simpa [acceptConnection, watch, setLink, setChannel, clearRead, hne] using hopen
  | rejected i c majorVersion minorVersion pingTimeout session left hreading hstate hreject =>
      refine open_of_link p _ c k hk (hin c (.inl hstate)) rfl fun hne => ?_
      simp [watch, leave, setLink, activate, setChannel, clearRead, hne]
  | threw i c majorVersion minorVersion pingTimeout left hreading hstate haccept =>
      refine open_of_link p _ c k hk (hin c (.inl hstate)) rfl fun hne => ?_
      simp [watch, setLink, activate, setChannel, clearRead, hne]
  | opened i c majorVersion minorVersion pingTimeout address directoryToken emplaced left q hreading
      hstate haccept hfresh hq =>
      have hothers : k ≠ c → q.links k = p.links k := fun hne => by
        rw [hq]
        simp [setLink, activate, setChannel, clearRead, hne]
      subst hq
      cases emplaced with
      | true => exact open_of_link p _ c k hk (hin c (.inl hstate)) rfl hothers
      | false => exact open_of_link p _ c k hk (hin c (.inl hstate)) rfl hothers
  | reconnected i c newSocket left hreading hstate =>
      refine open_of_link p _ c k hk (hin c (.inr hstate)) (by rw [leave_eq]; rfl) fun hne => ?_
      have hleave : ((p.clearRead (p.socketId c)).leave c left).links k = p.links k :=
        links_leave_of_ne _ c left k hne
      simpa [onFdChange, watch, unwatch, reconnect, setLink, setChannel, hne] using hleave
  | fellThrough i c ret left hreading hstate =>
      exact open_of_link p _ c k hk (hin c (.inr hstate)) (by rw [leave_eq]; rfl) fun hne =>
        links_leave_of_ne (p.clearRead (p.socketId c)) c left k hne
  | flushed i c left p' hc hready hflushes =>
      exact open_of_serves p p' hflushes.books hflushes.state k hk
  | disconnected i c left hc hefds => exact (open_of_disconnect p i c left k hk).1
  | notified c env left leftByFlush loop h' p' hclient hserves hflushed hflushes =>
      exact open_of_serves p p' (hflushes.books.trans hserves.books)
        (stateKept_trans p h'.pump p' hserves.state hflushes.state) k hk
  | tornDown left => exact absurd hk List.not_mem_nil
  | reset | downgraded | closing => exact hk

/-! ## Marks and steps -/

section Covers

variable (cs : List UInt64) (p p' : Pump) (queued queued' : Finset UInt64)

/-- The same sockets. -/
theorem covers_congr (hsocket : ∀ c, p'.socketId c = p.socketId c)
    (hkept : p.view.inWfds ⊆ p'.view.inWfds)
    (hqueued : ∀ c ∈ queued', c ∈ queued ∨ p.socketId c ∈ p'.view.inWfds)
    (hp : Covers cs p.socketId queued p.view.inWfds) :
    Covers cs p'.socketId queued' p'.view.inWfds := by
  have hid : p'.socketId = p.socketId := funext hsocket
  rw [hid]
  exact covers_mark _ _ _ _ _ _ hp hkept hqueued

theorem covers_serves (r : Record) (h : Handled) (hserves : p.Serves h)
    (hp : Covers cs p.socketId r.queued p.view.inWfds) :
    Covers cs h.pump.socketId (r.logAll h.calls).queued h.pump.view.inWfds := by
  refine covers_congr cs p h.pump _ _ (socketId_of_books hserves.books) hserves.kept
    (fun c hc => ?_) hp
  exact (Record.mem_queued_harmless p _ r h.calls hserves.calls c hc).imp_right And.right

/-- A channel moves to another socket: if it has queued output, that socket is marked. -/
theorem covers_move (c : UInt64) (newSocket : Nat) (hself : p'.socketId c = newSocket)
    (hothers : ∀ k, k ≠ c → p'.socketId k = p.socketId k)
    (hwfds : p'.view.inWfds = p.view.inWfds) (hmark : c ∈ queued → newSocket ∈ p.view.inWfds)
    (hp : Covers cs p.socketId queued p.view.inWfds) :
    Covers cs p'.socketId queued p'.view.inWfds := by
  rw [hwfds]
  refine covers_renumber _ _ _ _ _ c hp hothers fun hc => ?_
  rw [hself]
  exact hmark hc

/-- A flush clears the mark of its channel only. -/
theorem covers_flushes (c : UInt64) (hflushes : p.Flushes c p')
    (hqueued : ∀ k ∈ queued', k ∈ queued ∧ k ≠ c)
    (hunused : ∀ k ∈ cs, k ≠ c → k ∈ queued → p.socketId k ≠ p.socketId c)
    (hp : Covers cs p.socketId queued p.view.inWfds) :
    Covers cs p'.socketId queued' p'.view.inWfds := by
  have hid : p'.socketId = p.socketId := funext (socketId_of_books hflushes.books)
  rw [hid, hflushes.wfds]
  refine covers_drop _ _ _ _ _ _ hp (fun k hk => (hqueued k hk).1) ?_
  intro k hk hmark
  obtain ⟨hold, hne⟩ := hqueued k hmark
  exact hunused k hk hne hold

theorem covers_accept (a : Accepted) (hp : Covers cs p.socketId queued p.view.inWfds) :
    Covers cs (p.acceptConnection (some a)).pump.socketId (queued.erase a.handle)
      (p.acceptConnection (some a)).pump.view.inWfds := by
  intro c hc hmark
  obtain ⟨hne, hold⟩ := Finset.mem_erase.mp hmark
  have hsocket : (p.acceptConnection (some a)).pump.socketId c = p.socketId c := by
    simp [acceptConnection, watch, setLink, setChannel, socketId, hne]
  rw [hsocket]
  exact hp c hc hold

end Covers

theorem queued_disconnect (p : Pump) (r : Record) (i : Nat) (c : UInt64) (left : Down) :
    (r.logAll (p.disconnect i c left).calls).queued = r.queued := by
  unfold disconnect
  split <;> rfl

theorem keys_disconnect (p : Pump) (i : Nat) (c : UInt64) (left : Down) :
    (p.disconnect i c left).pump.keys = (p.remove i c).keys := by
  rw [disconnect_eq]
  rfl

/-! ## Notifying a client -/

theorem channelOf_flushCalls (c : UInt64) (loop : FlushLoop) (call : RsslCall)
    (hmem : call ∈ flushCalls c loop) : Record.channelOf call = c := by
  simp only [flushCalls, List.mem_append, List.mem_replicate, List.mem_singleton] at hmem
  rcases hmem with ⟨-, rfl⟩ | rfl
  · rfl
  · rfl

/-- The calls concern one channel, which is flushed unless nothing is pending on it. -/
theorem notify_calls (p : Pump) (c : UInt64) (env : Env) (left : Option Down) (loop : FlushLoop)
    (leftByFlush : Option Down) (h : Handled)
    (hrun : p.notify c env left loop leftByFlush = some h) :
    (∀ call ∈ h.calls, Record.channelOf call = c)
      ∧ ((∃ calls, h.calls = calls ++ flushCalls c loop)
        ∨ ((h.pump.links c).state = .active → h.pump.socketId c ∉ h.pump.view.inWfds)) := by
  obtain ⟨client, -, hclose⟩ := Option.bind_eq_some_iff.mp hrun
  obtain ⟨d, -, rfl⟩ := Option.map_eq_some_iff.mp hclose
  have hsession : ∀ call ∈ d.events.map (RsslCall.session c), Record.channelOf call = c := by
    intro call hmem
    obtain ⟨e, -, rfl⟩ := List.mem_map.mp hmem
    rfl
  unfold flushStream
  split
  · have hcalls : ∀ call ∈ d.events.map (RsslCall.session c) ++ flushCalls c loop,
        Record.channelOf call = c := by
      intro call hmem
      rcases List.mem_append.mp hmem with hevent | hflush
      · exact hsession call hevent
      · exact channelOf_flushCalls c loop call hflush
    split
    · exact ⟨hcalls, .inl ⟨_, rfl⟩⟩
    · exact ⟨hcalls, .inl ⟨_, rfl⟩⟩
  · next hnone =>
      simp only [List.append_nil]
      exact ⟨hsession, .inr fun hstate hmark => hnone ⟨hstate, hmark⟩⟩

end Pump

/-! ## One step -/

namespace Machine

/-- After a client is notified, nothing is newly queued on other channels. -/
theorem queued_notified (m : Machine) (c : UInt64) (env : Env) (left leftByFlush : Option Down)
    (loop : FlushLoop) (h : Handled) (hflushed : loop.flushed = true) (calls : List RsslCall)
    (hcalls : h.calls = calls ++ Pump.flushCalls c loop)
    (hexec : m.pump.exec (.notify c env left loop leftByFlush) = some h) :
    ∀ k ∈ (m.record.logAll h.calls).queued, k ∈ m.record.queued ∧ k ≠ c := by
  intro k hk
  have hnotify := (Pump.notify_calls m.pump c env left loop leftByFlush h hexec).1
  have hne : k ≠ c := by
    rintro rfl
    rw [hcalls] at hk
    exact Record.queued_flushCalls m.record calls k loop hflushed hk
  refine ⟨((Record.mem_logAll_of_ne m.record _ k fun call hmem => ?_).1).mp hk, hne⟩
  rw [hnotify call hmem]
  exact hne

/-- The marks of connections that stay open are kept in a step that unmarks no queued output. -/
theorem covers_exec (m : Machine) (op : Op) (h : Handled) (pc : Pc)
    (hexec : m.pump.exec op = some h) (hcontrol : control m.pc m.pump op h.pump = some pc)
    (hstart : m.pc = .ready → m.pump.connections = []) (hkeeps : m.KeepsMarks op)
    (cs : List UInt64) (hwere : ∀ c ∈ cs, c ∈ m.pump.openConnections)
    (hare : ∀ c ∈ cs, c ∈ h.pump.openConnections)
    (hm : Covers cs m.pump.socketId m.record.queued m.pump.view.inWfds) :
    Covers cs h.pump.socketId (m.record.logAll h.calls).queued h.pump.view.inWfds := by
  have hmoves := hkeeps.moves
  have hclears := hkeeps.clears
  cases Pump.exec_cases m.pump op h hexec with
  | serves _ _ hserves => exact Pump.covers_serves cs m.pump m.record h hserves hm
  | reset _ listening hop hsock =>
      refine covers_empty _ _ _ _ fun c hc => ?_
      rcases hop with rfl | ⟨rfl, hdrain⟩
      · have hmem := ((m.pump.mem_openConnections c).mp (hwere c hc)).1
        rw [hstart (control_start m.pc pc m.pump _ hcontrol)] at hmem
        exact absurd hmem List.not_mem_nil
      · exact hkeeps.drains hdrain c (hwere c hc)
  | accepted a listening hsock hready haccepting hroom =>
      exact Pump.covers_accept cs (m.pump.clearRead listening) m.record.queued a hm
  | downgraded i c newSocket session left hreading hstate =>
      refine Pump.covers_move cs m.pump _ _ c newSocket ?_ ?_ rfl ?_ hm
      · simp [Pump.socketId, Pump.watch, Pump.unwatch, Pump.downgrade, Pump.setChannel]
      · intro k hk
        simp [Pump.socketId, Pump.watch, Pump.unwatch, Pump.downgrade, Pump.setChannel,
          Pump.clearRead, hk]
      · exact hmoves (c, newSocket)
          (Pump.movesTo_of_initializing m.pump i c newSocket session left hreading hstate)
  | rejected i c majorVersion minorVersion pingTimeout session left hreading hstate hreject =>
      exact Pump.covers_congr cs m.pump _ _ _
        (fun k => Pump.socketId_activate (m.pump.clearRead (m.pump.socketId c)) c _ _ _ k)
        (fun _ hs => hs) (fun _ hk => .inl hk) hm
  | threw i c majorVersion minorVersion pingTimeout left hreading hstate haccept =>
      exact Pump.covers_congr cs m.pump _ _ _
        (fun k => Pump.socketId_activate (m.pump.clearRead (m.pump.socketId c)) c _ _ _ k)
        (fun _ hs => hs) (fun _ hk => .inl hk) hm
  | opened i c majorVersion minorVersion pingTimeout address directoryToken emplaced left q hreading
      hstate haccept hfresh hq =>
      have hsocket : ∀ k, q.socketId k = m.pump.socketId k := by
        rw [hq]
        exact Pump.socketId_activate (m.pump.clearRead (m.pump.socketId c)) c _ _ _
      subst hq
      cases emplaced with
      | true =>
          exact Pump.covers_congr cs m.pump _ _ _
            (fun k => (Pump.socketId_acceptClientSession _ c address _ k).trans (hsocket k))
            (fun _ hs => hs) (fun _ hk => .inl hk) hm
      | false =>
          exact Pump.covers_congr cs m.pump _ _ _ hsocket (fun _ hs => hs)
            (fun _ hk => .inl hk) hm
  | reconnected i c newSocket left hreading hstate =>
      rw [Pump.leave_eq]
      refine Pump.covers_move cs m.pump _ _ c newSocket ?_ ?_ rfl ?_ hm
      · simp [Pump.onFdChange, Pump.socketId, Pump.watch, Pump.unwatch, Pump.reconnect,
          Pump.setChannel]
      · intro k hk
        simp [Pump.onFdChange, Pump.socketId, Pump.watch, Pump.unwatch, Pump.reconnect,
          Pump.setChannel, Pump.setLink, Pump.clearRead, hk]
      · exact hmoves (c, newSocket)
          (Pump.movesTo_of_active m.pump i c newSocket left hreading hstate)
  | fellThrough i c ret left hreading hstate =>
      rw [Pump.leave_eq]
      exact Pump.covers_congr cs m.pump _ _ _ (fun _ => rfl) (fun _ hs => hs)
        (fun _ hk => .inl hk) hm
  | flushed i c left p' hc hready hflushes =>
      have hclear : m.pump.clears (.write i .success left) = some c := by
        simp [Pump.clears, hc, Option.filter, hready]
      exact Pump.covers_flushes cs m.pump p' m.record.queued _ c hflushes
        (fun k hk => (Finset.mem_erase.mp hk).symm)
        (fun k hk hne hmark => hclears c hclear k (hwere k hk) hne hmark) hm
  | disconnected i c left hc hefds =>
      have hclear : m.pump.clears (.disconnect i left) = some c := by
        simp [Pump.clears, hc, Option.filter, hefds]
      have hne : ∀ k ∈ cs, k ≠ c := fun k hk =>
        (Pump.open_of_disconnect m.pump i c left k (hare k hk)).2
      rw [Pump.queued_disconnect, Pump.disconnect_eq]
      exact covers_drop _ _ _ _ _ _ hm (fun _ hk => hk)
        (fun k hk hmark => hclears c hclear k (hwere k hk) (hne k hk) hmark)
  | closing =>
      exact Pump.covers_congr cs m.pump _ _ _ (fun _ => rfl) (fun _ hs => hs)
        (fun _ hk => .inl hk) hm
  | notified c env left leftByFlush loop h' p' hclient hserves hflushed hflushes =>
      have hclear : m.pump.clears (.notify c env left loop leftByFlush) = some c :=
        if_pos hflushed
      have hsocket := Pump.socketId_of_books hserves.books
      refine Pump.covers_flushes cs h'.pump p' m.record.queued _ c hflushes
        (queued_notified m c env left leftByFlush loop _ hflushed _ rfl hexec)
        (fun k hk hne hmark => ?_) ?_
      · rw [hsocket, hsocket]
        exact hclears c hclear k (hwere k hk) hne hmark
      · exact Pump.covers_congr cs m.pump h'.pump _ _ hsocket hserves.kept
          (fun _ hk => .inl hk) hm
  | tornDown left => exact fun c hc => absurd (hare c hc) List.not_mem_nil

/-- **The marks are kept in a step that unmarks no queued output.** -/
theorem keepsPending_step (m m' : Machine) (op : Op)
    (hstart : m.pc = .ready → m.pump.connections = []) (hkeeps : m.KeepsMarks op)
    (hm : m.KeepsPending) (hstep : m.step op = some m') : m'.KeepsPending := by
  obtain ⟨h, pc, hexec, hcontrol, rfl⟩ := (step_eq_some m m' op).mp hstep
  intro c hc hmark
  have hwas := Pump.open_of_queued m.pump m.record op h hexec c hc hmark
  refine covers_exec m op h pc hexec hcontrol hstart hkeeps [c] ?_ ?_ ?_ c
    (List.mem_singleton_self c) hmark
  · exact fun k hk => List.mem_singleton.mp hk ▸ hwas
  · exact fun k hk => List.mem_singleton.mp hk ▸ hc
  · exact covers_members _ _ _ _ _ hm fun k hk => List.mem_singleton.mp hk ▸ hwas

/-- **Output is written behind output that is queued**, if the marks were kept. -/
theorem writesBehind_of_kept (m : Machine) (op : Op) (hm : m.KeepsPending) :
    m.WritesBehind op := by
  intro h hexec c hc out direct rc hmem hqueued
  have hserved : ∀ h', m.pump.Serves h' → RsslCall.session c (.writeEx out direct rc) ∈ h'.calls →
      direct = false := by
    intro h' hserves hmem'
    obtain ⟨-, hdirect, -⟩ := hserves.calls _ hmem'
    exact Bool.eq_false_iff.mpr fun htrue => hdirect htrue (hm c hc hqueued)
  cases Pump.exec_cases m.pump op h hexec with
  | serves _ _ hserves => exact hserved h hserves hmem
  | notified c' env left leftByFlush loop h' p' hclient hserves hflushed hflushes =>
      rcases List.mem_append.mp hmem with hevent | hflush
      · exact hserved h' hserves hevent
      · simp [Pump.flushCalls] at hflush
  | disconnected i c' left hc hefds =>
      unfold Pump.disconnect at hmem
      split at hmem
      · exact absurd hmem List.not_mem_nil
      · simp [Pump.closeChannel] at hmem
  | tornDown left => simp [Pump.teardown, Pump.closeConnections_calls] at hmem
  | _ => simp [Pump.acceptConnection] at hmem

end Machine

/-! ## Closing -/

namespace Machine

/-- Open connections with queued output have a client. -/
def Keyed (m : Machine) : Prop :=
  ∀ c ∈ m.pump.openConnections, c ∈ m.record.queued → c ∈ m.pump.keys

/-- `Close` has yet to notify the clients of active connections with output not flushed. -/
def YetToFlush (m : Machine) : Prop :=
  ∀ todo, m.pc = .notifying todo → ∀ c ∈ m.pump.connections, (m.pump.links c).state = .active →
    c ∈ m.record.unflushed → c ∈ todo

theorem keyed_step (m m' : Machine) (op : Op) (hcoherent : m.pump.Coherent) (hm : m.Keyed)
    (hstep : m.step op = some m') : m'.Keyed := by
  obtain ⟨h, pc, hexec, -, rfl⟩ := (step_eq_some m m' op).mp hstep
  intro c hc hmark
  have hwas := Pump.open_of_queued m.pump m.record op h hexec c hc hmark
  cases Pump.exec_cases m.pump op h hexec with
  | serves _ _ hserves =>
      rw [Pump.keys_of_books hserves.books]
      rcases Record.mem_queued_harmless m.pump _ m.record h.calls hserves.calls c hmark with
        hold | ⟨hclient, -⟩
      · exact hm c hwas hold
      · exact (hcoherent.hasClient c).mp hclient
  | accepted a listening hsock hready haccepting hroom =>
      exact hm c hwas (Finset.mem_of_mem_erase hmark)
  | opened i k majorVersion minorVersion pingTimeout address directoryToken emplaced left q hreading
      hstate haccept hfresh hq =>
      have hkey := hm c hwas hmark
      subst hq
      cases emplaced with
      | true =>
          exact (Pump.mem_keys_acceptClientSession _ k address directoryToken c).mpr (.inl hkey)
      | false => exact hkey
  | flushed i k left p' hk hready hflushes =>
      rw [Pump.keys_of_books hflushes.books]
      exact hm c hwas (Finset.mem_of_mem_erase hmark)
  | disconnected i k left hk hefds =>
      rw [Pump.queued_disconnect] at hmark
      rw [Pump.keys_disconnect, Pump.keys_remove]
      exact ⟨hm c hwas hmark, (Pump.open_of_disconnect m.pump i k left c hc).2⟩
  | notified k env left leftByFlush loop h' p' hclient hserves hflushed hflushes =>
      rw [Pump.keys_of_books (hflushes.books.trans hserves.books)]
      exact hm c hwas
        (queued_notified m k env left leftByFlush loop _ hflushed _ rfl hexec c hmark).1
  | reconnected i k newSocket left hreading hstate =>
      rw [Pump.leave_eq]
      exact hm c hwas hmark
  | fellThrough i k ret left hreading hstate =>
      rw [Pump.leave_eq]
      exact hm c hwas hmark
  | tornDown left => exact absurd hc List.not_mem_nil
  | reset | downgraded | rejected | threw | closing => exact hm c hwas hmark

/-- The notifications of `Close` start with all clients, or go on. -/
theorem control_notifying (pc : Pc) (p p' : Pump) (op : Op) (todo : List UInt64)
    (h : control pc p op p' = some (.notifying todo)) :
    (todo = p.keys ∧ p.exec op = some ⟨p, []⟩)
      ∨ ∃ c env left loop leftByFlush rest, op = .notify c env left loop leftByFlush
        ∧ pc = .notifying rest ∧ todo = rest.erase c := by
  cases control_flow pc _ p p' op h with
  | drained => exact .inl ⟨rfl, rfl⟩
  | skip hskip => exact .inl ⟨rfl, if_neg (Bool.eq_false_iff.mp hskip)⟩
  | notify rest c env left loop leftByFlush =>
      exact .inr ⟨c, env, left, loop, leftByFlush, rest, rfl, rfl, rfl⟩

/-- Notifying a client keeps the books. -/
theorem notify_books (p : Pump) (c : UInt64) (env : Env) (left : Option Down) (loop : FlushLoop)
    (leftByFlush : Option Down) (h : Handled)
    (hexec : p.exec (.notify c env left loop leftByFlush) = some h) :
    h.pump.books = p.books ∧ Pump.StateKept p h.pump := by
  cases Pump.exec_cases p _ h hexec with
  | serves _ _ hserves => exact ⟨hserves.books, hserves.state⟩
  | reset _ listening hop hsock => simp at hop
  | notified _ _ _ _ _ h' p' hclient hserves hflushed hflushes =>
      exact ⟨hflushes.books.trans hserves.books,
        Pump.stateKept_trans p h'.pump p' hserves.state hflushes.state⟩

theorem yetToFlush_step (m m' : Machine) (op : Op) (hkeyed : m.Keyed)
    (hunflushed : m.record.unflushed ⊆ m.record.queued) (hpending : m'.KeepsPending)
    (hunflushed' : m'.record.unflushed ⊆ m'.record.queued) (hm : m.YetToFlush)
    (hstep : m.step op = some m') : m'.YetToFlush := by
  obtain ⟨h, pc, hexec, hcontrol, rfl⟩ := (step_eq_some m m' op).mp hstep
  intro todo htodo k hk hstate hmark
  obtain rfl : pc = .notifying todo := htodo
  have hopen : ∀ c ∈ h.pump.connections, (h.pump.links c).state = .active →
      c ∈ h.pump.openConnections := fun c hc hactive =>
    (h.pump.mem_openConnections c).mpr ⟨hc, by simp [Link.isOpen, hactive]⟩
  rcases control_notifying m.pc m.pump h.pump op todo hcontrol with
    ⟨rfl, hidle⟩ | ⟨c, env, left, loop, leftByFlush, rest, rfl, hpc, rfl⟩
  · obtain rfl := Option.some.inj (hidle.symm.trans hexec)
    exact hkeyed k (hopen k hk hstate) (hunflushed hmark)
  · obtain ⟨hcalls, hflush⟩ :=
      Pump.notify_calls m.pump c env left loop leftByFlush h hexec
    obtain ⟨hbooks, hkept⟩ := notify_books m.pump c env left loop leftByFlush h hexec
    by_cases hne : k = c
    · subst hne
      -- the loop over its flushes was entered, or nothing was pending
      rcases hflush with ⟨calls, hcalls'⟩ | hnone
      · rw [hcalls'] at hmark
        exact absurd hmark (Record.unflushed_flushCalls m.record calls k loop)
      · exact absurd (hpending k (hopen k hk hstate) (hunflushed' hmark)) (hnone hstate)
    · refine (List.mem_erase_of_ne hne).mpr (hm rest hpc k ?_ ?_ ?_)
      · rwa [← Pump.connections_of_books hbooks]
      · rcases hkept k with hsame | ⟨d, hdown⟩
        · rwa [← hsame]
        · rw [hdown] at hstate
          cases d <;> simp [Down.state] at hstate
      · refine ((Record.mem_logAll_of_ne m.record _ k fun call hmem => ?_).2).mp hmark
        rw [hcalls call hmem]
        exact hne

/-- What goes with the marks in every state. -/
structure Minded (m : Machine) : Prop where
  coherent : m.pump.Coherent
  pending : m.KeepsPending
  start : m.pc = .ready → m.pump.connections = []
  unflushed : m.record.unflushed ⊆ m.record.queued
  keyed : m.Keyed
  yetToFlush : m.YetToFlush

theorem minded_init (m : Machine) (hm : m.init) : m.Minded := by
  have hcoherent := coherent_init m hm
  obtain ⟨hready, hconnections, -, -, -, hrecord⟩ := hm
  refine ⟨hcoherent, fun c _ hmark => ?_, fun _ => hconnections, ?_, fun c _ hmark => ?_,
    fun todo htodo => ?_⟩
  · rw [hrecord] at hmark
    exact absurd hmark (Finset.notMem_empty c)
  · rw [hrecord]
  · rw [hrecord] at hmark
    exact absurd hmark (Finset.notMem_empty c)
  · exact absurd (hready.symm.trans htodo) (by simp)

theorem minded_step (m m' : Machine) (op : Op) (hkeeps : m.KeepsMarks op) (hm : m.Minded)
    (hstep : m.step op = some m') : m'.Minded := by
  have hpending := keepsPending_step m m' op hm.start hkeeps hm.pending hstep
  have hunflushed : m'.record.unflushed ⊆ m'.record.queued := by
    obtain ⟨h, pc, -, -, rfl⟩ := (step_eq_some m m' op).mp hstep
    exact Record.unflushed_subset m.record h.calls hm.unflushed
  refine ⟨coherent_step m m' op hm.coherent hstep, hpending, fun hready => ?_, hunflushed,
    keyed_step m m' op hm.coherent hm.keyed hstep,
    yetToFlush_step m m' op hm.keyed hm.unflushed hpending hunflushed hm.yetToFlush hstep⟩
  obtain ⟨h, pc, -, hcontrol, rfl⟩ := (step_eq_some m m' op).mp hstep
  obtain rfl : pc = .ready := hready
  exact absurd hcontrol (control_ne_ready m.pc m.pump h.pump op)

/-- `Close` comes to its last pass with every client notified. -/
theorem flushesFirst_of_minded (m m' : Machine) (op : Op) (hm : m.Minded)
    (hstep : m.step op = some m') : m.FlushesFirst op := by
  rintro left rfl c hc hstate hmark
  obtain ⟨h, pc, -, hcontrol, -⟩ := (step_eq_some m m' _).mp hstep
  have hpc := control_teardown m.pc pc m.pump h.pump left hcontrol
  exact absurd (hm.yetToFlush [] hpc c hc hstate hmark) List.not_mem_nil

end Machine

/-! ## Runs -/

/-- **Pending output is not forgotten in a run whose steps unmark no queued output**: every open
    connection with queued output is marked, so that what is written later goes behind it, and
    `Close` flushes it before it closes the channel. -/
theorem pending_kept (m₀ : Machine) (p : Steps Machine Op) (hrun : pumpSystem.Run m₀ p)
    (hkeeps : Along (fun m op _ => m.KeepsMarks op) m₀ p) :
    m₀.KeepsPending
      ∧ Along (fun m op m' => m'.KeepsPending ∧ m.WritesBehind op ∧ m.FlushesFirst op) m₀ p := by
  have hinit := Machine.minded_init m₀ hrun.1
  let taken : Machine → Op → Machine → Prop := fun m op m' =>
    m.step op = some m' ∧ m.KeepsMarks op
  have hall : Along taken m₀ p := (along_and _ _ m₀ p).mpr ⟨hrun.2, hkeeps⟩
  have hinv := along_invariant taken Machine.Minded
    (fun m op m' hm h => Machine.minded_step m m' op h.2 hm h.1) m₀ p hinit hall
  refine ⟨hinit.pending,
    along_imp _ _ (fun m op m' h => ?_) m₀ p ((along_and _ _ m₀ p).mpr ⟨hinv.1, hrun.2⟩)⟩
  obtain ⟨⟨hm, hm'⟩, hstep⟩ := h
  exact ⟨hm'.pending, m.writesBehind_of_kept op hm.pending,
    m.flushesFirst_of_minded m' op hm hstep⟩

section Replay

set_option maxRecDepth 20000

theorem comeAndGo_pendingKept :
    ∃ p, replay Machine.step Machine.bound comeAndGo = some p
      ∧ Along (fun m op m' => m'.KeepsPending ∧ m.WritesBehind op ∧ m.FlushesFirst op)
        Machine.bound p := by
  refine ⟨_, rfl, (pending_kept Machine.bound _
    (run_replay _ Machine.step Machine.bound comeAndGo _ bound_init rfl) ?_).2⟩
  decide

/-- The login response is queued on an open channel whose socket is not marked. -/
theorem reconnectWhilePending_unmarked :
    ∃ p, pumpSystem.Run Machine.bound p
      ∧ replay Machine.step Machine.bound reconnectWhilePending = some p
      ∧ 0x7f00 ∈ (last Machine.bound p).pump.openConnections
      ∧ 0x7f00 ∈ (last Machine.bound p).record.queued
      ∧ ¬ (last Machine.bound p).KeepsPending := by
  refine ⟨_, run_replay _ Machine.step Machine.bound reconnectWhilePending _ bound_init rfl, rfl,
    by decide, by decide, fun h => ?_⟩
  exact absurd (h 0x7f00 (by decide) (by decide)) (by decide)

end Replay

end Hitsuji
