import Hitsuji.Lib.Interest
import Hitsuji.Provider.Connections

set_option autoImplicit false

/-! # Which sockets are polled

`select` is called with three sets that the handlers edit by hand. Every socket in them belongs to
the provider or to a connection, except for those that are left behind when RSSL gives a channel
another socket: `FD_CLR` takes the old one out of `in_rfds_` and `in_efds_`, not out of
`in_wfds_`. -/

namespace Hitsuji

open ByteBuffer Interest Transition

namespace Pump

/-! ## Hygiene -/

/-- The listening socket and the reply socket. -/
def Standing (p : Pump) (s : Nat) : Prop :=
  p.rsslSock = some s ∨ s = p.replySock

/-- Everything `select` is asked about. -/
def interest (p : Pump) : Finset Nat :=
  p.inRfds ∪ p.view.inWfds ∪ p.inEfds

/-- Each socket in the interest sets is the listening socket, the reply socket, or that of a
    connection. -/
def Hygienic (p : Pump) : Prop :=
  Clean p.Standing p.connections p.socketId p.interest

/-- Somebody other than the connection `c` uses the socket. -/
def UsedBesides (p : Pump) (c : UInt64) (s : Nat) : Prop :=
  p.Standing s ∨ ∃ k ∈ p.connections, k ≠ c ∧ p.socketId k = s

theorem mem_interest (p : Pump) (s : Nat) :
    s ∈ p.interest ↔ s ∈ p.inRfds ∨ s ∈ p.view.inWfds ∨ s ∈ p.inEfds := by
  simp only [interest, Finset.mem_union, or_assoc]

/-! ## Sockets that change -/

/-- The connection to which a read gives another socket. -/
def movesTo (p : Pump) : Op → Option (UInt64 × Nat)
  | .read i (.initChannel (.inProgress (some newSocket)) _ _) =>
      (p.connections[i]?.filter fun c =>
        decide (p.socketId c ∈ p.outRfds ∧ (p.links c).state = .initializing)).map (·, newSocket)
  | .read i (.readEx (.fdChange newSocket) _) =>
      (p.connections[i]?.filter fun c =>
        decide (p.socketId c ∈ p.outRfds ∧ (p.links c).state = .active)).map (·, newSocket)
  | _ => none

/-- A new connection on a channel that is one already, which only a rejected session leaves
    behind. -/
def reaccepts (p : Pump) (op : Op) : Option Accepted :=
  op.accepted.filter fun a =>
    p.serverReady && p.isAcceptingConnections && decide (p.connections.length ≠ p.sessionCapacity)
      && decide (a.handle ∈ p.connections)

/-- A socket that a connection gives up is not left in a set, unless somebody else uses it: a
    channel that moves is not marked in `in_wfds_`, one that is accepted again is in no set. -/
structure LeavesClean (p : Pump) (op : Op) : Prop where
  moves : ∀ x ∈ p.movesTo op, p.socketId x.1 ∈ p.view.inWfds →
    p.socketId x.1 = x.2 ∨ p.UsedBesides x.1 (p.socketId x.1)
  reaccepts : ∀ a ∈ p.reaccepts op, p.socketId a.handle ∈ p.interest →
    p.socketId a.handle = a.channel.socketId ∨ p.UsedBesides a.handle (p.socketId a.handle)

instance (p : Pump) (s : Nat) : Decidable (p.Standing s) :=
  inferInstanceAs (Decidable (_ ∨ _))

instance (p : Pump) (c : UInt64) (s : Nat) : Decidable (p.UsedBesides c s) :=
  inferInstanceAs (Decidable (p.Standing s ∨ ∃ k ∈ p.connections, k ≠ c ∧ p.socketId k = s))

instance (p : Pump) (op : Op) : Decidable (p.LeavesClean op) :=
  decidable_of_iff ((∀ x ∈ p.movesTo op, p.socketId x.1 ∈ p.view.inWfds →
      p.socketId x.1 = x.2 ∨ p.UsedBesides x.1 (p.socketId x.1))
    ∧ ∀ a ∈ p.reaccepts op, p.socketId a.handle ∈ p.interest →
      p.socketId a.handle = a.channel.socketId ∨ p.UsedBesides a.handle (p.socketId a.handle))
    ⟨fun h => ⟨h.1, h.2⟩, fun h => ⟨h.moves, h.reaccepts⟩⟩

theorem movesTo_of_initializing (p : Pump) (i : Nat) (c : UInt64) (newSocket : Nat)
    (session : NewSession) (left : Down) (hreading : p.Reading i c)
    (hstate : (p.links c).state = .initializing) :
    p.movesTo (.read i (.initChannel (.inProgress (some newSocket)) session left))
      = some (c, newSocket) := by
  simp [movesTo, hreading.position, Option.filter, hreading.ready, hstate]

theorem movesTo_of_active (p : Pump) (i : Nat) (c : UInt64) (newSocket : Nat)
    (left : Option Down) (hreading : p.Reading i c) (hstate : (p.links c).state = .active) :
    p.movesTo (.read i (.readEx (.fdChange newSocket) left)) = some (c, newSocket) := by
  simp [movesTo, hreading.position, Option.filter, hreading.ready, hstate]

/-- A socket given up for another one. -/
theorem used_of_usedBesides (p : Pump) (c : UInt64) (id' : UInt64 → Nat)
    (hc : c ∈ p.connections) (hid : ∀ k, k ≠ c → id' k = p.socketId k)
    (h : p.socketId c = id' c ∨ p.UsedBesides c (p.socketId c)) :
    p.Standing (p.socketId c) ∨ ∃ k ∈ p.connections, id' k = p.socketId c := by
  rcases h with hsame | hstanding | ⟨k, hk, hne, hsocket⟩
  · exact .inr ⟨c, hc, hsame.symm⟩
  · exact .inl hstanding
  · exact .inr ⟨k, hk, (hid k hne).trans hsocket⟩

/-! ## One step -/

/-- The same connections on the same sockets, and interest in no other socket. -/
theorem hygienic_congr (p p' : Pump) (hconnections : p'.connections = p.connections)
    (hsocket : ∀ c, p'.socketId c = p.socketId c) (hrssl : p'.rsslSock = p.rsslSock)
    (hreply : p'.replySock = p.replySock)
    (hinterest : ∀ s ∈ p'.interest, s ∈ p.interest ∨ ∃ c ∈ p.connections, p.socketId c = s)
    (hp : p.Hygienic) : p'.Hygienic := by
  have hid : p'.socketId = p.socketId := funext hsocket
  have hstanding : p'.Standing = p.Standing := by
    funext s
    rw [Standing, Standing, hrssl, hreply]
  rw [Hygienic, hid, hstanding, hconnections]
  exact clean_of_used _ _ _ _ _ hp fun s hs => (hinterest s hs).imp_right .inr

theorem hygienic_of_books (p p' : Pump) (hbooks : p'.books = p.books) (hp : p.Hygienic)
    (hwfds : ∀ s ∈ p'.view.inWfds, s ∈ p.view.inWfds
      ∨ ∃ k ∈ p.connections, p.socketId k = s) : p'.Hygienic := by
  refine hygienic_congr p p' (connections_of_books hbooks) (socketId_of_books hbooks)
    (rsslSock_of_books hbooks) (replySock_of_books hbooks) (fun s hs => ?_) hp
  rw [mem_interest, inRfds_of_books hbooks, inEfds_of_books hbooks] at hs
  rw [mem_interest]
  rcases hs with hr | hw | he
  · exact .inl (.inl hr)
  · exact (hwfds s hw).imp_left fun hold => .inr (.inl hold)
  · exact .inl (.inr (.inr he))

theorem hygienic_serves (p : Pump) (h : Handled) (hserves : p.Serves h) (hcoherent : p.Coherent)
    (hp : p.Hygienic) : h.pump.Hygienic := by
  refine hygienic_of_books p _ hserves.books hp fun s hs => ?_
  rcases hserves.within s hs with hold | ⟨k, hk, rfl⟩
  · exact .inl hold
  · exact .inr ⟨k, hcoherent.connected k ((hcoherent.hasClient k).mp hk), rfl⟩

theorem hygienic_flushes (p p' : Pump) (c : UInt64) (hflushes : p.Flushes c p')
    (hp : p.Hygienic) : p'.Hygienic := by
  refine hygienic_of_books p p' hflushes.books hp fun s hs => .inl ?_
  rw [hflushes.wfds] at hs
  exact Finset.mem_of_mem_erase hs

/-- Afresh, only the provider's own sockets are polled. -/
theorem hygienic_reset (p : Pump) (listening : Nat) (hsock : p.rsslSock = some listening) :
    (p.resetInterest listening).Hygienic := by
  intro s hs
  refine .inl ?_
  rw [mem_interest] at hs
  simp only [resetInterest, Finset.notMem_empty, or_false] at hs
  split at hs
  · exact .inl (hsock.trans (congrArg some (Finset.mem_singleton.mp hs).symm))
  · rcases Finset.mem_insert.mp hs with hreply | hlisten
    · exact .inr hreply
    · exact .inl (hsock.trans (congrArg some (Finset.mem_singleton.mp hlisten).symm))

theorem mem_interest_watch (p : Pump) (socket s : Nat) (h : s ∈ (p.watch socket).interest) :
    s = socket ∨ s ∈ p.interest := by
  rw [mem_interest] at h ⊢
  simp only [watch, Finset.mem_insert] at h
  tauto

/-- What `FD_CLR` on two of three sets leaves. -/
theorem mem_interest_unwatch (p : Pump) (socket s : Nat) (h : s ∈ (p.unwatch socket).interest) :
    s ∈ p.interest ∧ (s = socket → s ∈ p.view.inWfds) := by
  rw [mem_interest] at h ⊢
  simp only [unwatch, Finset.mem_erase] at h
  tauto

/-- A connection watches its socket, somebody else's is no longer watched. -/
theorem hygienic_watch (p p' : Pump) (c : UInt64) (hc : c ∈ p.connections)
    (hconnections : p'.connections = p.connections)
    (hsocket : ∀ k, p'.socketId k = p.socketId k) (hrssl : p'.rsslSock = p.rsslSock)
    (hreply : p'.replySock = p.replySock)
    (hinterest : ∀ s ∈ p'.interest, s ∈ p.interest) (hp : p.Hygienic) :
    (p'.watch (p.socketId c)).Hygienic := by
  refine hygienic_congr p _ hconnections hsocket hrssl hreply (fun s hs => ?_) hp
  rcases mem_interest_watch p' _ s hs with rfl | hmem
  · exact .inr ⟨c, hc, rfl⟩
  · exact .inl (hinterest s hmem)

/-- A connection watches another socket. -/
theorem hygienic_move (p p' : Pump) (c : UInt64) (newSocket : Nat) (hc : c ∈ p.connections)
    (hconnections : p'.connections = p.connections) (hself : p'.socketId c = newSocket)
    (hothers : ∀ k, k ≠ c → p'.socketId k = p.socketId k) (hrssl : p'.rsslSock = p.rsslSock)
    (hreply : p'.replySock = p.replySock)
    (hinterest : ∀ s ∈ p'.interest, s ∈ p.interest ∧ (s = p.socketId c → s ∈ p.view.inWfds))
    (hleaves : p.socketId c ∈ p.view.inWfds →
      p.socketId c = newSocket ∨ p.UsedBesides c (p.socketId c)) (hp : p.Hygienic) :
    (p'.watch newSocket).Hygienic := by
  have hstanding : (p'.watch newSocket).Standing = p.Standing := by
    funext s
    exact congrArg₂ (fun a b => a = some s ∨ s = b) hrssl hreply
  have hused : p.socketId c ∈ p.view.inWfds → p.Standing (p.socketId c)
      ∨ ∃ k ∈ p.connections, p'.socketId k = p.socketId c := by
    intro hmark
    exact used_of_usedBesides p c p'.socketId hc hothers (hself ▸ hleaves hmark)
  rw [Hygienic, hstanding]
  have hmembers : (p'.watch newSocket).connections = p.connections := hconnections
  rw [hmembers]
  refine clean_renumber p.Standing p.connections p.socketId _ p.interest _ c hp hothers
    (fun hold => ?_) fun s hs => ?_
  · rcases mem_interest_watch p' _ _ hold with hnew | hmem
    · exact .inr ⟨c, hc, hself.trans hnew.symm⟩
    · exact hused ((hinterest _ hmem).2 rfl)
  · rcases mem_interest_watch p' _ s hs with rfl | hmem
    · exact .inr (.inr ⟨c, hc, hself⟩)
    · exact .inl (hinterest s hmem).1

/-- A channel becomes a connection, perhaps again. -/
theorem hygienic_accept (p : Pump) (a : Accepted)
    (hleaves : a.handle ∈ p.connections → p.socketId a.handle ∈ p.interest →
      p.socketId a.handle = a.channel.socketId ∨ p.UsedBesides a.handle (p.socketId a.handle))
    (hp : p.Hygienic) : (p.acceptConnection (some a)).pump.Hygienic := by
  let p' := (p.acceptConnection (some a)).pump
  have hself : p'.socketId a.handle = a.channel.socketId := by
    simp [p', acceptConnection, watch, setLink, setChannel, socketId]
  have hothers : ∀ k, k ≠ a.handle → p'.socketId k = p.socketId k := by
    intro k hk
    simp [p', acceptConnection, watch, setLink, setChannel, socketId, hk]
  have hmember : a.handle ∈ p.connections ++ [a.handle] :=
    List.mem_append_right _ (List.mem_singleton_self _)
  have hgrown : Clean p.Standing (p.connections ++ [a.handle]) p.socketId p.interest :=
    clean_members _ _ _ _ _ hp fun _ hc => List.mem_append_left _ hc
  refine clean_renumber p.Standing _ p.socketId p'.socketId p.interest _ a.handle hgrown hothers
    (fun hold => ?_) fun s hs => ?_
  · rcases mem_interest_watch _ _ _ hold with hnew | hmem
    · exact .inr ⟨a.handle, hmember, hself.trans hnew.symm⟩
    · have hmem : p.socketId a.handle ∈ p.interest := hmem
      by_cases hc : a.handle ∈ p.connections
      · rcases used_of_usedBesides p a.handle p'.socketId hc hothers
          (hself ▸ hleaves hc hmem) with hstanding | ⟨k, hk, hsocket⟩
        · exact .inl hstanding
        · exact .inr ⟨k, List.mem_append_left _ hk, hsocket⟩
      · rcases hp _ hmem with hstanding | ⟨k, hk, hsocket⟩
        · exact .inl hstanding
        · have hne : k ≠ a.handle := fun h => hc (h ▸ hk)
          exact .inr ⟨k, List.mem_append_left _ hk, (hothers k hne).trans hsocket⟩
  · rcases mem_interest_watch _ _ s hs with rfl | hmem
    · exact .inr (.inr ⟨a.handle, hmember, hself⟩)
    · exact .inl hmem

/-- A connection goes with its socket. -/
theorem hygienic_remove (p : Pump) (i : Nat) (c : UInt64) (hc : p.connections[i]? = some c)
    (hp : p.Hygienic) : (p.remove i c).Hygienic := by
  refine clean_remove p.Standing p.connections _ p.socketId p.interest _ c hp
    (fun k hk hne => mem_eraseIdx_of_ne p i c k hc hne hk) fun s hs => ?_
  rw [mem_interest] at hs ⊢
  simp only [remove, unwatch, Provider.disconnect, Finset.mem_erase] at hs
  rcases hs with ⟨hne, hr⟩ | ⟨hne, hw⟩ | ⟨hne, he⟩
  · exact ⟨.inl hr, hne⟩
  · exact ⟨.inr (.inl hw), hne⟩
  · exact ⟨.inr (.inr he), hne⟩

/-- **The interest sets stay clean in a step that leaves no socket behind.** -/
theorem hygienic_exec (p : Pump) (op : Op) (h : Handled) (hcoherent : p.Coherent)
    (hleaves : p.LeavesClean op) (hno : ∀ left, op ≠ .teardown left) (hp : p.Hygienic)
    (hrun : p.exec op = some h) : h.pump.Hygienic := by
  cases exec_cases p op h hrun with
  | serves _ _ hserves => exact hygienic_serves p h hserves hcoherent hp
  | reset _ listening hop hsock => exact hygienic_reset p listening hsock
  | accepted a listening hsock hready haccepting hroom =>
      refine hygienic_accept (p.clearRead listening) a (fun hc hmem => ?_) hp
      refine hleaves.reaccepts a ?_ hmem
      have hc : a.handle ∈ p.connections := hc
      simp [reaccepts, Op.accepted, Option.filter, serverReady, hsock, hready, haccepting, hroom,
        hc]
  | downgraded i c newSocket session left hreading hstate =>
      refine hygienic_move p (((p.clearRead (p.socketId c)).downgrade c newSocket).unwatch
        (p.socketId c)) c newSocket (List.mem_of_getElem? hreading.position) rfl ?_ ?_ rfl rfl
        (fun s hs => ?_) ?_ hp
      · simp [socketId, unwatch, downgrade, setChannel]
      · intro k hk
        simp [socketId, unwatch, downgrade, setChannel, clearRead, hk]
      · exact mem_interest_unwatch _ _ s hs
      · exact hleaves.moves (c, newSocket) (movesTo_of_initializing p i c newSocket session left
          hreading hstate)
  | rejected i c majorVersion minorVersion pingTimeout session left hreading hstate hreject =>
      exact hygienic_watch p _ c (List.mem_of_getElem? hreading.position) rfl
        (fun k => socketId_activate (p.clearRead (p.socketId c)) c _ _ _ k) rfl rfl
        (fun s hs => hs) hp
  | threw i c majorVersion minorVersion pingTimeout left hreading hstate haccept =>
      exact hygienic_watch p _ c (List.mem_of_getElem? hreading.position) rfl
        (fun k => socketId_activate (p.clearRead (p.socketId c)) c _ _ _ k) rfl rfl
        (fun s hs => hs) hp
  | opened i c majorVersion minorVersion pingTimeout address directoryToken emplaced left q hreading
      hstate haccept hfresh hq =>
      have hsocket : ∀ k, q.socketId k = p.socketId k := by
        rw [hq]
        exact socketId_activate (p.clearRead (p.socketId c)) c _ _ _
      have hc := List.mem_of_getElem? hreading.position
      subst hq
      cases emplaced with
      | true =>
          exact hygienic_watch p _ c hc rfl
            (fun k => (socketId_acceptClientSession _ c _ _ k).trans (hsocket k)) rfl rfl
            (fun s hs => hs) hp
      | false => exact hygienic_watch p _ c hc rfl hsocket rfl rfl (fun s hs => hs) hp
  | reconnected i c newSocket left hreading hstate =>
      rw [leave_eq]
      let q : Pump := { p.clearRead (p.socketId c) with
        links := ((p.clearRead (p.socketId c)).leave c left).links }
      have hold : ((q.reconnect c newSocket).links c).oldSocketId = p.socketId c := by
        simp only [reconnect, setChannel, setLink, Function.update_self]
        rfl
      have hnew : (q.reconnect c newSocket).socketId c = newSocket := by
        simp only [reconnect, setChannel, setLink, socketId, Function.update_self]
      change ((q.reconnect c newSocket).onFdChange c).Hygienic
      rw [onFdChange, hold, hnew]
      refine hygienic_move p ((q.reconnect c newSocket).unwatch (p.socketId c)) c newSocket
        (List.mem_of_getElem? hreading.position) rfl hnew (fun k hk => ?_) rfl rfl
        (fun s hs => mem_interest_unwatch _ _ s hs) ?_ hp
      · simp only [unwatch, reconnect, setChannel, setLink, socketId, Function.update_of_ne hk]
        rfl
      · exact hleaves.moves (c, newSocket)
          (movesTo_of_active p i c newSocket left hreading hstate)
  | fellThrough i c ret left hreading hstate =>
      rw [leave_eq]
      exact hygienic_watch p _ c (List.mem_of_getElem? hreading.position) rfl (fun _ => rfl) rfl rfl
        (fun s hs => (mem_interest_unwatch _ _ s hs).1) hp
  | flushed i c left p' hc hready hflushes => exact hygienic_flushes p p' c hflushes hp
  | disconnected i c left hc hefds =>
      rw [disconnect_eq]
      exact hygienic_congr (p.remove i c) _ rfl (fun _ => rfl) rfl rfl (fun s hs => .inl hs)
        (hygienic_remove p i c hc hp)
  | closing => exact hygienic_congr p _ rfl (fun _ => rfl) rfl rfl (fun s hs => .inl hs) hp
  | notified c env left leftByFlush loop h' p' hclient hserves hflushed hflushes =>
      exact hygienic_flushes h'.pump p' c hflushes (hygienic_serves p h' hserves hcoherent hp)
  | tornDown left => exact absurd rfl (hno left)

end Pump

/-! ## Runs -/

/-- Inside a message pump the interest sets are clean. -/
def Machine.PollsClean (m : Machine) : Prop :=
  m.pc.pumping.isSome = true → m.pump.Hygienic

theorem pollsClean_step (m m' : Machine) (op : Op) (hcoherent : m.pump.Coherent)
    (hleaves : m.pump.LeavesClean op) (hm : m.PollsClean) (h : m.step op = some m') :
    m'.PollsClean := by
  obtain ⟨handled, pc, hexec, hcontrol, rfl⟩ := (step_eq_some m m' op).mp h
  intro hpc
  rcases control_pumping m.pc pc m.pump handled.pump op hcontrol hpc with
    ⟨hpumping, hno⟩ | rfl | ⟨rfl, hdrain⟩
  · exact Pump.hygienic_exec m.pump op handled hcoherent hleaves hno (hm hpumping) hexec
  · obtain ⟨listening, hsock, rfl⟩ := Option.map_eq_some_iff.mp hexec
    exact Pump.hygienic_reset m.pump listening hsock
  · rw [Pump.exec, if_pos hdrain] at hexec
    obtain ⟨listening, hsock, rfl⟩ := Option.map_eq_some_iff.mp hexec
    exact Pump.hygienic_reset m.pump listening hsock

/-- **Whenever `select` is called, every socket polled is the provider's or a connection's**, in a
    run in which no connection leaves a socket behind. -/
theorem polls_clean (m₀ : Machine) (p : Steps Machine Op) (hrun : pumpSystem.Run m₀ p)
    (hleaves : Along (fun m op _ => m.pump.LeavesClean op) m₀ p) :
    Along (fun _ _ m' => ∀ k, m'.pc = .select k → m'.pump.Hygienic) m₀ p := by
  let clean : Machine → Prop := fun m => m.pump.Coherent ∧ m.PollsClean
  have hinit : clean m₀ := by
    refine ⟨coherent_init m₀ hrun.1, fun hpc => ?_⟩
    rw [hrun.1.1] at hpc
    exact absurd hpc Bool.false_ne_true
  have hinv := along_invariant _ clean
    (fun m op m' hm h =>
      ⟨coherent_step m m' op hm.1 h.1, pollsClean_step m m' op hm.1 h.2 hm.2 h.1⟩)
    m₀ p hinit ((along_and _ _ m₀ p).mpr ⟨hrun.2, hleaves⟩)
  refine along_imp _ _ (fun m op m' h k hselect => h.2.2 ?_) m₀ p hinv.1
  rw [hselect]
  rfl

/-- Output stays queued when a consumer logs in, and RSSL moves its channel to socket 1025. -/
def reconnectWhilePending : List Op :=
  connectConsumer ++ activateConsumer (.initialized 1 0 true)
    ++ receive (loginByName 1) (.of (.refusing []) (.pendingBytes 7) (by decide))
    ++ [.select 1 {1024} ∅ ∅]
    ++ passOver 4 none (visit 0 (.readEx (.fdChange 1025) none))
    ++ passOver 4 none (visit 0 .nothing)

section Replay

set_option maxRecDepth 20000

theorem comeAndGo_pollsClean :
    ∃ p, replay Machine.step Machine.bound comeAndGo = some p
      ∧ Along (fun _ _ m' => ∀ k, m'.pc = .select k → m'.pump.Hygienic) Machine.bound p := by
  refine ⟨_, rfl, polls_clean Machine.bound _
    (run_replay _ Machine.step Machine.bound comeAndGo _ bound_init rfl) ?_⟩
  decide

/-- Socket 1024 is still polled for writing. -/
theorem reconnectWhilePending_pollsStale :
    ∃ p, pumpSystem.Run Machine.bound p
      ∧ replay Machine.step Machine.bound reconnectWhilePending = some p
      ∧ (last Machine.bound p).pc = .select .run ∧ ¬ (last Machine.bound p).pump.Hygienic := by
  refine ⟨_, run_replay _ Machine.step Machine.bound reconnectWhilePending _ bound_init rfl, rfl,
    rfl, fun h => ?_⟩
  rcases h 1024 (by decide) with hstanding | ⟨c, hc, hsocket⟩
  · exact absurd hstanding (by decide)
  · obtain rfl : c = 0x7f00 := List.mem_singleton.mp hc
    exact absurd hsocket (by decide)

end Replay

end Hitsuji
