import Hitsuji.Provider.Lifetime
import Hitsuji.Provider.Sessions

set_option autoImplicit false

/-! # What becomes of the channels

`rsslAccept` hands out channels and `rsslCloseChannel` gives them back. In between they are in
`connections_`, which grows and shrinks in three loops; only those refused with `nakMount` never get
there, and are not given back. A `Custody` keeps a record of the channels next to the provider: that
no other is lost on the way is a matter of counting them. -/

namespace Hitsuji

open ByteBuffer Transition

/-! ## Channels in calls -/

/-- The channels that calls hand out. -/
def acceptedBy (calls : List RsslCall) : List UInt64 :=
  calls.filterMap fun
    | .accept a => some a.handle
    | _ => none

/-- The channels that calls refuse. -/
def refusedBy (calls : List RsslCall) : List UInt64 :=
  calls.filterMap fun
    | .nak a => some a.handle
    | _ => none

/-- The channels that calls close. -/
def closedBy (calls : List RsslCall) : List UInt64 :=
  calls.filterMap fun
    | .closeChannel c => some c
    | _ => none

/-- Other calls neither hand out nor close a channel. -/
theorem none_of_keeps (calls : List RsslCall) (h : ∀ call ∈ calls, Record.Keeps call) :
    acceptedBy calls = [] ∧ closedBy calls = [] := by
  constructor
  · refine List.filterMap_eq_nil_iff.mpr fun call hcall => ?_
    have hkeeps := h call hcall
    cases call with
    | accept => exact hkeeps.elim
    | nak | session | flush | ping | closeChannel => rfl
  · refine List.filterMap_eq_nil_iff.mpr fun call hcall => ?_
    have hkeeps := h call hcall
    cases call with
    | closeChannel => exact hkeeps.elim
    | nak | session | flush | ping | accept => rfl

theorem closedBy_all (cs : List UInt64) : closedBy (cs.map .closeChannel) = cs := by
  induction cs with
  | nil => rfl
  | cons c rest ih => exact congrArg (c :: ·) ih

theorem acceptedBy_all (cs : List UInt64) : acceptedBy (cs.map .closeChannel) = [] := by
  induction cs with
  | nil => rfl
  | cons c rest ih => exact ih

/-! ## One step -/

/-- A connection is being read. -/
def Op.reads : Op → Bool
  | .read _ _ => true
  | _ => false

namespace Pump

/-- The connection that a step removes without closing it, as RSSL has closed it. -/
def findsClosed (p : Pump) : Op → Option UInt64
  | .disconnect i _ => p.connections[i]?.filter fun c =>
      decide (p.socketId c ∈ p.outEfds ∧ (p.links c).state = .closed)
  | _ => none

/-- Where the channels are after a step. -/
structure Rehouses (p : Pump) (op : Op) (h : Handled) : Prop where
  connections : (p.connections ++ acceptedBy h.calls).Perm
    (h.pump.connections ++ (if op.reads then [] else closedBy h.calls) ++ (p.findsClosed op).toList)
  rejected : op.reads = true → ∀ c ∈ closedBy h.calls, c ∈ p.connections

/-- The same connections, and no call on a channel. -/
theorem rehouses_of_keeps (p : Pump) (op : Op) (h : Handled)
    (hconnections : h.pump.connections = p.connections)
    (hcalls : ∀ call ∈ h.calls, Record.Keeps call) (hfinds : p.findsClosed op = none) :
    p.Rehouses op h := by
  obtain ⟨haccepted, hclosed⟩ := none_of_keeps h.calls hcalls
  constructor
  · simp only [hconnections, haccepted, hclosed, hfinds, ite_self, Option.toList_none,
      List.append_nil]
    exact List.Perm.refl _
  · intro _ c hc
    rw [hclosed] at hc
    exact absurd hc List.not_mem_nil

/-- The disconnect of `DoWork` closes what RSSL has not closed. -/
theorem rehouses_disconnect (p : Pump) (i : Nat) (left : Down) (h : Handled)
    (hrun : p.exec (.disconnect i left) = some h) : p.Rehouses (.disconnect i left) h := by
  obtain ⟨c, hc, hdisconnect⟩ := Option.bind_eq_some_iff.mp hrun
  obtain rfl := Option.some.inj hdisconnect
  obtain ⟨hlt, hat⟩ := List.getElem?_eq_some_iff.mp hc
  have herase := List.getElem_cons_eraseIdx_perm hlt
  rw [hat] at herase
  by_cases hefds : p.socketId c ∈ p.outEfds
  · rw [if_pos hefds]
    refine ⟨?_, fun hread => absurd hread (by simp [Op.reads])⟩
    have hend : (c :: p.connections.eraseIdx i).Perm (p.connections.eraseIdx i ++ [c]) :=
      (List.perm_append_singleton c _).symm
    unfold disconnect
    by_cases hstate : (p.links c).state = .closed
    · simp only [findsClosed, hc, Option.filter_some, hefds, hstate, and_self,
        decide_true, if_true, Option.toList_some]
      simp only [acceptedBy, closedBy, List.filterMap_nil, List.append_nil, ite_self]
      exact herase.symm.trans hend
    · simp only [findsClosed, hc, Option.filter_some, hstate, and_false,
        decide_false, Bool.false_eq_true, if_false, Option.toList_none, List.append_nil, Op.reads]
      exact (List.append_nil p.connections).symm ▸ herase.symm.trans hend
  · rw [if_neg hefds]
    refine rehouses_of_keeps p _ _ rfl (fun call hcall => absurd hcall List.not_mem_nil) ?_
    simp [findsClosed, hc, hefds]

/-- **A step loses no channel.** -/
theorem rehouses_exec (p : Pump) (op : Op) (h : Handled) (hrun : p.exec op = some h) :
    p.Rehouses op h := by
  by_cases hdisconnect : ∃ i left, op = .disconnect i left
  · obtain ⟨i, left, rfl⟩ := hdisconnect
    exact p.rehouses_disconnect i left h hrun
  have hfinds : p.findsClosed op = none := by
    unfold findsClosed
    split
    · exact absurd ⟨_, _, rfl⟩ hdisconnect
    · rfl
  have hnone : ∀ call ∈ ([] : List RsslCall), Record.Keeps call :=
    fun call hcall => absurd hcall List.not_mem_nil
  cases exec_cases p op h hrun with
  | serves _ _ hserves =>
      exact rehouses_of_keeps p op h (connections_of_books hserves.books)
        (fun call hcall => keeps_of_harmless p _ call (hserves.calls call hcall)) hfinds
  | accepted a listening hsock hready haccepting hroom =>
      refine ⟨?_, fun hread => absurd hread (by simp [Op.reads])⟩
      simp only [hfinds, Option.toList_none, List.append_nil]
      exact List.Perm.of_eq (List.append_nil _).symm
  | rejected i c majorVersion minorVersion pingTimeout session left hreading hstate hreject =>
      refine ⟨?_, fun _ k hk => ?_⟩
      · simp only [hfinds, Option.toList_none, List.append_nil, Op.reads, if_true]
        exact List.Perm.of_eq (List.append_nil _)
      · obtain rfl := List.mem_singleton.mp hk
        exact List.mem_of_getElem? hreading.position
  | opened i c majorVersion minorVersion pingTimeout address directoryToken emplaced left q hreading
      hstate haccept hfresh hq =>
      subst hq
      refine rehouses_of_keeps p _ _ ?_ hnone hfinds
      cases emplaced <;> rfl
  | reconnected i c newSocket left hreading hstate =>
      refine rehouses_of_keeps p _ _ ?_ hnone hfinds
      rw [leave_eq]
      rfl
  | fellThrough i c ret left hreading hstate =>
      refine rehouses_of_keeps p _ _ ?_ hnone hfinds
      rw [leave_eq]
      rfl
  | flushed i c left p' hc hready hflushes =>
      refine rehouses_of_keeps p _ _ (connections_of_books hflushes.books) ?_ hfinds
      intro call hcall
      obtain rfl := List.mem_singleton.mp hcall
      trivial
  | disconnected i c left hc hefds => exact absurd ⟨_, _, rfl⟩ hdisconnect
  | notified c env left leftByFlush loop h' p' hclient hserves hflushed hflushes =>
      refine rehouses_of_keeps p _ _
        (connections_of_books (hflushes.books.trans hserves.books)) ?_ hfinds
      intro call hcall
      rcases List.mem_append.mp hcall with hserved | hflush
      · exact keeps_of_harmless p _ call (hserves.calls call hserved)
      · exact keeps_flushCalls c loop call hflush
  | tornDown left =>
      refine ⟨?_, fun hread => absurd hread (by simp [Op.reads])⟩
      have hcalls : (p.teardown left).calls = p.connections.map .closeChannel := by
        simp only [teardown, closeConnections_calls]
      rw [hcalls, acceptedBy_all, closedBy_all]
      simp only [hfinds, Option.toList_none, List.append_nil, Op.reads, Bool.false_eq_true,
        if_false]
      exact List.Perm.refl _
  | reset | downgraded | threw | closing => exact rehouses_of_keeps p _ _ rfl hnone hfinds

end Pump

/-! ## The record -/

/-- The provider, with its channels by what became of them. -/
structure Custody where
  machine : Machine
  /-- every channel that `rsslAccept` returned, with `nakMount` or without -/
  accepted : List UInt64
  /-- those with `nakMount` -/
  refused : List UInt64
  /-- closed when they were removed -/
  closed : List UInt64
  /-- removed when RSSL had closed them -/
  foundClosed : List UInt64
  /-- closed when their sessions were rejected, and still connections -/
  rejected : List UInt64

namespace Custody

/-- One step of the provider. -/
def step (s : Custody) (op : Op) : Option Custody :=
  (s.machine.step op).map fun machine =>
    let closing := closedBy (s.machine.calls op)
    { machine
      accepted := s.accepted ++ acceptedBy (s.machine.calls op) ++ refusedBy (s.machine.calls op)
      refused := s.refused ++ refusedBy (s.machine.calls op)
      closed := s.closed ++ if op.reads then [] else closing
      foundClosed := s.foundClosed ++ (s.machine.pump.findsClosed op).toList
      rejected := s.rejected ++ if op.reads then closing else [] }

/-- No channel was handed out. -/
structure Initial (s : Custody) : Prop where
  machine : pumpSystem.init s.machine
  accepted : s.accepted = []
  refused : s.refused = []
  closed : s.closed = []
  foundClosed : s.foundClosed = []
  rejected : s.rejected = []

end Custody

/-- The provider and the record over their lifetime. -/
def custodySystem : System Custody Op :=
  .ofFn Custody.Initial Custody.step

namespace Custody

/-- What a step does to the record. -/
theorem step_spec (s s' : Custody) (op : Op) (h : s.step op = some s') :
    ∃ handled pc, s.machine.pump.exec op = some handled
      ∧ control s.machine.pc s.machine.pump op handled.pump = some pc
      ∧ s' = { machine := ⟨handled.pump, pc, s.machine.record.logAll handled.calls⟩
               accepted := s.accepted ++ acceptedBy handled.calls ++ refusedBy handled.calls
               refused := s.refused ++ refusedBy handled.calls
               closed := s.closed ++ if op.reads then [] else closedBy handled.calls
               foundClosed := s.foundClosed ++ (s.machine.pump.findsClosed op).toList
               rejected := s.rejected ++ if op.reads then closedBy handled.calls else [] } := by
  obtain ⟨m, hm, rfl⟩ := Option.map_eq_some_iff.mp h
  obtain ⟨handled, pc, hexec, hcontrol, rfl⟩ := (step_eq_some s.machine m op).mp hm
  have hcalls : s.machine.calls op = handled.calls := by
    rw [Machine.calls, hexec]
    rfl
  exact ⟨handled, pc, hexec, hcontrol, by rw [hcalls]⟩

/-- Every channel handed out is in one place. -/
structure Balanced (s : Custody) : Prop where
  accounts : s.accepted.Perm
    (s.machine.pump.connections ++ s.closed ++ s.foundClosed ++ s.refused)
  rejected : ∀ c ∈ s.rejected, c ∈ s.accepted
  settled : s.machine.pc = .closed → s.machine.pump.connections = []

theorem balanced_init (s : Custody) (h : s.Initial) : s.Balanced := by
  obtain ⟨hpc, hconnections, -⟩ := h.machine
  refine ⟨?_, ?_, ?_⟩
  · rw [h.accepted, h.refused, h.closed, h.foundClosed, hconnections]
    exact List.Perm.refl _
  · intro c hc
    rw [h.rejected] at hc
    exact absurd hc List.not_mem_nil
  · intro hclosed
    exact absurd (hpc.symm.trans hclosed) (by simp)

/-- `Close` leaves by tearing down. -/
theorem connections_of_closed (p : Pump) (pc : Pc) (op : Op) (h : Handled)
    (hrun : p.exec op = some h) (hcontrol : control pc p op h.pump = some .closed) :
    h.pump.connections = [] := by
  cases control_flow pc .closed p h.pump op hcontrol with
  | teardown left =>
      obtain rfl := Option.some.inj hrun
      rfl

theorem balanced_step (s s' : Custody) (op : Op) (hs : s.Balanced) (h : s.step op = some s') :
    s'.Balanced := by
  obtain ⟨handled, pc, hexec, hcontrol, rfl⟩ := step_spec s s' op h
  have hmoves := s.machine.pump.rehouses_exec op handled hexec
  refine ⟨?_, ?_, ?_⟩
  · have hold := List.perm_iff_count.mp hs.accounts
    have hnew := List.perm_iff_count.mp hmoves.connections
    refine List.perm_iff_count.mpr fun c => ?_
    have hc := hold c
    have hc' := hnew c
    simp only [List.count_append] at hc hc' ⊢
    omega
  · intro c hc
    refine List.mem_append_left _ (List.mem_append_left _ ?_)
    rcases List.mem_append.mp hc with hold | hnew
    · exact hs.rejected c hold
    · split at hnew
      · next hread =>
          exact hs.accounts.mem_iff.mpr (List.mem_append_left _ (List.mem_append_left _
            (List.mem_append_left _ (hmoves.rejected hread c hnew))))
      · exact absurd hnew List.not_mem_nil
  · intro hclosed
    dsimp only at hclosed
    subst hclosed
    exact connections_of_closed _ _ op handled hexec hcontrol

/-! ## Whole runs -/

/-- **No channel is lost but those refused.** In every state that any run reaches, each channel that
    `rsslAccept` returned is a connection, or was closed when it was removed, or had been closed by
    RSSL by then, or was refused with `nakMount`: one of these, once. When `Close` has returned none
    is a connection. -/
theorem channels_accounted (s : Custody) (hs : custodySystem.Reachable s) : s.Balanced :=
  custodySystem.reachable_invariant Balanced balanced_init
    (fun s op s' hs h => balanced_step s s' op hs h) s hs

/-- Before the first channel. -/
def unopened : Custody :=
  ⟨.bound, [], [], [], [], []⟩

theorem unopened_init : custodySystem.init unopened :=
  ⟨bound_init, rfl, rfl, rfl, rfl, rfl⟩

/-- A consumer comes and goes, and the provider closes. -/
def comeAndClose : List Op :=
  comeAndGo ++ [.select 0 ∅ ∅ ∅, .doWork 5, .returns true, .close, .drain,
    .teardown fun _ => .closed]

section Replay

set_option maxRecDepth 20000

theorem comeAndClose_accounted :
    ∃ p, replay step unopened comeAndClose = some p
      ∧ (last unopened p).machine.pc = .closed ∧ (last unopened p).closed = [0x7f00]
      ∧ (last unopened p).Balanced :=
  ⟨_, rfl, rfl, rfl, channels_accounted _
    ⟨unopened, _, run_replay _ step unopened comeAndClose _ unopened_init rfl, rfl⟩⟩

end Replay

end Custody

end Hitsuji
