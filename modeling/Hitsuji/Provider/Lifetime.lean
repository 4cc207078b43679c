import Hitsuji.Provider.Connections

set_option autoImplicit false

/-! # Channels are closed once

`rsslCloseChannel` is called when a session is rejected, when a connection is removed, and for every
connection left when the provider closes. The first of these leaves the channel in `connections_`,
so that it is closed again later: in a run, channels are closed once exactly when no session is
rejected. -/

namespace Hitsuji

open ByteBuffer Transition

/-! ## What is closed -/

namespace Record

/-- The call hands out or closes no channel. -/
def Keeps : RsslCall → Prop
  | .accept _ | .closeChannel _ => False
  | _ => True

theorem closes_log (r : Record) (call : RsslCall) (h : Keeps call) :
    (r.log call).closes = r.closes := by
  cases call with
  | session c e =>
      cases e with
      | writeEx out direct rc =>
          simp only [log]
          split <;> rfl
      | getBuffer | releaseBuffer | onRequest => rfl
  | flush | ping | nak => rfl
  | accept | closeChannel => exact h.elim

theorem closes_logAll (r : Record) (calls : List RsslCall) (h : ∀ call ∈ calls, Keeps call) :
    (r.logAll calls).closes = r.closes := by
  induction calls generalizing r with
  | nil => rfl
  | cons call rest ih =>
      rw [logAll, List.foldl_cons]
      exact (ih (r.log call) fun c hc => h c (List.mem_cons_of_mem call hc)).trans
        (closes_log r call (h call List.mem_cons_self))

/-- Each of these channels is closed once more. -/
theorem closes_closeAll (r : Record) (cs : List UInt64) (hcs : cs.Nodup) (c : UInt64) :
    (r.logAll (cs.map .closeChannel)).closes c
      = if c ∈ cs then (r.closes c).map (· + 1) else r.closes c := by
  induction cs generalizing r with
  | nil => rfl
  | cons k rest ih =>
      obtain ⟨hk, hrest⟩ := List.nodup_cons.mp hcs
      rw [List.map_cons, logAll, List.foldl_cons]
      refine (ih (r.log (.closeChannel k)) hrest).trans ?_
      by_cases hc : c = k
      · subst hc
        simp [log, hk]
      · simp [log, hc]

end Record

namespace Pump

theorem keeps_of_harmless (p : Pump) (wfds : Finset Nat) (call : RsslCall)
    (h : p.Harmless wfds call) : Record.Keeps call := by
  cases call with
  | accept | closeChannel => exact h.elim
  | session | flush | ping | nak => trivial

theorem keeps_flushCalls (c : UInt64) (loop : FlushLoop) (call : RsslCall)
    (h : call ∈ flushCalls c loop) : Record.Keeps call := by
  simp only [flushCalls, List.mem_append, List.mem_replicate, List.mem_singleton] at h
  rcases h with ⟨-, rfl⟩ | rfl <;> trivial

/-! ## Rejected sessions -/

/-- `rsslInitChannel` makes the channel being read active, and its session is rejected: the provider
    is closing or full, or the client cannot be initialised. -/
def rejects (p : Pump) : Op → Bool
  | .read i (.initChannel (.success _ _ _) session _) =>
      p.connections[i]?.any fun c =>
        decide (p.socketId c ∈ p.outRfds ∧ (p.links c).state = .initializing
          ∧ (p.Refuses ∨ session = .uninitialized))
  | _ => false

/-- A rejected session's channel is closed and stays a connection. -/
theorem exec_rejects (p : Pump) (op : Op) (h : Handled) (hrun : p.exec op = some h)
    (hrejects : p.rejects op = true) :
    ∃ c ∈ p.connections, h.pump.connections = p.connections ∧ h.calls = [.closeChannel c] := by
  unfold rejects at hrejects
  split at hrejects
  · next i majorVersion minorVersion pingTimeout session left =>
      obtain ⟨c, hc, -⟩ := Option.bind_eq_some_iff.mp hrun
      rw [hc, Option.any_some, decide_eq_true_eq] at hrejects
      obtain ⟨hready, hstate, hreject⟩ := hrejects
      obtain ⟨h₁, hsession, rfl⟩ := exec_activates p i c majorVersion minorVersion pingTimeout
        session left h ⟨hc, hready⟩ hstate hrun
      unfold onActiveClientSession at hsession
      refine ⟨c, List.mem_of_getElem? hc, ?_⟩
      split at hsession
      · obtain rfl := Option.some.inj hsession
        exact ⟨rfl, rfl⟩
      · next haccept =>
          rcases hreject with hrefuse | rfl
          · exact absurd hrefuse haccept
          · obtain rfl := Option.some.inj hsession
            exact ⟨rfl, rfl⟩
  · exact absurd hrejects (by simp)

end Pump

/-! ## One step -/

namespace Machine

/-- Every channel was closed at most once, and none of the connections was. -/
structure ClosedOnce (m : Machine) : Prop where
  once : ∀ c n, m.record.closes c = some n → n ≤ 1
  gone : ∀ c ∈ m.pump.connections, m.record.closes c = some 0

/-- `rsslAccept` returns no channel that is still open. -/
def OpensClosed (m : Machine) (op : Op) : Prop :=
  ∀ a ∈ op.accepted, m.record.closes a.handle ≠ some 0

instance (m : Machine) (op : Op) : Decidable (m.OpensClosed op) :=
  inferInstanceAs (Decidable (∀ a ∈ op.accepted, m.record.closes a.handle ≠ some 0))

/-- Nothing is closed, and no connection is new. -/
theorem closedOnce_keeps (m : Machine) (pump : Pump) (pc : Pc) (calls : List RsslCall)
    (hconnections : ∀ c ∈ pump.connections, c ∈ m.pump.connections)
    (hcalls : ∀ call ∈ calls, Record.Keeps call) (hm : m.ClosedOnce) :
    ClosedOnce ⟨pump, pc, m.record.logAll calls⟩ where
  once c n hn := by
    rw [Record.closes_logAll _ _ hcalls] at hn
    exact hm.once c n hn
  gone c hc := by
    rw [Record.closes_logAll _ _ hcalls]
    exact hm.gone c (hconnections c hc)

/-- A channel that is closed once more is no longer among the connections. -/
theorem closedOnce_close (m : Machine) (pump : Pump) (pc : Pc) (cs : List UInt64)
    (hcs : cs.Nodup) (hopen : ∀ c ∈ cs, c ∈ m.pump.connections)
    (hconnections : ∀ c ∈ pump.connections, c ∈ m.pump.connections ∧ c ∉ cs)
    (hm : m.ClosedOnce) :
    ClosedOnce ⟨pump, pc, m.record.logAll (cs.map .closeChannel)⟩ where
  once c n hn := by
    rw [Record.closes_closeAll _ cs hcs] at hn
    split at hn
    · next hc =>
        rw [hm.gone c (hopen c hc)] at hn
        exact (Option.some.inj hn).ge
    · exact hm.once c n hn
  gone c hc := by
    rw [Record.closes_closeAll _ cs hcs, if_neg (hconnections c hc).2]
    exact hm.gone c (hconnections c hc).1

/-- The connections stay different channels as long as none of them was closed. -/
theorem unique_step (m m' : Machine) (op : Op) (hm : m.ClosedOnce)
    (hunique : m.pump.connections.Nodup) (hopen : m.OpensClosed op)
    (hstep : m.step op = some m') : m'.pump.connections.Nodup := by
  obtain ⟨h, pc, hexec, -, rfl⟩ := (step_eq_some m m' op).mp hstep
  cases Pump.exec_cases m.pump op h hexec with
  | serves _ _ hserves =>
      simp only [Pump.connections_of_books hserves.books]
      exact hunique
  | accepted a listening hsock hready haccepting hroom =>
      have hnew : a.handle ∉ m.pump.connections := fun hmem =>
        hopen a rfl (hm.gone a.handle hmem)
      change (m.pump.connections ++ [a.handle]).Nodup
      rw [← List.concat_eq_append]
      exact hunique.concat hnew
  | opened i c majorVersion minorVersion pingTimeout address directoryToken emplaced left q hreading
      hstate haccept hfresh hq =>
      subst hq
      cases emplaced <;> exact hunique
  | reconnected i c newSocket left hreading hstate =>
      rw [Pump.leave_eq]
      exact hunique
  | fellThrough i c ret left hreading hstate =>
      rw [Pump.leave_eq]
      exact hunique
  | flushed i c left p' hc hready hflushes =>
      simp only [Pump.connections_of_books hflushes.books]
      exact hunique
  | disconnected i c left hc hefds =>
      rw [Pump.disconnect_eq]
      exact (List.eraseIdx_sublist _ i).nodup hunique
  | notified c env left leftByFlush loop h' p' hclient hserves hflushed hflushes =>
      simp only [Pump.connections_of_books (hflushes.books.trans hserves.books)]
      exact hunique
  | tornDown left => exact List.nodup_nil
  | reset | downgraded | rejected | threw | closing => exact hunique

/-- A step that rejects no session closes channels once. -/
theorem closedOnce_step (m m' : Machine) (op : Op) (hm : m.ClosedOnce)
    (hunique : m.pump.connections.Nodup) (hrejects : m.pump.rejects op = false)
    (hstep : m.step op = some m') : m'.ClosedOnce := by
  obtain ⟨h, pc, hexec, -, rfl⟩ := (step_eq_some m m' op).mp hstep
  cases Pump.exec_cases m.pump op h hexec with
  | serves _ _ hserves =>
      refine closedOnce_keeps m _ pc _ ?_ ?_ hm
      · rw [Pump.connections_of_books hserves.books]
        exact fun c hc => hc
      · exact fun call hcall => Pump.keeps_of_harmless _ _ call (hserves.calls call hcall)
  | accepted a listening hsock hready haccepting hroom =>
      refine ⟨fun c n hn => ?_, fun c hc => ?_⟩
      · simp only [Pump.acceptConnection, Record.logAll, List.foldl_cons, List.foldl_nil,
          Record.log, Function.update_apply] at hn
        split at hn
        · obtain rfl := Option.some.inj hn
          exact Nat.zero_le 1
        · exact hm.once c n hn
      · simp only [Pump.acceptConnection, Record.logAll, List.foldl_cons, List.foldl_nil,
          Record.log, Function.update_apply]
        split
        · rfl
        · next hne =>
            rcases List.mem_append.mp hc with hold | hnew
            · exact hm.gone c hold
            · exact absurd (List.mem_singleton.mp hnew) hne
  | rejected i c majorVersion minorVersion pingTimeout session left hreading hstate hreject =>
      simp [Pump.rejects, hreading.position, hreading.ready, hstate, hreject] at hrejects
  | opened i c majorVersion minorVersion pingTimeout address directoryToken emplaced left q hreading
      hstate haccept hfresh hq =>
      subst hq
      refine closedOnce_keeps m _ pc _ ?_ (fun call hcall => absurd hcall List.not_mem_nil) hm
      cases emplaced <;> exact fun c hc => hc
  | reconnected i c newSocket left hreading hstate =>
      refine closedOnce_keeps m _ pc _ ?_ (fun call hcall => absurd hcall List.not_mem_nil) hm
      rw [Pump.leave_eq]
      exact fun c hc => hc
  | fellThrough i c ret left hreading hstate =>
      refine closedOnce_keeps m _ pc _ ?_ (fun call hcall => absurd hcall List.not_mem_nil) hm
      rw [Pump.leave_eq]
      exact fun c hc => hc
  | flushed i c left p' hc hready hflushes =>
      refine closedOnce_keeps m _ pc _ ?_ ?_ hm
      · rw [Pump.connections_of_books hflushes.books]
        exact fun c hc => hc
      · intro call hcall
        obtain rfl := List.mem_singleton.mp hcall
        trivial
  | disconnected i c left hc hefds =>
      -- the element removed is the only one of its channel
      have hother : ∀ k ∈ m.pump.connections.eraseIdx i, k ∈ m.pump.connections ∧ k ∉ [c] := by
        intro k hk
        obtain ⟨hmem, hne⟩ := Pump.mem_of_eraseIdx m.pump i c k hc hunique hk
        exact ⟨hmem, fun h => hne (List.mem_singleton.mp h)⟩
      have hcalls : (m.pump.disconnect i c left).calls = []
          ∨ (m.pump.disconnect i c left).calls = [c].map .closeChannel := by
        unfold Pump.disconnect
        split
        · exact .inl rfl
        · exact .inr rfl
      rw [Pump.disconnect_eq]
      rcases hcalls with hnone | hclose
      · rw [hnone]
        exact closedOnce_keeps m _ pc [] (fun k hk => (hother k hk).1)
          (fun call hcall => absurd hcall List.not_mem_nil) hm
      · rw [hclose]
        refine closedOnce_close m _ pc [c] (List.nodup_singleton c) ?_ hother hm
        intro k hk
        exact List.mem_singleton.mp hk ▸ List.mem_of_getElem? hc
  | notified c env left leftByFlush loop h' p' hclient hserves hflushed hflushes =>
      refine closedOnce_keeps m _ pc _ ?_ ?_ hm
      · rw [Pump.connections_of_books (hflushes.books.trans hserves.books)]
        exact fun c hc => hc
      · intro call hcall
        rcases List.mem_append.mp hcall with hserved | hflush
        · exact Pump.keeps_of_harmless _ _ call (hserves.calls call hserved)
        · exact Pump.keeps_flushCalls c loop call hflush
  | tornDown left =>
      simp only [Pump.teardown, Pump.closeConnections_calls]
      exact closedOnce_close m _ pc m.pump.connections hunique (fun c hc => hc)
        (fun c hc => absurd hc List.not_mem_nil) hm
  | reset | downgraded | threw | closing =>
      exact closedOnce_keeps m _ pc [] (fun c hc => hc)
        (fun call hcall => absurd hcall List.not_mem_nil) hm

/-- A step that rejects a session does not. -/
theorem not_closedOnce_step (m m' : Machine) (op : Op) (hm : m.ClosedOnce)
    (hrejects : m.pump.rejects op = true) (hstep : m.step op = some m') : ¬ m'.ClosedOnce := by
  obtain ⟨h, pc, hexec, -, rfl⟩ := (step_eq_some m m' op).mp hstep
  obtain ⟨c, hc, hconnections, hcalls⟩ := Pump.exec_rejects m.pump op h hexec hrejects
  intro hm'
  have hclosed : (m.record.logAll h.calls).closes c = some 1 := by
    rw [hcalls]
    simp [Record.logAll, Record.log, hm.gone c hc]
  have hopen := hm'.gone c (hconnections ▸ hc)
  exact absurd (hclosed.symm.trans hopen) (by simp)

end Machine

/-! ## Whole runs -/

/-- **In a run no channel is closed twice, and none is closed and kept, exactly when no session is
    rejected**, if `rsslAccept` returns no channel that is still open. -/
theorem closedOnce_iff (m₀ : Machine) (p : Steps Machine Op) (hrun : pumpSystem.Run m₀ p)
    (hopen : Along (fun m op _ => m.OpensClosed op) m₀ p) :
    Along (fun _ _ m' => m'.ClosedOnce) m₀ p
      ↔ Along (fun m op _ => m.pump.rejects op = false) m₀ p := by
  let kept : Machine → Prop := fun m => m.ClosedOnce ∧ m.pump.connections.Nodup
  have hinit : kept m₀ := by
    obtain ⟨-, hconnections, -, -, -, hrecord⟩ := hrun.1
    refine ⟨⟨fun c n hn => ?_, fun c hc => ?_⟩, ?_⟩
    · rw [hrecord] at hn
      exact absurd hn (by simp)
    · rw [hconnections] at hc
      exact absurd hc List.not_mem_nil
    · rw [hconnections]
      exact List.nodup_nil
  have hall := (along_and _ _ m₀ p).mpr ⟨hrun.2, hopen⟩
  constructor
  · intro hclosed
    -- each state reached is kept, so a rejection would show in the next
    have hinv := along_invariant _ kept
      (fun m op m' hm h => ⟨h.2, m.unique_step m' op hm.1 hm.2 h.1.2 h.1.1⟩) m₀ p hinit
      ((along_and _ _ m₀ p).mpr ⟨hall, hclosed⟩)
    refine along_imp _ _ (fun m op m' h => ?_) m₀ p ((along_and _ _ m₀ p).mpr ⟨hall, hinv.1⟩)
    by_contra hrejects
    rw [Bool.not_eq_false] at hrejects
    exact m.not_closedOnce_step m' op h.2.1.1 hrejects h.1.1 h.2.2.1
  · intro hnone
    have hinv := along_invariant _ kept
      (fun m op m' hm h => ⟨m.closedOnce_step m' op hm.1 hm.2 h.2 h.1.1,
        m.unique_step m' op hm.1 hm.2 h.1.2 h.1.1⟩) m₀ p hinit
      ((along_and _ _ m₀ p).mpr ⟨hall, hnone⟩)
    exact along_imp _ _ (fun m op m' h => h.2.1) m₀ p hinv.1

/-- `Run` ends and `Close` finds no client to wait for. -/
def closeProvider : List Op :=
  [.select 0 ∅ ∅ ∅, .doWork 5] ++ [.keepalive 0 .success none, .disconnect 0 .closed]
    ++ [.returns true, .close, .drain, .teardown fun _ => .closed]

/-- A consumer connects, and its session cannot be initialised. -/
def rejectConsumer : List Op :=
  connectConsumer ++ activateConsumer .uninitialized ++ closeProvider

section Replay

set_option maxRecDepth 20000

theorem comeAndGo_closedOnce :
    ∃ p, replay Machine.step Machine.bound comeAndGo = some p
      ∧ Along (fun _ _ m' => m'.ClosedOnce) Machine.bound p := by
  refine ⟨_, rfl, (closedOnce_iff Machine.bound _
    (run_replay _ Machine.step Machine.bound comeAndGo _ bound_init rfl) ?_).mpr ?_⟩
  · decide
  · decide

/-- The channel is closed when its session is rejected, and again when the provider closes. -/
theorem rejectConsumer_closes_twice :
    ∃ p, pumpSystem.Run Machine.bound p
      ∧ replay Machine.step Machine.bound rejectConsumer = some p
      ∧ Along (fun m op _ => m.OpensClosed op) Machine.bound p
      ∧ (last Machine.bound p).record.closes 0x7f00 = some 2 := by
  refine ⟨_, run_replay _ Machine.step Machine.bound rejectConsumer _ bound_init rfl, rfl, ?_, ?_⟩
  · decide
  · rfl

end Replay

end Hitsuji
