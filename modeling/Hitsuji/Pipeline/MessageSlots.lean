import Hitsuji.Pipeline.Notification
import Hitsuji.Sbe.Distribute
import Hitsuji.Worker.MainLoop

set_option autoImplicit false

/-! # The message slots

`worker_t` and `hitsuji_t` build and receive all their ZeroMQ messages in one member each,
`zmq_msg_`. A worker builds the reply over the request it received; the main thread leaves a reply
that it cannot pass on where it is, and the next message it builds or receives takes its place. -/

namespace Hitsuji

open ByteBuffer Transition

/-! ## The calls of the main thread -/

/-- What the ZeroMQ calls that distribute a message return. -/
structure SendEnv where
  /-- the memory `zmq_msg_init_size` hands out -/
  mem : Nat → UInt8
  msgInitSize : Bool
  msgSend : Bool
  msgClose : Bool

/-- A method of `hitsuji_t` that uses `zmq_msg_`, for `OnRead` with the reply that is next. -/
inductive SlotUse where
  | onRequest (r : ItemRequest) (z : SendEnv)
  | onRead (p : Provider) (env : Env) (z : ReadEnv) (msg : Bytes)
  | abortOneWorker (z : SendEnv)

/-- The calls that distribute a message; writing it may throw in between. -/
def distributeCalls (z : SendEnv) (written : Except Fault Bytes) : List Slot.Op :=
  if z.msgInitSize = false then [.init false]
  else if written.isOk = false then [.init true]
  else .init true :: if z.msgSend then [.send true] else [.send false, .close z.msgClose]

/-- The calls of `OnRead`; if `OnReply` returns false or throws, it leaves before it closes. -/
def readCalls (p : Provider) (env : Env) (z : ReadEnv) (msg : Bytes) : List Slot.Op :=
  if z.events ≠ some true then []
  else if z.msgInit = false then [.init false]
  else if z.msgRecv = false then [.init true, .recv false, .close z.msgClose]
  else
    [.init true, .recv true] ++
      if (p.onReply env msg).any Prod.fst then [.close z.msgClose] else []

namespace SlotUse

/-- The calls on `zmq_msg_`. -/
def calls : SlotUse → List Slot.Op
  | .onRequest r z =>
      distributeCalls z (r.viewByFid.elim (encodeRequest z.mem r) (encodeViewRequest z.mem r))
  | .onRead p env z msg => readCalls p env z msg
  | .abortOneWorker z => distributeCalls z (encodeAbort z.mem)

/-- A message is initialised. -/
def Starts : SlotUse → Prop
  | .onRequest _ z | .abortOneWorker z => z.msgInitSize = true
  | .onRead _ _ z _ => z.events = some true ∧ z.msgInit = true

/-- And left behind: it has a view, which never fits, or it is a reply that is not taken, or
    ZeroMQ neither sends nor closes it. -/
def Strands : SlotUse → Prop
  | .onRequest r z =>
      z.msgInitSize = true
        ∧ (r.viewByFid.isSome = true ∨ z.msgSend = false ∧ z.msgClose = false)
  | .abortOneWorker z => z.msgInitSize = true ∧ z.msgSend = false ∧ z.msgClose = false
  | .onRead p env z msg =>
      z.events = some true ∧ z.msgInit = true
        ∧ (z.msgClose = false ∨ z.msgRecv = true ∧ p.delivers env msg = false)

end SlotUse

/-! ## What OnReply returns -/

/-- The length of the data is kept in one byte. -/
theorem varDataLength_le (m : Flyweight) (buf : Bytes) (n : Nat)
    (h : m.varDataLength buf = .ok n) : n ≤ 255 := by
  obtain ⟨xs, hload, h⟩ := bind_eq_ok _ _ _ h
  obtain rfl := Except.ok.inj h
  have hlen : xs.length ≤ 1 := by
    unfold load at hload
    split at hload
    · obtain rfl := Except.ok.inj hload
      exact List.length_take_le _ _
    · exact absurd hload (by simp)
  match xs, hlen with
  | [], _ => exact Nat.zero_le _
  | [b], _ =>
      have hb := b.toNat_lt
      simp only [leNat]
      omega

theorem decodeReply_length (buffer : Bytes) (view : ReplyView)
    (h : decodeReply .lengthFirst buffer = .ok view) : view.rsslBufferLength ≤ 255 := by
  obtain ⟨hdr, -, h⟩ := bind_eq_ok _ _ _ h
  obtain ⟨blockLength, -, h⟩ := bind_eq_ok _ _ _ h
  obtain ⟨version, -, h⟩ := bind_eq_ok _ _ _ h
  obtain ⟨reply, -, h⟩ := bind_eq_ok _ _ _ h
  obtain ⟨handle, -, h⟩ := bind_eq_ok _ _ _ h
  obtain ⟨token, -, h⟩ := bind_eq_ok _ _ _ h
  obtain ⟨args, hargs, h⟩ := bind_eq_ok _ _ _ h
  obtain ⟨length, hlength, hargs⟩ := bind_eq_ok _ _ _ hargs
  obtain ⟨data, -, hargs⟩ := bind_eq_ok _ _ _ hargs
  obtain rfl := Except.ok.inj hargs
  obtain rfl := Except.ok.inj h
  exact varDataLength_le reply buffer length hlength

/-- The reply is taken exactly if `OnReply` returns true: its assertion on the length holds of
    every message. -/
theorem onReply_any (p : Provider) (env : Env) (msg : Bytes) :
    (p.onReply env msg).any Prod.fst = p.delivers env msg := by
  cases h : p.onReply env msg with
  | some done => exact p.onReply_ret done.2.1 env msg done.1 done.2.2 h
  | none =>
      show false = p.delivers env msg
      unfold Provider.onReply at h
      unfold Provider.delivers
      cases hview : decodeReply .lengthFirst msg with
      | error fault => rfl
      | ok view =>
          have hlength := decodeReply_length msg view hview
          have hshort : (view.payload msg).length ≤ 255 :=
            (List.length_take_le _ _).trans hlength
          simp only [hview, Provider.sendReply] at h
          split at h
          · exact absurd h (by simp)
          · next c hc =>
              have hnone := Option.map_eq_none_iff.mp h
              unfold Session.sendReply at hnone
              split at hnone
              · next hlong =>
                  have hlong := of_decide_eq_true (Bool.and_eq_true_iff.mp hlong).2
                  simp only [maxMsgSize] at hlong
                  omega
              · split at hnone
                · exact absurd hnone (by simp)
                · split at hnone <;> exact absurd hnone (by simp)

/-! ## Blocks -/

theorem distributeCalls_slot (z : SendEnv) (written : Except Fault Bytes) :
    Slot.Block (distributeCalls z written)
      ∧ (Slot.Initialises (distributeCalls z written) ↔ z.msgInitSize = true)
      ∧ (Slot.Keeps (distributeCalls z written) ↔ z.msgInitSize = true
        ∧ (written.isOk = false ∨ z.msgSend = false ∧ z.msgClose = false)) := by
  unfold distributeCalls
  generalize z.msgInitSize = initialised
  generalize z.msgSend = sent
  generalize z.msgClose = closed
  generalize written.isOk = whole
  revert initialised sent closed whole
  decide

theorem readCalls_slot (p : Provider) (env : Env) (z : ReadEnv) (msg : Bytes) :
    Slot.Block (readCalls p env z msg)
      ∧ (Slot.Initialises (readCalls p env z msg) ↔ z.events = some true ∧ z.msgInit = true)
      ∧ (Slot.Keeps (readCalls p env z msg) ↔ z.events = some true ∧ z.msgInit = true
        ∧ (z.msgClose = false ∨ z.msgRecv = true ∧ p.delivers env msg = false)) := by
  unfold readCalls
  rw [onReply_any]
  by_cases hevents : z.events ≠ some true
  · rw [if_pos hevents]
    exact ⟨by decide, iff_of_false (by decide) fun h => hevents h.1,
      iff_of_false (by decide) fun h => hevents h.1⟩
  rw [if_neg hevents, not_not.mp hevents]
  generalize z.msgInit = initialised
  generalize z.msgRecv = received
  generalize z.msgClose = closed
  generalize p.delivers env msg = taken
  revert initialised received closed taken
  decide

namespace SlotUse

/-- What a use of the slot does to it. -/
theorem calls_slot (u : SlotUse) :
    Slot.Block u.calls ∧ (Slot.Initialises u.calls ↔ u.Starts)
      ∧ (Slot.Keeps u.calls ↔ u.Strands) := by
  cases u with
  | onRead p env z msg => exact readCalls_slot p env z msg
  | abortOneWorker z =>
      obtain ⟨fields, -, habort⟩ := encodeAbort_eq z.mem
      obtain ⟨hblock, hstarts, hkeeps⟩ := distributeCalls_slot z (encodeAbort z.mem)
      refine ⟨hblock, hstarts, hkeeps.trans ?_⟩
      rw [habort]
      simp [Strands, Except.isOk, Except.toBool]
  | onRequest r z =>
      obtain ⟨hblock, hstarts, hkeeps⟩ := distributeCalls_slot z
        (r.viewByFid.elim (encodeRequest z.mem r) (encodeViewRequest z.mem r))
      refine ⟨hblock, hstarts, hkeeps.trans ?_⟩
      simp only [Strands]
      cases r.viewByFid with
      | none => simp [encodeRequest_eq, Except.isOk, Except.toBool]
      | some fids =>
          have hfault : (encodeViewRequest z.mem r fids).isOk = false := by
            cases hwritten : encodeViewRequest z.mem r fids with
            | error fault => rfl
            | ok msg => exact absurd hwritten (encodeViewRequest_faults z.mem r fids msg)
          simp [hfault]

end SlotUse

/-! ## Slot discipline -/

/-- **No message is lost exactly if no request is answered**: in a run of `MainLoop` every task that
    comes to `SendReply` loses its request. In a sequence of calls of `hitsuji_t` a message is lost
    exactly if the slot is used again after a message was stranded in it. -/
theorem slots_disciplined_iff (s₀ : Option Worker) (p : Steps (Option Worker) Iteration)
    (hrun : mainLoopSystem.Run s₀ p) (uses : List SlotUse) :
    (Slot.Disciplined false (slotCalls s₀ p)
        ↔ Along (fun s i _ => ∀ w ∈ s, ¬ w.Answers i) s₀ p)
      ∧ (Slot.Disciplined false (uses.map SlotUse.calls).flatten
        ↔ uses.Pairwise fun u u' => u.Strands → ¬ u'.Starts) := by
  refine ⟨slotCalls_disciplined_iff s₀ p hrun.2, ?_⟩
  have hblocks : ∀ b ∈ uses.map SlotUse.calls, Slot.Block b := by
    intro b hb
    obtain ⟨u, -, rfl⟩ := List.mem_map.mp hb
    exact u.calls_slot.1
  rw [Slot.disciplined_blocks _ hblocks, List.pairwise_map]
  refine List.Pairwise.iff fun u u' => ?_
  rw [u.calls_slot.2.2, u'.calls_slot.2.1]

/-- An iteration in which ZeroMQ fails nowhere. -/
def receiving (task : Task) : Iteration where
  msgInit := true
  msgRecv := some task.2
  env := task.1
  replyClose := true
  msgClose := true

/-- A run of the loop of one iteration. -/
theorem oneIteration_run (i : Iteration) :
    mainLoopSystem.Run (some freshWorker) [(i, (freshWorker.iterate i).2)] :=
  ⟨⟨_, rfl⟩, ⟨freshWorker, rfl, rfl⟩, trivial⟩

/-- A message distributed by a ZeroMQ that fails nowhere. -/
def sends : SendEnv :=
  ⟨fun _ => 0, true, true, true⟩

/-- A worker is told to stop. -/
def told : Iteration :=
  receiving ((askFor []).1, requestHeader ++ List.replicate 16 0 ++ [Flags.setAbort true 0])

/-- Told to stop, a worker loses nothing, nor does the main thread that tells it after a request. -/
theorem told_disciplined :
    Slot.Disciplined false (slotCalls (some freshWorker) [(told, (freshWorker.iterate told).2)])
      ∧ Slot.Disciplined false
        ([.onRequest requestForU sends, .abortOneWorker sends].map SlotUse.calls).flatten := by
  obtain ⟨hworker, hhost⟩ := slots_disciplined_iff (some freshWorker) _ (oneIteration_run told)
    [.onRequest requestForU sends, .abortOneWorker sends]
  refine ⟨hworker.mpr ⟨?_, trivial⟩, hhost.mpr ?_⟩
  · rintro w - ⟨-, -, msg, hmsg, view, hview, -⟩
    obtain rfl := Option.some.inj hmsg
    rw [decodeRequest_abort _ List.length_replicate] at hview
    exact absurd hview (by simp)
  · have hsent : ¬ (SlotUse.onRequest requestForU sends).Strands := by
      rintro ⟨-, hview | ⟨hsend, -⟩⟩
      · exact absurd hview (by decide)
      · exact absurd hsend (by decide)
    simp [hsent]

/-- A worker is asked for the item "u". -/
def asked : Iteration :=
  receiving (askFor (ascii "u"))

/-- `OnRead` of a reply to a channel without a client. -/
def readsForNobody : SlotUse :=
  .onRead ⟨fun _ => clearSession.channel, fun _ => none, clearSession.provider, 3, ∅, ∅, ∅⟩
    willingEnv ⟨some true, true, true, true, some false⟩ (replyImage 0x7f00 5 0 [])

section Replay

set_option maxRecDepth 20000

/-- A worker that answers a request loses it, and a reply to nobody is lost to the next message. -/
theorem answered_undisciplined :
    (mainLoopSystem.Run (some freshWorker) [(asked, (freshWorker.iterate asked).2)]
      ∧ ¬ Slot.Disciplined false (slotCalls (some freshWorker)
        [(asked, (freshWorker.iterate asked).2)]))
      ∧ ¬ Slot.Disciplined false
        ([readsForNobody, .abortOneWorker sends].map SlotUse.calls).flatten := by
  refine ⟨⟨oneIteration_run asked, ?_⟩, ?_⟩
  · have hanswers : freshWorker.Answers asked := ⟨rfl, rfl, _, rfl, _, rfl, .inl rfl⟩
    rw [slotCalls_disciplined_iff _ _ (oneIteration_run _).2]
    exact fun h => h.1 freshWorker rfl hanswers
  · have hstranded : readsForNobody.Strands := ⟨rfl, rfl, .inr ⟨rfl, rfl⟩⟩
    intro h
    rw [List.map_cons, List.flatten_cons, Slot.disciplined_append,
      show Slot.held false readsForNobody.calls = true from
        readsForNobody.calls_slot.2.2.mpr hstranded] at h
    exact absurd h.2.1 (by decide)

end Replay

end Hitsuji
