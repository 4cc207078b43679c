import Hitsuji.Lib.Slot
import Hitsuji.Worker.Independence
import Hitsuji.Worker.Interval

set_option autoImplicit false

/-! # The main loop of a worker

`worker_t::MainLoop` receives a request into the member `zmq_msg_`, hands its bytes to `OnTask` and
closes it. `OnTask` ends in `SendReply`, which builds the reply in the same member. -/

namespace Hitsuji

open ByteBuffer Transition

/-! ## How a task ends -/

/-- `OnTask` ends in `SendReply`, or returns false before it. -/
inductive Ending where
  | sendReply (w : Worker) (handle : UInt64) (token : Int32)
  | returnFalse (w : Worker)

/-- Carrying it out. -/
def Ending.finish (env : TaskEnv) : Ending → Option TaskDone
  | .sendReply w handle token => w.sendReply env handle token
  | .returnFalse w => some ⟨false, w, none⟩

namespace Worker

/-- `WriteRawClose` in `OnTask`, up to `send_reply`. -/
def closing (w : Worker) (env : TaskEnv) (view : RequestView) (itemName : Bytes)
    (streamState : StreamState) (statusCode : StatusCode) (statusText : Bytes) : Option Ending :=
  match w.encode env (writeRawClose env.dcheckIsOn view.rwfVersion
    (closeArgs view itemName streamState statusCode statusText) w.rssl.length) with
  | (.complete _, w) => some (.sendReply w view.handle view.token)
  | (.failed _, w) => some (.returnFalse w)
  | (.checkFailed, _) => none

/-- `WriteRaw` in `OnTask`, up to `send_reply`. -/
def responding (w : Worker) (env : TaskEnv) (view : RequestView) (itemName : Bytes)
    (a : Analytic) : Option Ending :=
  match w.encode env (a.writeRaw env.dcheckIsOn view.rwfVersion view.token view.serviceId itemName
    w.dacsLock w.rssl.length) with
  | (.complete _, w) => some (.sendReply w view.handle view.token)
  | (.failed _, w) => w.closing env view itemName .closedRecover .error kErrorInternal
  | (.checkFailed, _) => none

end Worker

/-- `OnTask` from there on, up to `send_reply`. -/
def Prepared.ending (env : TaskEnv) (view : RequestView) (itemName : Bytes) :
    Prepared → Option Ending
  | .close w streamState statusCode statusText =>
      w.closing env view itemName streamState statusCode statusText
  | .calculate w a =>
      let calculated := a.calculate env.db w.underlyingSymbol
      let w := w.put calculated.2
      if calculated.1 = false then
        w.closing env view itemName .closedRecover .error Worker.kErrorInternal
      else w.responding env view itemName calculated.2

namespace Worker

/-- `OnTask` up to `send_reply`. -/
def onTaskEnding (w : Worker) (env : TaskEnv) (buffer : Bytes) : Option Ending :=
  match decodeRequest .lengthFirst buffer with
  | .error _ => none
  | .ok none => some (.returnFalse w)
  | .ok (some view) =>
      (w.prepare env.db (view.name buffer)).ending env view (view.name buffer)

section

variable (w : Worker) (env : TaskEnv) (view : RequestView) (itemName : Bytes)

theorem sendClose_ending (streamState : StreamState) (statusCode : StatusCode)
    (statusText : Bytes) :
    w.sendClose env view itemName streamState statusCode statusText
      = (w.closing env view itemName streamState statusCode statusText).bind
          (Ending.finish env) := by
  unfold sendClose closing
  generalize w.encode env _ = encoded
  obtain ⟨calls | exit | _, w'⟩ := encoded <;> rfl

theorem respond_ending (a : Analytic) :
    w.respond env view itemName a
      = (w.responding env view itemName a).bind (Ending.finish env) := by
  unfold respond responding
  generalize w.encode env _ = encoded
  obtain ⟨calls | exit | _, w'⟩ := encoded
  · rfl
  · exact sendClose_ending w' env view itemName _ _ _
  · rfl

theorem resume_ending (prepared : Prepared) :
    prepared.resume env view itemName
      = (prepared.ending env view itemName).bind (Ending.finish env) := by
  cases prepared with
  | close w streamState statusCode statusText =>
      exact sendClose_ending w env view itemName _ _ _
  | calculate w a =>
      unfold Prepared.resume Prepared.ending
      dsimp only
      split
      · exact sendClose_ending _ env view itemName _ _ _
      · exact respond_ending _ env view itemName _

/-- **A task comes to its ending**, and then carries it out. -/
theorem onTask_ending (buffer : Bytes) :
    w.onTask env buffer = (w.onTaskEnding env buffer).bind (Ending.finish env) := by
  unfold onTask onTaskEnding
  rcases decodeRequest .lengthFirst buffer with fault | _ | view
  · rfl
  · rfl
  · exact (onView_prepare w env view _).trans (resume_ending env view _ _)

end

end Worker

/-! ## Which requests are answered -/

/-- `WriteRawClose` of a task. -/
def closeWrite (env : TaskEnv) (view : RequestView) (itemName : Bytes) (streamState : StreamState)
    (statusCode : StatusCode) (statusText : Bytes) : Encoded :=
  encodeWith env.codec (writeRawClose env.dcheckIsOn view.rwfVersion
    (Worker.closeArgs view itemName streamState statusCode statusText) maxMsgSize)

/-- The status or the refresh can be encoded, or a status in place of the refresh. -/
def Result.Encodable (env : TaskEnv) (view : RequestView) (itemName lock : Bytes) : Result → Prop
  | .close streamState statusCode statusText =>
      (closeWrite env view itemName streamState statusCode statusText).isComplete = true
  | .refresh a =>
      (refreshWrite env view itemName a lock).isComplete = true
        ∨ refreshWrite env view itemName a lock ≠ .checkFailed
          ∧ (closeWrite env view itemName .closedRecover .error
            Worker.kErrorInternal).isComplete = true

/-- The message is an item request that something can be encoded for. -/
def Encodable (env : TaskEnv) (buffer lock : Bytes) : Prop :=
  ∃ view, decodeRequest .lengthFirst buffer = .ok (some view)
    ∧ (outcome env.db (view.name buffer)).result.Encodable env view (view.name buffer)
      ((outcome env.db (view.name buffer)).delivered.getD lock)

/-- The same task with ZeroMQ willing. -/
def TaskEnv.sending (env : TaskEnv) : TaskEnv :=
  { env with msgInitSize := true, msgSend := true }

section

variable (env : TaskEnv) (view : RequestView) (itemName : Bytes)

theorem closeAnswer_isSome (streamState : StreamState) (statusCode : StatusCode)
    (statusText : Bytes) :
    ((closeAnswer env.sending view itemName streamState statusCode statusText).bind
      Prod.snd).isSome = (closeWrite env view itemName streamState statusCode
        statusText).isComplete := by
  unfold closeAnswer closeWrite
  -- willing ZeroMQ calls change nothing of what is encoded
  have hcodec : env.sending.codec = env.codec := rfl
  have hassert : env.sending.dcheckIsOn = env.dcheckIsOn := rfl
  rw [hcodec, hassert]
  generalize encodeWith env.codec _ = encoded
  cases encoded with
  | complete | failed | checkFailed => rfl

/-- What can be encoded is sent if ZeroMQ is willing. -/
theorem answer_isSome_iff (lock : Bytes) (r : Result) :
    ((r.answer env.sending view itemName lock).bind Prod.snd).isSome = true
      ↔ r.Encodable env view itemName lock := by
  cases r with
  | close streamState statusCode statusText =>
      unfold Result.answer Result.Encodable
      rw [closeAnswer_isSome]
  | refresh a =>
      simp only [Result.answer, Result.Encodable, refreshAnswer]
      rw [show refreshWrite env.sending view itemName a lock
        = refreshWrite env view itemName a lock from rfl]
      generalize refreshWrite env view itemName a lock = encoded
      cases encoded with
      | complete calls => exact iff_of_true rfl (.inl rfl)
      | failed exit =>
          dsimp only
          rw [closeAnswer_isSome]
          simp [Encoded.isComplete]
      | checkFailed => simp [Encoded.isComplete]

end

theorem ending_sending (env : TaskEnv) (view : RequestView) (itemName : Bytes)
    (prepared : Prepared) :
    prepared.ending env.sending view itemName = prepared.ending env view itemName := by
  cases prepared <;> rfl

namespace Worker

/-- How a task ends is settled before ZeroMQ is asked. -/
theorem onTaskEnding_sending (w : Worker) (env : TaskEnv) (buffer : Bytes) :
    w.onTaskEnding env.sending buffer = w.onTaskEnding env buffer := by
  unfold onTaskEnding
  rcases decodeRequest .lengthFirst buffer with fault | _ | view
  · rfl
  · rfl
  · exact ending_sending env view _ _

/-- `OnTask` comes to `SendReply` exactly if there is something to send. -/
theorem ending_iff (w : Worker) (env : TaskEnv) (buffer : Bytes) :
    (∃ w' handle token, w.onTaskEnding env buffer = some (.sendReply w' handle token))
      ↔ Encodable env buffer w.dacsLock := by
  -- let ZeroMQ be willing
  have hreply : w.reply (env.sending, buffer)
      = ((w.onTaskEnding env buffer).bind (Ending.finish env.sending)).bind TaskDone.reply := by
    rw [reply, onTask_ending, onTaskEnding_sending]
  have hsent : (w.reply (env.sending, buffer)).isSome = true
      ↔ ∃ w' handle token, w.onTaskEnding env buffer = some (.sendReply w' handle token) := by
    rw [hreply]
    rcases w.onTaskEnding env buffer with _ | (⟨w', handle, token⟩ | w')
    · simp
    · refine iff_of_true ?_ ⟨w', handle, token, rfl⟩
      simp [Ending.finish, Worker.sendReply, TaskEnv.sending, encodeReply_eq]
    · simp [Ending.finish]
  rw [← hsent, reply_serve]
  unfold Encodable
  cases hview : decodeRequest .lengthFirst buffer with
  | error fault => simp [serve, hview]
  | ok decoded =>
      cases decoded with
      | none => simp [serve, hview]
      | some view =>
          rw [serve_reply _ _ view hview, show env.sending.db = env.db from rfl,
            answer_isSome_iff]
          simp

end Worker

/-! ## The loop -/

/-- The calls of `SendReply` on `zmq_msg_`, the last of them if sending fails; writing the reply
    never throws. -/
def sendReplyCalls (env : TaskEnv) (msgClose : Bool) : List Slot.Op :=
  if env.msgInitSize then
    .init true :: if env.msgSend then [.send true] else [.send false, .close msgClose]
  else [.init false]

/-- The calls of an ending on `zmq_msg_`. -/
def Ending.calls (env : TaskEnv) (msgClose : Bool) : Ending → List Slot.Op
  | .sendReply .. => sendReplyCalls env msgClose
  | .returnFalse _ => []

/-- What the ZeroMQ calls of one iteration of `MainLoop` return, and what its task meets. -/
structure Iteration where
  msgInit : Bool
  /-- the message `zmq_msg_recv` delivers -/
  msgRecv : Option Bytes
  env : TaskEnv
  /-- `zmq_msg_close` in `SendReply`, and in the loop -/
  replyClose : Bool
  msgClose : Bool

namespace Worker

/-- The calls of `OnTask` on `zmq_msg_`. -/
def onTaskCalls (w : Worker) (env : TaskEnv) (buffer : Bytes) (msgClose : Bool) : List Slot.Op :=
  (w.onTaskEnding env buffer).elim [] (Ending.calls env msgClose)

/-- One iteration of `MainLoop`: the calls on `zmq_msg_`, and the worker if the loop goes on. -/
def iterate (w : Worker) (i : Iteration) : List Slot.Op × Option Worker :=
  if i.msgInit = false then ([.init false], none)
  else
    match i.msgRecv with
    | none => ([.init true, .recv false, .close i.msgClose], none)
    | some msg =>
        let calls := [.init true, .recv true] ++ w.onTaskCalls i.env msg i.replyClose
        match w.onTask i.env msg with
        -- an exception that nothing catches
        | none => (calls, none)
        | some done =>
            if done.ret then (calls ++ [.close i.msgClose],
              if i.msgClose then some done.worker else none)
            else (calls, none)

end Worker

/-- A worker in its loop, `none` once the loop is left. -/
def mainLoopSystem : System (Option Worker) Iteration where
  init s := ∃ rssl, s = some (Worker.initial rssl)
  step s i s' := ∃ w, s = some w ∧ s' = (w.iterate i).2

/-- The calls on `zmq_msg_` over a run. -/
def slotCalls : Option Worker → Steps (Option Worker) Iteration → List Slot.Op
  | _, [] => []
  | s, (i, s') :: rest => s.elim [] (fun w => (w.iterate i).1) ++ slotCalls s' rest

/-- The iteration receives a request, and the reply to it is built. -/
def Worker.Answers (w : Worker) (i : Iteration) : Prop :=
  i.msgInit = true ∧ i.env.msgInitSize = true
    ∧ ∃ msg ∈ i.msgRecv, Encodable i.env msg w.dacsLock

/-- A task that has received a request must not come to build the reply. -/
theorem ending_disciplined_iff (env : TaskEnv) (msgClose : Bool) (ending : Option Ending) :
    Slot.Disciplined true (ending.elim [] (Ending.calls env msgClose))
      ↔ ¬ (env.msgInitSize = true
        ∧ ∃ w handle token, ending = some (.sendReply w handle token)) := by
  rcases ending with _ | (⟨w, handle, token⟩ | w)
  · exact iff_of_true trivial (by simp)
  · simp only [Option.elim_some, Ending.calls, sendReplyCalls]
    split
    · next hinit =>
        refine iff_of_false (fun h => ?_) (not_not.mpr ⟨hinit, w, handle, token, rfl⟩)
        exact absurd h.1 (by decide)
    · next hinit => exact iff_of_true (by decide) fun h => hinit h.1
  · exact iff_of_true trivial (by simp)

namespace Worker

/-- An iteration loses the request it received exactly if it answers it. -/
theorem iterate_disciplined_iff (w : Worker) (i : Iteration) :
    Slot.Disciplined false (w.iterate i).1 ↔ ¬ w.Answers i := by
  unfold iterate Answers
  by_cases hinit : i.msgInit = false
  · rw [if_pos hinit]
    exact iff_of_true (by decide) (by simp [hinit])
  rw [if_neg hinit]
  cases hrecv : i.msgRecv with
  | none =>
      dsimp only
      generalize i.msgClose = ok
      exact iff_of_true (by revert ok; decide) (by simp)
  | some msg =>
      have hcalls : Slot.Disciplined false ([.init true, .recv true] ++
          w.onTaskCalls i.env msg i.replyClose)
            ↔ ¬ (i.env.msgInitSize = true ∧ Encodable i.env msg w.dacsLock) := by
        rw [Slot.disciplined_append, ← w.ending_iff, onTaskCalls,
          ← ending_disciplined_iff _ i.replyClose]
        exact and_iff_right (by decide)
      -- the close at the end changes nothing
      have hclosed : ∀ ops, Slot.Disciplined false (ops ++ [.close i.msgClose])
          ↔ Slot.Disciplined false ops := by
        intro ops
        rw [Slot.disciplined_append]
        exact and_iff_left ⟨rfl, trivial⟩
      have hrequest : ¬ (i.msgInit = true ∧ i.env.msgInitSize = true
          ∧ ∃ msg' ∈ some msg, Encodable i.env msg' w.dacsLock)
            ↔ ¬ (i.env.msgInitSize = true ∧ Encodable i.env msg w.dacsLock) := by
        simp [Bool.eq_true_of_not_eq_false hinit]
      rw [hrequest, ← hcalls]
      dsimp only
      split
      · exact Iff.rfl
      · split
        · exact hclosed _
        · exact Iff.rfl

/-- Going on, an iteration leaves the slot empty. -/
theorem iterate_empties (w w' : Worker) (i : Iteration) (h : (w.iterate i).2 = some w') :
    Slot.held false (w.iterate i).1 = false := by
  unfold iterate at h ⊢
  split at h
  · exact absurd h (by simp)
  next hinit =>
    rw [if_neg hinit]
    split at h
    · exact absurd h (by simp)
    · next msg hrecv =>
        dsimp only at h ⊢
        split at h
        · exact absurd h (by simp)
        · next done hdone =>
            split at h
            · next hret =>
                rw [if_pos hret]
                split at h
                · next hclose => simp [Slot.held, Slot.Op.after, hclose]
                · exact absurd h (by simp)
            · exact absurd h (by simp)

end Worker

/-- The calls of a run of the loop from an empty slot: no request is lost exactly if none is
    answered. -/
theorem slotCalls_disciplined_iff (s : Option Worker) (p : Steps (Option Worker) Iteration)
    (hsteps : Along mainLoopSystem.step s p) :
    Slot.Disciplined false (slotCalls s p)
      ↔ Along (fun s i _ => ∀ w ∈ s, ¬ w.Answers i) s p := by
  induction p generalizing s with
  | nil => exact Iff.rfl
  | cons t rest ih =>
      obtain ⟨i, s'⟩ := t
      obtain ⟨⟨w, rfl, rfl⟩, hrest⟩ := hsteps
      have hhead : (∀ w' ∈ some w, ¬ w'.Answers i) ↔ ¬ w.Answers i := by simp
      show Slot.Disciplined false ((w.iterate i).1 ++ slotCalls (w.iterate i).2 rest)
        ↔ (∀ w' ∈ some w, ¬ w'.Answers i) ∧ _
      rw [Slot.disciplined_append, w.iterate_disciplined_iff, hhead]
      refine and_congr_right fun _ => ?_
      cases hnext : (w.iterate i).2 with
      | some w' =>
          rw [w.iterate_empties w' i hnext, ← hnext]
          exact ih _ hrest
      | none =>
          -- the loop is left, so nothing follows
          rw [hnext] at hrest
          cases rest with
          | nil => exact Iff.rfl
          | cons t rest =>
              obtain ⟨⟨w', hw', -⟩, -⟩ := hrest
              exact absurd hw' (by simp)

end Hitsuji
