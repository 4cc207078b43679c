import Hitsuji.Client.Send

set_option autoImplicit false

/-! # Who owns a pool buffer

A buffer taken from the RSSL pool is settled when it has either been handed over (`rsslWriteEx`
returned a code under which RSSL owns it) or been released, once. Of the exits of the six sending
functions two leave it unsettled: `AcceptLogin` returns past its cleanup label when its first
element cannot be encoded, and `Submit` reports `RSSL_RET_BUFFER_NO_BUFFERS` as -1, which every
caller takes for a message sent. -/

namespace Hitsuji

open ByteBuffer

/-! ## Accounting -/

/-- A buffer was obtained from the pool. -/
def Event.acquires : Event → Bool
  | .getBuffer obtained => obtained
  | _ => false

/-- The buffer belongs to RSSL from here on. -/
def Event.handsOver : Event → Bool
  | .writeEx _ _ rc => rc.accepted
  | _ => false

/-- The buffer went back to the pool. -/
def Event.releases : Event → Bool
  | .releaseBuffer => true
  | _ => false

/-- No buffer was obtained, or the one obtained was handed over or released, once. -/
def Settled (events : List Event) : Prop :=
  (events.countP Event.acquires = 0
      ∧ events.countP Event.handsOver + events.countP Event.releases = 0)
    ∨ (events.countP Event.acquires = 1
      ∧ events.countP Event.handsOver + events.countP Event.releases = 1)

instance (events : List Event) : Decidable (Settled events) :=
  inferInstanceAs (Decidable (_ ∨ _))

/-- The `try_again` loop hands the buffer over at most once, with its last call. -/
theorem writeCalls_accounting (out : Outgoing) (direct : Bool) (last : RsslRet) (n : Nat) :
    (writeCalls out direct last n).countP Event.acquires = 0
      ∧ (writeCalls out direct last n).countP Event.handsOver = last.accepted.toNat
      ∧ (writeCalls out direct last n).countP Event.releases = 0 := by
  induction n with
  | zero =>
      refine ⟨rfl, ?_, rfl⟩
      cases h : last.accepted <;> simp [writeCalls, Event.handsOver, h]
  | succ n ih =>
      obtain ⟨hacq, hhand, hrel⟩ := ih
      refine ⟨?_, ?_, ?_⟩
      · simpa [writeCalls, Event.acquires] using hacq
      · simpa [writeCalls, Event.handsOver, RsslRet.accepted] using hhand
      · simpa [writeCalls, Event.releases] using hrel

/-- Once a buffer is filled, only `RSSL_RET_BUFFER_NO_BUFFERS` leaves it unsettled. -/
theorem settled_submitOrRelease (env : Env) (s : Session) (out : Outgoing) :
    Settled (s.submitOrRelease env out).events ↔ env.writes.last ≠ .bufferNoBuffers := by
  obtain ⟨hacq, hhand, hrel⟩ := writeCalls_accounting out
    (decide (s.channel.socketId ∉ s.provider.inWfds)) env.writes.last env.writes.again
  rw [submitOrRelease_eq]
  unfold Settled
  simp only [List.cons_append, List.countP_cons, List.countP_append, hacq, hhand, hrel]
  cases env.writes.last <;>
    simp [submitStatus, RsslRet.accepted, Event.acquires, Event.handsOver, Event.releases]

/-- The exits of `sendEncoded`: of the four, the early return and `NO_BUFFERS` leak. -/
theorem settled_sendEncoded (env : Env) (s : Session) (response : RsslMsg)
    (steps : List EncodeStep) (d : Done) (h : s.sendEncoded env response steps = some d) :
    Settled d.events ↔
      ¬ (env.getBuffer = true ∧ encodeWith env.codec steps = .failed .returnFalse)
      ∧ ¬ (env.getBuffer = true ∧ (encodeWith env.codec steps).isComplete = true
        ∧ env.writes.last = .bufferNoBuffers) := by
  rcases sendEncoded_cases env s response steps d h with
    ⟨hbuf, rfl⟩ | ⟨hbuf, henc, rfl⟩ | ⟨hbuf, henc, rfl⟩ | ⟨calls, hbuf, henc, rfl⟩
  · have hnone : Settled [.getBuffer false] := by decide
    simp [hbuf, hnone]
  · have hreleased : Settled [.getBuffer true, .releaseBuffer] := by decide
    simp [hbuf, henc, Encoded.isComplete, hreleased]
  · have hleaked : ¬ Settled [.getBuffer true] := by decide
    simp [hbuf, henc, hleaked]
  · rw [settled_submitOrRelease]
    simp [hbuf, henc, Encoded.isComplete]

/-! ## The six functions -/

/-- A call of one of the functions that send a message. -/
inductive SendCall where
  | rejectLogin (loginToken : Int32)
  | acceptLogin (loginMsg : InMsg) (loginToken : Int32)
  | sendDirectoryRefresh (requestToken : Int32) (serviceName : Option CString)
      (filterMask : FilterMask)
  | sendDirectoryUpdate (directoryToken : Int32) (serviceName : Option CString)
  | sendReply (requestToken : Int32) (data : Bytes)
  | sendClose (a : CloseArgs)

/-- Make the call. -/
def SendCall.run (env : Env) (s : Session) : SendCall → Option Done
  | .rejectLogin loginToken => s.rejectLogin env loginToken
  | .acceptLogin loginMsg loginToken => s.acceptLogin env loginMsg loginToken
  | .sendDirectoryRefresh requestToken serviceName filterMask =>
      s.sendDirectoryRefresh env requestToken serviceName filterMask
  | .sendDirectoryUpdate directoryToken serviceName =>
      s.sendDirectoryUpdate env directoryToken serviceName
  | .sendReply requestToken data => s.sendReply env requestToken data
  | .sendClose a => s.sendClose env a

/-- Every encode call of the function returns the code expected of it; a reply is not encoded, it
    only has to be still on the watchlist. -/
def SendCall.filled (env : Env) (s : Session) : SendCall → Bool
  | .rejectLogin loginToken =>
      (encodeWith env.codec (rejectLoginSteps s.channel loginToken)).isComplete
  | .acceptLogin loginMsg loginToken =>
      (encodeWith env.codec
        (acceptLoginSteps s.channel (acceptLoginResponse loginMsg loginToken))).isComplete
  | .sendDirectoryRefresh requestToken serviceName filterMask =>
      (encodeWith env.codec (directorySteps s.channel s.provider
        (directoryRefreshResponse requestToken filterMask) serviceName filterMask
        .addEntry)).isComplete
  | .sendDirectoryUpdate directoryToken serviceName =>
      (encodeWith env.codec (directorySteps s.channel s.provider
        (directoryUpdateResponse directoryToken) serviceName { state := true }
        .updateEntry)).isComplete
  | .sendReply requestToken _ => requestToken ∈ s.client.tokens
  | .sendClose a =>
      (encodeWith env.codec
        (writeRawClose env.dcheckIsOn s.channel.rwfVersion a maxMsgSize)).isComplete

/-- The call is `AcceptLogin`, and encoding its first element is the first call to fail. -/
def SendCall.failsAtAllowSuspectData (env : Env) (s : Session) : SendCall → Prop
  | .acceptLogin loginMsg loginToken =>
      ∃ calls, encodeWith env.codec
          (acceptLoginPrologue s.channel (acceptLoginResponse loginMsg loginToken))
            = .complete calls
        ∧ env.codec.ret calls allowSuspectDataEntry ≠ .success
  | _ => False

/-! ## Where the early return is taken -/

theorem rejectLoginSteps_cleansUp (c : Channel) (loginToken : Int32) :
    (rejectLoginSteps c loginToken).all EncodeStep.cleansUp = true := rfl

theorem directorySteps_cleansUp (c : Channel) (p : ProviderView) (response : RsslMsg)
    (serviceName : Option CString) (filterMask : FilterMask) (mapAction : MapAction) :
    (directorySteps c p response serviceName filterMask mapAction).all EncodeStep.cleansUp
      = true := by
  have hmap := getDirectoryMap_cleansUp p serviceName filterMask mapAction
  rw [directorySteps, List.all_append, List.all_append, hmap]
  rfl

theorem writeRawClose_cleansUp (dcheckIsOn : Bool) (rwfVersion : UInt16) (a : CloseArgs)
    (length : Nat) :
    (writeRawClose dcheckIsOn rwfVersion a length).all EncodeStep.cleansUp = true := by
  cases dcheckIsOn <;> rfl

/-- `AcceptLogin` returns early exactly when its first element is the first call to fail. -/
theorem acceptLogin_returnFalse (env : Env) (c : Channel) (response : RsslMsg) :
    encodeWith env.codec (acceptLoginSteps c response) = .failed .returnFalse ↔
      ∃ calls, encodeWith env.codec (acceptLoginPrologue c response) = .complete calls
        ∧ env.codec.ret calls allowSuspectDataEntry ≠ .success := by
  have hpro := runSteps_cleansUp env.codec [] (acceptLoginPrologue c response) rfl
  rw [encodeWith, encodeWith, acceptLoginSteps, runSteps_append]
  cases hrun : runSteps env.codec [] (acceptLoginPrologue c response) with
  | failed exit =>
      constructor
      · intro hexit
        exact absurd (hrun.trans hexit) hpro
      · rintro ⟨calls, hcalls, -⟩
        exact absurd hcalls (by simp)
  | checkFailed => simp
  | complete calls =>
      have hepi := runSteps_cleansUp env.codec (calls ++ [allowSuspectDataEntry])
        acceptLoginEpilogue rfl
      simp only [runSteps, Encoded.complete.injEq, exists_eq_left', ne_eq]
      split
      · next hok => simp [hok, hepi]
      · next hbad => simp [hbad]

/-- Encoding that cleans up after itself leaks at most by `NO_BUFFERS`. -/
theorem settled_cleansUp (env : Env) (s : Session) (response : RsslMsg) (steps : List EncodeStep)
    (d : Done) (hclean : steps.all EncodeStep.cleansUp = true)
    (h : s.sendEncoded env response steps = some d) :
    Settled d.events ↔
      ¬ (env.getBuffer = true ∧ (encodeWith env.codec steps).isComplete = true
        ∧ env.writes.last = .bufferNoBuffers) := by
  have hexit : encodeWith env.codec steps ≠ .failed .returnFalse :=
    runSteps_cleansUp env.codec [] steps hclean
  rw [settled_sendEncoded env s response steps d h]
  exact and_iff_right fun hleak => hexit hleak.2

/-- **A sending function settles its buffer unless it returns early or runs out of buffers.** -/
theorem settled_iff (env : Env) (s : Session) (call : SendCall) (d : Done)
    (h : call.run env s = some d) :
    Settled d.events ↔
      ¬ (env.getBuffer = true ∧ call.failsAtAllowSuspectData env s)
      ∧ ¬ (env.getBuffer = true ∧ call.filled env s = true
        ∧ env.writes.last = .bufferNoBuffers) := by
  cases call with
  | rejectLogin loginToken =>
      rw [settled_cleansUp env s _ _ d (rejectLoginSteps_cleansUp s.channel loginToken) h]
      simp [SendCall.failsAtAllowSuspectData, SendCall.filled]
  | acceptLogin loginMsg loginToken =>
      -- the one function with an exit past its cleanup label
      rw [settled_sendEncoded env s _ _ d h, acceptLogin_returnFalse]
      rfl
  | sendDirectoryRefresh requestToken serviceName filterMask =>
      rw [settled_cleansUp env s _ _ d (directorySteps_cleansUp s.channel s.provider
        (directoryRefreshResponse requestToken filterMask) serviceName filterMask .addEntry) h]
      simp [SendCall.failsAtAllowSuspectData, SendCall.filled]
  | sendDirectoryUpdate directoryToken serviceName =>
      rw [settled_cleansUp env s _ _ d (directorySteps_cleansUp s.channel s.provider
        (directoryUpdateResponse directoryToken) serviceName { state := true } .updateEntry) h]
      simp [SendCall.failsAtAllowSuspectData, SendCall.filled]
  | sendClose a =>
      rw [settled_cleansUp env s _ _ d
        (writeRawClose_cleansUp env.dcheckIsOn s.channel.rwfVersion a maxMsgSize) h]
      simp [SendCall.failsAtAllowSuspectData, SendCall.filled]
  | sendReply requestToken data =>
      rcases sendReply_cases env s requestToken data d h with
        ⟨hnot, rfl⟩ | ⟨hin, hbuf, rfl⟩ | ⟨-, hbuf, rfl⟩
      · simp [SendCall.failsAtAllowSuspectData, SendCall.filled, hnot, Settled]
      · rw [settled_submitOrRelease]
        simp [SendCall.failsAtAllowSuspectData, SendCall.filled, hin, hbuf]
      · have hnone : Settled [.getBuffer false] := by decide
        simp [hbuf, hnone]

/-! ## The two leaks -/

theorem rejectLogin_settled :
    ∃ d, SendCall.run willingEnv clearSession (.rejectLogin 1) = some d ∧ Settled d.events :=
  ⟨_, rfl, (settled_iff willingEnv clearSession (.rejectLogin 1) _ rfl).mpr
    ⟨fun h => h.2, fun h => absurd h.2.2 (by decide)⟩⟩

/-- Neither handed over nor released: a refused first element of the login response, and an empty
    pool under any of the six functions. -/
theorem buffer_leaks :
    (∃ d, SendCall.run (.of (.refusing [allowSuspectDataEntry]) .success (by decide))
        clearSession (.acceptLogin (loginByName 1) 1) = some d ∧ ¬ Settled d.events)
    ∧ ∃ d, SendCall.run (.of (.refusing []) .bufferNoBuffers (by decide)) clearSession
        (.rejectLogin 1) = some d ∧ ¬ Settled d.events :=
  ⟨⟨_, rfl, by decide⟩, ⟨_, rfl, by decide⟩⟩

end Hitsuji
