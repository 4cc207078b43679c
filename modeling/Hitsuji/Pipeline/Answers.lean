import Hitsuji.Pipeline.Exchange
import Hitsuji.Pipeline.Format

set_option autoImplicit false

/-! # What a consumer makes of a response

The response to an item request is read with the reader of `Rssl.Content`: a status message refuses
the item, a field list quotes it. What is read is the verdict on the item that was asked for, except
that a quote the encoder has no room for is refused as an internal error. -/

namespace Hitsuji

open ByteBuffer Bracket Transition

/-! ## Reading a response -/

/-- The fields of a list in order. -/
def readFields : Content → Option (List (Int × Value))
  | .nil => some []
  | .entry (.fieldEntry fieldId v) next => (readFields next).map ((fieldId, v) :: ·)
  | _ => none

/-- What a response says, and the permission record that comes with it. -/
structure ItemAnswer where
  streamId : Int32
  permData : Bytes
  verdict : Verdict

/-- The answer in a response. -/
def answerOf (calls : List EncodeCall) : Option ItemAnswer :=
  (contentOf calls).bind fun
    | .entry (.msg m) .nil =>
        some ⟨m.streamId, m.permData, .refused m.state.streamState m.state.code m.state.text⟩
    | .group (.msgInit m _) (.group .fieldListInit inner .nil) .nil =>
        (readFields inner).map fun fields => ⟨m.streamId, m.permData, .quoted fields⟩
    | _ => none

/-- The content of a field list. -/
def fieldEntries (fields : List (Int × Value)) : Content :=
  fields.foldr (fun field next => .entry (.fieldEntry field.1 field.2) next) .nil

theorem readFields_fieldEntries (fields : List (Int × Value)) :
    readFields (fieldEntries fields) = some fields := by
  induction fields with
  | nil => rfl
  | cons field rest ih =>
      rw [fieldEntries, List.foldr_cons, readFields]
      exact congrArg (Option.map _) ih

theorem spell_fieldEntries (fields : List (Int × Value)) :
    (fieldEntries fields).spell EncodeCall.closer
      = wire (fields.map fun field => .fieldEntry field.1 field.2) := by
  induction fields with
  | nil => rfl
  | cons field rest ih => exact congrArg _ ih

/-- A refresh is read as the quote of its fields. -/
theorem answerOf_refreshSteps (dcheckIsOn : Bool) (rwfVersion : UInt16) (response : RsslMsg)
    (fields : List (Int × Value)) (length : Nat) :
    answerOf (callsOf (refreshSteps dcheckIsOn rwfVersion response fields length))
      = some ⟨response.streamId, response.permData, .quoted fields⟩ := by
  have hlast : wire (callsOf (if dcheckIsOn then [.orReturn (.validateMsg response)] else []))
      = [] := by
    cases dcheckIsOn with
    | false => rfl
    | true => rfl
  have hcontent : contentOf (callsOf (refreshSteps dcheckIsOn rwfVersion response fields length))
      = some (.group (.msgInit response 0)
        (.group .fieldListInit (fieldEntries fields) .nil) .nil) := by
    refine (read_eq_some_iff _ _ _).mpr ?_
    have hwire : wire (callsOf (refreshSteps dcheckIsOn rwfVersion response fields length))
        = [.opens (.msgInit response 0), .opens .fieldListInit]
          ++ wire (fields.map fun field => .fieldEntry field.1 field.2)
          ++ [.closes .fieldListComplete, .closes .msgComplete] := by
      rw [refreshSteps, callsOf_append, callsOf_append, callsOf_append, callsOf_fields, wire,
        List.filterMap_append, List.filterMap_append, List.filterMap_append]
      change _ ++ _ ++ _ ++ wire _ = _
      rw [hlast, List.append_nil]
      rfl
    rw [hwire, ← spell_fieldEntries]
    simp [Forest.spell, EncodeCall.closer]
  rw [answerOf, hcontent, Option.bind_some]
  dsimp only
  rw [readFields_fieldEntries]
  rfl

/-- A closed status is read as the refusal. -/
theorem answerOf_writeRawClose (dcheckIsOn : Bool) (rwfVersion : UInt16) (a : CloseArgs)
    (length : Nat) :
    answerOf (callsOf (writeRawClose dcheckIsOn rwfVersion a length))
      = some ⟨a.requestToken, [], .refused a.streamState a.statusCode a.statusText⟩ := by
  cases dcheckIsOn with
  | false => rfl
  | true => rfl

/-! ## What is said of a verdict -/

/-- The verdict that is sent: a quote that cannot be encoded is refused. -/
def Verdict.told (env : TaskEnv) (view : RequestView) (itemName : Bytes) (analytic : Selection)
    (lock : Bytes) : Verdict → Verdict
  | .refused streamState statusCode statusText => .refused streamState statusCode statusText
  | .quoted fields =>
      if (quoteWrite env view itemName analytic fields lock).isComplete then .quoted fields
      else .refused .closedRecover .error Worker.kErrorInternal

/-- The permission record that is sent with a verdict. -/
def Verdict.permData (analytic : Selection) (lock : Bytes) : Verdict → Bytes
  | .refused _ _ _ => []
  | .quoted _ => if analytic = .test then [] else lock

/-- A reply with a message that reads as an answer. -/
structure ReplySays (env : TaskEnv) (view : RequestView) (answer : ItemAnswer) (reply : Bytes)
    (calls : List EncodeCall) : Prop where
  reply : reply = replyImage view.handle view.token (env.codec.image calls).length
    (env.codec.image calls)
  answer : answerOf calls = some answer

theorem says_close (env : TaskEnv) (view : RequestView) (itemName : Bytes)
    (streamState : StreamState) (statusCode : StatusCode) (statusText reply : Bytes)
    (h : (closeAnswer env view itemName streamState statusCode statusText).bind Prod.snd
      = some reply) :
    ∃ calls, ReplySays env view ⟨view.token, [], .refused streamState statusCode statusText⟩ reply
      calls := by
  obtain ⟨calls, hcalls, hreply⟩ := closeAnswer_reply env view itemName _ _ _ reply h
  obtain rfl := runSteps_complete env.codec [] calls _ hcalls
  exact ⟨_, hreply, answerOf_writeRawClose _ _ _ _⟩

/-- **A reply to a verdict reads as what is said of it.** -/
theorem says_answer (env : TaskEnv) (view : RequestView) (itemName : Bytes)
    (analytic : Selection) (lock reply : Bytes) (v : Verdict)
    (h : (v.answer env view itemName analytic lock).bind Prod.snd = some reply) :
    ∃ calls, ReplySays env view ⟨view.token,
      (v.told env view itemName analytic lock).permData analytic lock,
      v.told env view itemName analytic lock⟩ reply calls := by
  cases v with
  | refused streamState statusCode statusText => exact says_close env view itemName _ _ _ reply h
  | quoted fields =>
      rw [Verdict.answer] at h
      split at h
      · next calls hcalls =>
          have htold : (Verdict.quoted fields).told env view itemName analytic lock
              = .quoted fields := by
            rw [Verdict.told, hcalls]
            rfl
          rw [htold]
          obtain rfl := runSteps_complete env.codec [] calls _ hcalls
          exact ⟨_, sent_reply env view _ reply h, answerOf_refreshSteps _ _ _ fields _⟩
      · next exit hfailed =>
          have htold : (Verdict.quoted fields).told env view itemName analytic lock
              = .refused .closedRecover .error Worker.kErrorInternal := by
            rw [Verdict.told, hfailed]
            rfl
          rw [htold]
          exact says_close env view itemName _ _ _ reply h
      · exact absurd h (by simp)

/-! ## Whole runs -/

/-- What can be said to a request where its task looked. -/
def Served.answer (t : Served) : ItemAnswer :=
  let r := t.job.request
  let i := Item.of r.heard
  let lock := (i.delivered t.env.db).getD t.lock
  let verdict := (i.verdict t.env.db).told t.env r.view r.heard i.analytic lock
  ⟨r.token, verdict.permData i.analytic lock, verdict⟩

/-- The reply of a task reads as its answer. -/
theorem says_meaning (t : Served) (reply : Bytes) (h : t.meaning = some reply) :
    ∃ calls, ReplySays t.env t.job.request.view t.answer reply calls := by
  obtain ⟨⟨answer, lock⟩, heffect, hreply⟩ := Option.bind_eq_some_iff.mp h
  obtain ⟨answer', hanswer, hpair⟩ := Option.map_eq_some_iff.mp heffect
  obtain ⟨rfl, -⟩ := Prod.mk.inj hpair
  exact says_answer t.env t.job.request.view t.job.request.heard _ _ reply _
    (Option.bind_eq_some_iff.mpr ⟨answer', hanswer, hreply⟩)

/-- A reply has one payload. -/
theorem replyImage_inj (handle : UInt64) (token : Int32) (image image' : Bytes)
    (h : replyImage handle token image.length image
      = replyImage handle token image'.length image') : image = image' := by
  rw [replyImage, replyImage, List.append_assoc, List.append_assoc] at h
  exact (List.cons.inj (List.append_cancel_left h)).2

namespace Exchange

/-- A published image reads as the answer to the request it was computed for. -/
theorem answer_of_publishes (s s' : Exchange) (k : UInt64) (token : Int32) (data : Bytes)
    (t : Served) (image : Bytes) (h : s.Publishes s' k token data t image) :
    ∃ calls, image = t.env.codec.image calls ∧ answerOf calls = some t.answer := by
  obtain ⟨calls, hsays⟩ := says_meaning t _ h.meant
  obtain ⟨rfl, rfl⟩ := Prod.mk.inj h.stream
  exact ⟨calls, replyImage_inj _ _ _ _ hsays.reply, hsays.answer⟩

/-- A database with one trade. -/
def oneTrade : FlexRecords ℚ :=
  { noRecords with trades := fun _ _ _ => some [⟨1, 5⟩] }

/-- A consumer connects and asks, the first worker finds the trade, and the reply is read. -/
def askForTrade : List Input :=
  Server.connectAndAsk.map .main
    ++ [.task 0 0 (taskEnv oneTrade true) true,
      .main (.reply 0 willingEnv ⟨some true, true, true, true, some false⟩)]

section Replay

set_option maxRecDepth 20000

end Replay

end Exchange

end Hitsuji
