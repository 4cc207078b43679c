import Hitsuji.Worker.MainLoop

set_option autoImplicit false

/-! # One reply to a task

Whatever a request comes to, `OnTask` ends in one common send. Six branches write a status before it
and one writes the refresh, all of them into the same buffer; a status that takes the place of
a refresh finds the whole buffer again, because a failed `WriteRaw` leaves the length alone. -/

namespace Hitsuji

open ByteBuffer

/-! ## What a reply carries -/

/-- The status tells the stream and its new state, and with `attribInfo` the service and the
    item. -/
structure StatusTells (attribInfo : Bool) (view : RequestView) (itemName : Bytes)
    (streamState : StreamState) (m : RsslMsg) : Prop where
  msgClass : m.msgClass = .status
  streamId : m.streamId = view.token
  streamState : m.state.streamState = streamState
  serviceId : attribInfo = true → m.msgKey.flags.hasServiceId = true
    ∧ m.msgKey.serviceId = view.serviceId
  name : attribInfo = true → m.msgKey.flags.hasName = true ∧ m.msgKey.name = itemName

/-- The payload is a status, encoded into the whole buffer. -/
def StatusSent (attribInfo : Bool) (env : TaskEnv) (view : RequestView) (itemName : Bytes)
    (streamState : StreamState) (payload : Bytes) : Prop :=
  ∃ statusCode statusText calls m,
    closeWrite env view itemName streamState statusCode statusText = .complete calls
      ∧ payload = env.codec.image calls ∧ calls.head? = some (.setBuffer maxMsgSize)
      ∧ .msg m ∈ calls ∧ StatusTells attribInfo view itemName streamState m

/-- The payload is the refresh of an analytic, encoded into the whole buffer. -/
def RefreshSent (env : TaskEnv) (view : RequestView) (itemName lock : Bytes) (a : Analytic)
    (payload : Bytes) : Prop :=
  ∃ calls m, refreshWrite env view itemName a lock = .complete calls
    ∧ payload = env.codec.image calls ∧ calls.head? = some (.setBuffer maxMsgSize)
    ∧ .msgInit m 0 ∈ calls ∧ m.msgClass = .refresh ∧ m.streamId = view.token
    ∧ m.msgKey.serviceId = view.serviceId ∧ m.msgKey.name = itemName
    ∧ ∀ field ∈ a.fields, .fieldEntry field.1 field.2 ∈ calls

namespace Prepared

variable (env : TaskEnv) (view : RequestView) (itemName : Bytes)

/-- The status that a task ends in, if it ends in one, can be encoded. -/
inductive StatusEncodes : Prepared → Prop where
  | close (w : Worker) (streamState : StreamState) (statusCode : StatusCode) (statusText : Bytes)
      (h : (closeWrite env view itemName streamState statusCode statusText).isComplete = true) :
      StatusEncodes (.close w streamState statusCode statusText)
  | calculate (w : Worker) (a : Analytic)
      (h : (a.calculate env.db w.underlyingSymbol).1 = false
          ∨ (refreshWrite env view itemName (a.calculate env.db w.underlyingSymbol).2
            w.dacsLock).isComplete = false →
        (closeWrite env view itemName .closedRecover .error
          Worker.kErrorInternal).isComplete = true) :
      StatusEncodes (.calculate w a)

/-- A closed status for a request that is not calculated, the refresh for one that is calculated and
    encoded, and a closed-recover status where either fails. -/
inductive AnsweredBy (attribInfo : Bool) (payload : Bytes) : Prepared → Prop where
  | closed (w : Worker) (statusCode : StatusCode) (statusText : Bytes)
      (h : StatusSent attribInfo env view itemName .closed payload) :
      AnsweredBy attribInfo payload (.close w .closed statusCode statusText)
  | notCalculated (w : Worker) (a : Analytic)
      (hfailed : (a.calculate env.db w.underlyingSymbol).1 = false)
      (h : StatusSent attribInfo env view itemName .closedRecover payload) :
      AnsweredBy attribInfo payload (.calculate w a)
  | refresh (w : Worker) (a : Analytic)
      (hcalculated : (a.calculate env.db w.underlyingSymbol).1 = true)
      (h : RefreshSent env view itemName w.dacsLock (a.calculate env.db w.underlyingSymbol).2
        payload) :
      AnsweredBy attribInfo payload (.calculate w a)
  | notEncoded (w : Worker) (a : Analytic)
      (hcalculated : (a.calculate env.db w.underlyingSymbol).1 = true)
      (hfailed : (refreshWrite env view itemName (a.calculate env.db w.underlyingSymbol).2
        w.dacsLock).isComplete = false)
      (h : StatusSent attribInfo env view itemName .closedRecover payload) :
      AnsweredBy attribInfo payload (.calculate w a)

end Prepared

/-- `OnTask` returns true having sent one message, the reply on the handle and the token of the
    request, with the payload that is due. -/
def OneReply (attribInfo : Bool) (w : Worker) (env : TaskEnv) (buffer : Bytes)
    (view : RequestView) : Prop :=
  ∃ d payload, w.onTask env buffer = some d ∧ d.ret = true
    ∧ (∀ msgClose, w.onTaskCalls env buffer msgClose = [.init true, .send true])
    ∧ d.reply = some (replyImage view.handle view.token payload.length payload)
    ∧ (w.prepare env.db (view.name buffer)).AnsweredBy env view (view.name buffer) attribInfo
      payload

/-! ## The buffer -/

/-- The encoder has the whole buffer, and what is not calculated is closed. -/
inductive Prepared.HasRoom : Prepared → Prop where
  | close (w : Worker) (statusCode : StatusCode) (statusText : Bytes)
      (h : w.rssl.length = maxMsgSize) : HasRoom (.close w .closed statusCode statusText)
  | calculate (w : Worker) (a : Analytic) (h : w.rssl.length = maxMsgSize) :
      HasRoom (.calculate w a)

/-- The task comes to `SendReply` with this payload, on the handle and the token of the request. -/
def Ending.Sends (view : RequestView) (payload : Bytes) : Ending → Prop
  | .sendReply w handle token =>
      handle = view.handle ∧ token = view.token ∧ w.rssl.payload = payload
        ∧ w.rssl.length = payload.length
  | .returnFalse _ => False

namespace Worker

section

variable (w : Worker) (env : TaskEnv) (view : RequestView) (itemName : Bytes)

theorem prepareSymbol_room (query : Option UrlParse.Component) (a : Analytic)
    (hw : w.rssl.length = maxMsgSize) : (w.prepareSymbol env.db query a).HasRoom := by
  have hput : ∀ b, (w.put b).rssl.length = maxMsgSize := by
    intro b
    rw [put_rssl, hw]
  unfold prepareSymbol
  by_cases hexists : env.db.isSymbolExists (cString w.underlyingSymbol) = false
  · rw [if_pos hexists]
    exact .close _ _ _ (hput a)
  rw [if_neg hexists]
  generalize (query.elim (true, a) fun query => a.parseRequest w.url query) = validated
  dsimp only
  by_cases hvalid : validated.1 = false
  · rw [if_pos hvalid]
    exact .close _ _ _ (hput validated.2)
  rw [if_neg hvalid]
  split
  · exact .close _ _ _ (hput validated.2)
  · exact .calculate _ _ (hput validated.2)

/-- The length is reset before anything is encoded, and nothing up to `Calculate` touches it. -/
theorem prepare_room : (w.prepare env.db itemName).HasRoom := by
  unfold prepare
  dsimp only
  split
  · exact .close _ _ _ rfl
  · exact prepareSymbol_room _ env _ _ rfl

/-- What is written into the buffer is what is sent. -/
theorem write_sends (image : Bytes) (h : image.length ≤ maxMsgSize) :
    (Ending.sendReply { w with rssl := w.rssl.write image } view.handle view.token).Sends view
      image := by
  obtain ⟨hpayload, hlength⟩ := write_payload w.rssl image h
  exact ⟨rfl, rfl, hpayload, hlength⟩

/-- With the whole buffer, a status that can be encoded is sent. -/
theorem closing_sends (streamState : StreamState) (statusCode : StatusCode) (statusText : Bytes)
    (calls : List EncodeCall) (hw : w.rssl.length = maxMsgSize)
    (hcalls : closeWrite env view itemName streamState statusCode statusText = .complete calls) :
    ∃ ending, w.closing env view itemName streamState statusCode statusText = some ending
      ∧ ending.Sends view (env.codec.image calls) := by
  refine ⟨_, ?_, write_sends w view (env.codec.image calls)
    (image_fits env _ maxMsgSize calls rfl hcalls)⟩
  unfold closeWrite at hcalls
  simp only [closing, encode, hw, hcalls]

/-- So is a refresh. -/
theorem responding_sends (a : Analytic) (calls : List EncodeCall)
    (hw : w.rssl.length = maxMsgSize)
    (hcalls : refreshWrite env view itemName a w.dacsLock = .complete calls) :
    ∃ ending, w.responding env view itemName a = some ending
      ∧ ending.Sends view (env.codec.image calls) := by
  refine ⟨_, ?_, write_sends w view (env.codec.image calls)
    (image_fits env _ maxMsgSize calls rfl hcalls)⟩
  unfold refreshWrite at hcalls
  simp only [responding, encode, hw, hcalls]

/-- A refresh that fails leaves the length, so that the status has the whole buffer too. -/
theorem responding_closes (a : Analytic) (exit : Exit) (calls : List EncodeCall)
    (hw : w.rssl.length = maxMsgSize)
    (hfailed : refreshWrite env view itemName a w.dacsLock = .failed exit)
    (hcalls : closeWrite env view itemName .closedRecover .error kErrorInternal
      = .complete calls) :
    ∃ ending, w.responding env view itemName a = some ending
      ∧ ending.Sends view (env.codec.image calls) := by
  unfold refreshWrite at hfailed
  simp only [responding, encode, hw, hfailed]
  exact closing_sends _ env view itemName _ _ _ calls hw hcalls

end

end Worker

/-! ## What is encoded -/

section

variable (env : TaskEnv) (view : RequestView) (itemName : Bytes)

/-- A status tells what it is about, the service and the item if the request asked for attribute
    information. -/
theorem statusSent_of_complete (streamState : StreamState) (statusCode : StatusCode)
    (statusText : Bytes) (calls : List EncodeCall)
    (h : closeWrite env view itemName streamState statusCode statusText = .complete calls) :
    StatusSent view.useAttribInfoInUpdates env view itemName streamState
      (env.codec.image calls) := by
  have hmade := runSteps_complete env.codec [] calls _ h
  let args := Worker.closeArgs view itemName streamState statusCode statusText
  have hkey : view.useAttribInfoInUpdates = true → args.response.msgKey
      = { flags := { hasServiceId := true, hasNameType := true, hasName := true }
          serviceId := view.serviceId, nameType := .ric, name := itemName } :=
    fun hattrib => if_pos hattrib
  refine ⟨statusCode, statusText, calls, args.response, h, rfl, ?_, ?_,
    ⟨rfl, rfl, rfl, fun hattrib => ?_, fun hattrib => ?_⟩⟩
  · rw [hmade]
    rfl
  · rw [hmade]
    simp [writeRawClose, EncodeStep.rssl, EncodeStep.made, args]
  · rw [hkey hattrib]
    exact ⟨rfl, rfl⟩
  · rw [hkey hattrib]
    exact ⟨rfl, rfl⟩

/-- It tells them of no other request. -/
theorem attribInfo_of_statusSent (streamState : StreamState) (payload : Bytes)
    (h : StatusSent true env view itemName streamState payload) :
    view.useAttribInfoInUpdates = true := by
  obtain ⟨statusCode, statusText, calls, m, hcalls, -, -, hm, htells⟩ := h
  let args := Worker.closeArgs view itemName streamState statusCode statusText
  have hmade := runSteps_complete env.codec [] calls _ hcalls
  have hresponse : args.response = m := by
    rw [hmade] at hm
    simpa [writeRawClose, EncodeStep.rssl, EncodeStep.made, args] using hm
  by_contra hplain
  have hkey : args.response.msgKey = {} := if_neg hplain
  have hservice := (htells.serviceId rfl).1
  rw [← hresponse, hkey] at hservice
  exact absurd hservice (by decide)

/-- A refresh has every field of its analytic. -/
theorem refreshSent_of_complete (lock : Bytes) (a : Analytic) (calls : List EncodeCall)
    (h : refreshWrite env view itemName a lock = .complete calls) :
    RefreshSent env view itemName lock a (env.codec.image calls) := by
  have hmade := runSteps_complete env.codec [] calls _ h
  refine ⟨calls, refreshResponse view.token view.serviceId itemName
    (if a.attachesLock then lock else []), h, rfl, ?_, ?_, rfl, rfl, rfl, rfl, ?_⟩
  · rw [hmade]
    rfl
  · rw [hmade]
    simp [Analytic.writeRaw, refreshSteps, EncodeStep.orReturn, EncodeStep.made]
  · intro field hfield
    rw [hmade]
    refine List.mem_filterMap.mpr ⟨.orReturn (.fieldEntry field.1 field.2), ?_, rfl⟩
    have hstep := List.mem_map_of_mem
      (f := fun field : Int × Value => EncodeStep.orReturn (.fieldEntry field.1 field.2)) hfield
    simp only [Analytic.writeRaw, refreshSteps, List.mem_append]
    exact .inl (.inl (.inr hstep))

end

/-! ## One reply -/

theorem complete_of_isComplete (encoded : Encoded) (h : encoded.isComplete = true) :
    ∃ calls, encoded = .complete calls := by
  cases encoded with
  | complete calls => exact ⟨calls, rfl⟩
  | failed exit | checkFailed => exact absurd h (by simp [Encoded.isComplete])

/-- Wherever a request has come to, it is answered as is due. -/
theorem Prepared.sends (prepared : Prepared) (env : TaskEnv) (view : RequestView)
    (itemName : Bytes) (hroom : prepared.HasRoom)
    (hstatus : prepared.StatusEncodes env view itemName)
    (hassert : env.dcheckIsOn = false ∨ itemName ≠ []) :
    ∃ ending payload, prepared.ending env view itemName = some ending
      ∧ ending.Sends view payload
      ∧ prepared.AnsweredBy env view itemName view.useAttribInfoInUpdates payload := by
  cases hroom with
  | close w statusCode statusText hroom =>
      obtain ⟨_, _, _, _, hcomplete⟩ := hstatus
      obtain ⟨calls, hcalls⟩ := complete_of_isComplete _ hcomplete
      obtain ⟨ending, hending, hsends⟩ :=
        w.closing_sends env view itemName _ _ _ calls hroom hcalls
      exact ⟨ending, _, hending, hsends, .closed w _ _
        (statusSent_of_complete env view itemName _ _ _ calls hcalls)⟩
  | calculate w a hroom =>
      obtain _ | ⟨_, _, hcomplete⟩ := hstatus
      obtain ⟨calculated, hcalculate⟩ : ∃ calculated, a.calculate env.db w.underlyingSymbol
        = calculated := ⟨_, rfl⟩
      have hput : (w.put calculated.2).rssl.length = maxMsgSize := by
        rw [Worker.put_rssl]
        exact hroom
      have hlock := Worker.put_dacsLock w calculated.2
      unfold Prepared.ending
      dsimp only
      rw [hcalculate] at hcomplete ⊢
      cases hcalculated : calculated.1 with
      | false =>
          obtain ⟨calls, hcalls⟩ := complete_of_isComplete _ (hcomplete (.inl hcalculated))
          obtain ⟨ending, hending, hsends⟩ :=
            (w.put calculated.2).closing_sends env view itemName _ _ _ calls hput hcalls
          exact ⟨ending, _, hending, hsends, .notCalculated w a (hcalculate ▸ hcalculated)
            (statusSent_of_complete env view itemName _ _ _ calls hcalls)⟩
      | true =>
          have hcalculated : (a.calculate env.db w.underlyingSymbol).1 = true :=
            hcalculate ▸ hcalculated
          cases hrefresh : refreshWrite env view itemName calculated.2 w.dacsLock with
          | complete calls =>
              obtain ⟨ending, hending, hsends⟩ := (w.put calculated.2).responding_sends env view
                itemName calculated.2 calls hput (by rw [hlock, hrefresh])
              refine ⟨ending, _, hending, hsends, .refresh w a hcalculated ?_⟩
              rw [hcalculate]
              exact refreshSent_of_complete env view itemName _ _ calls hrefresh
          | failed exit =>
              have hfailed : (refreshWrite env view itemName calculated.2
                w.dacsLock).isComplete = false := by
                rw [hrefresh]
                rfl
              obtain ⟨calls, hcalls⟩ := complete_of_isComplete _ (hcomplete (.inr hfailed))
              obtain ⟨ending, hending, hsends⟩ := (w.put calculated.2).responding_closes env view
                itemName calculated.2 exit calls hput (by rw [hlock, hrefresh]) hcalls
              have hsent := statusSent_of_complete env view itemName _ _ _ calls hcalls
              exact ⟨ending, _, hending, hsends, .notEncoded w a hcalculated
                (hcalculate ▸ hfailed) hsent⟩
          | checkFailed =>
              -- only the assertion on the item name would end the process
              have hempty := (refreshWrite_checkFailed env view itemName _ _).mp hrefresh
              obtain ⟨hon, hempty⟩ := Bool.and_eq_true_iff.mp hempty
              rcases hassert with hoff | hname
              · exact absurd (hon.symm.trans hoff) (by decide)
              · exact absurd (List.isEmpty_iff.mp hempty) hname

/-- **Every request is answered with one reply**, the refresh or the status that is due, if a status
    can be encoded where one is due and ZeroMQ sends. The status tells the service and the item if
    the request asked for attribute information. -/
theorem oneReply_sent (w : Worker) (env : TaskEnv) (buffer : Bytes) (view : RequestView)
    (hview : decodeRequest .lengthFirst buffer = .ok (some view))
    (hstatus : (w.prepare env.db (view.name buffer)).StatusEncodes env view (view.name buffer))
    (hsend : env.msgInitSize = true ∧ env.msgSend = true)
    (hassert : env.dcheckIsOn = false ∨ view.name buffer ≠ []) :
    OneReply view.useAttribInfoInUpdates w env buffer view := by
  obtain ⟨ending, payload, hending, hsends, hanswered⟩ :=
    (w.prepare env.db (view.name buffer)).sends env view (view.name buffer)
      (w.prepare_room env (view.name buffer)) hstatus hassert
  have htask : w.onTaskEnding env buffer = some ending := by
    simp only [Worker.onTaskEnding, hview, hending]
  cases ending with
  | returnFalse w' => exact hsends.elim
  | sendReply w' handle token =>
      obtain ⟨rfl, rfl, hpayload, hlength⟩ := hsends
      refine ⟨⟨true, w', some (replyImage view.handle view.token payload.length payload)⟩, payload,
        ?_, rfl, fun msgClose => ?_, rfl, hanswered⟩
      · rw [w.onTask_ending, htask]
        simp only [Option.bind_some, Ending.finish, Worker.sendReply, encodeReply_eq, hsend.1,
          hsend.2, hpayload, hlength, if_true]
      · simp only [Worker.onTaskCalls, htask, Option.elim_some, Ending.calls, sendReplyCalls,
          hsend.1, hsend.2, if_true]

/-- A request for an item on token 5 of service 1. -/
def requestFor (itemName : Bytes) (useAttribInfoInUpdates : Bool) : ItemRequest :=
  ⟨0x7f00, 0x0e00, 5, 1, itemName, useAttribInfoInUpdates, none⟩

/-- What a worker decodes of it. -/
def viewFor (itemName : Bytes) (useAttribInfoInUpdates : Bool) : RequestView :=
  ⟨0x7f00, 0x0e00, 5, 1, useAttribInfoInUpdates, 26, itemName.length % 256⟩

/-- A task against a database in which every call succeeds. -/
def taskEnv (db : FlexRecords ℚ) (dcheckIsOn : Bool) : TaskEnv :=
  ⟨db, .refusing [], dcheckIsOn, fun _ => 0, true, true⟩

/-- No symbol is known. -/
def noSymbols : FlexRecords ℚ :=
  { noRecords with isSymbolExists := fun _ => false }

section Replay

set_option maxRecDepth 20000

/-- An unknown item, asked for with attribute information. -/
theorem unknownItem_sent :
    OneReply true freshWorker (taskEnv noSymbols true) (requestImage (requestFor (ascii "u") true))
      (viewFor (ascii "u") true) :=
  oneReply_sent freshWorker (taskEnv noSymbols true) (requestImage (requestFor (ascii "u") true))
    (viewFor (ascii "u") true) (decodeRequest_image (requestFor (ascii "u") true))
    (.close _ _ _ _ rfl) ⟨rfl, rfl⟩ (.inr (by decide))

/-- Asked for without it, the status tells neither service nor item; and with assertions, an empty
    name that is a known symbol ends the process. -/
theorem plainRequest_untold :
    (let env := taskEnv noSymbols false
      let buffer := requestImage (requestFor (ascii "u") false)
      let view := viewFor (ascii "u") false
      decodeRequest .lengthFirst buffer = .ok (some view)
        ∧ (∀ streamState statusCode statusText, (closeWrite env view (view.name buffer) streamState
          statusCode statusText).isComplete = true)
        ∧ (env.msgInitSize = true ∧ env.msgSend = true)
        ∧ ¬ OneReply true freshWorker env buffer view)
    ∧ (let env := taskEnv noRecords true
      let buffer := requestImage (requestFor [] false)
      let view := viewFor [] false
      decodeRequest .lengthFirst buffer = .ok (some view)
        ∧ (∀ streamState statusCode statusText, (closeWrite env view (view.name buffer) streamState
          statusCode statusText).isComplete = true)
        ∧ (env.msgInitSize = true ∧ env.msgSend = true)
        ∧ ∀ attribInfo, ¬ OneReply attribInfo freshWorker env buffer view) := by
  refine ⟨⟨decodeRequest_image (requestFor (ascii "u") false), fun _ _ _ => rfl, ⟨rfl, rfl⟩, ?_⟩,
    decodeRequest_image (requestFor [] false), fun _ _ _ => rfl, ⟨rfl, rfl⟩, ?_⟩
  · rintro ⟨d, payload, -, -, -, -, hanswered⟩
    obtain ⟨w', statusCode, statusText, hprepare⟩ : ∃ w' statusCode statusText,
        freshWorker.prepare noSymbols (ascii "u") = .close w' .closed statusCode statusText :=
      ⟨_, _, _, rfl⟩
    have hname : (viewFor (ascii "u") false).name (requestImage (requestFor (ascii "u") false))
        = ascii "u" := rfl
    rw [hname, show (taskEnv noSymbols false).db = noSymbols from rfl, hprepare] at hanswered
    cases hanswered with
    | closed _ _ _ hstatus =>
        exact absurd (attribInfo_of_statusSent _ _ _ .closed payload hstatus) (by decide)
  · rintro attribInfo ⟨d, payload, hd, -⟩
    have hends : freshWorker.onTask (taskEnv noRecords true) (requestImage (requestFor [] false))
        = none := rfl
    rw [hends] at hd
    exact absurd hd (by simp)

end Replay

end Hitsuji
