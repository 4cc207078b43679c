import Hitsuji.Lib.Transition
import Hitsuji.Worker.Task

set_option autoImplicit false

/-! # What a worker carries from one task to the next

Seen from outside, a task is a function of the request, of the database and of one member of the
worker, `dacs_lock_`: every other member is overwritten before it is read. The lock itself is
overwritten only when the database delivers a permission record.

`serve` is that function, with the lock for its only state, and `onTask_effect` says that a worker
is no more than it. -/

namespace Hitsuji

open ByteBuffer UrlParse Transition

/-! ## A machine with a lock for its state -/

/-- What the main thread sees of a task: whether the worker goes on, and the reply. -/
abbrev Answer := Bool × Option Bytes

/-- What a request comes to before anything is encoded: a closed status, or the refresh of an
    analytic. -/
inductive Result where
  | close (streamState : StreamState) (statusCode : StatusCode) (statusText : Bytes)
  | refresh (a : Analytic)

/-- The permission record the database delivers on the way, and the result. -/
structure Outcome where
  delivered : Option Bytes
  result : Result

/-- The outcome of a validated request. -/
def validatedOutcome (db : FlexRecords ℚ) (symbol : Bytes) (a : Analytic) : Outcome :=
  let permData := db.permData (Worker.cString symbol)
  let calculated := a.calculate db symbol
  { delivered := permData.delivered
    result :=
      if permData.raises = true then .close .closed .notEntitled Worker.kErrorPermData
      else if calculated.1 = false then .close .closedRecover .error Worker.kErrorInternal
      else .refresh calculated.2 }

/-- The outcome for a symbol, by an analytic that was not used before. -/
def symbolOutcome (db : FlexRecords ℚ) (url symbol : Bytes) (query : Option Component)
    (a : Analytic) : Outcome :=
  let validated := query.elim (true, a) fun query => a.parseRequest url query
  if db.isSymbolExists (Worker.cString symbol) = false then
    ⟨none, .close .closed .notFound Worker.kErrorNotFound⟩
  else if validated.1 = false then
    ⟨none, .close .closed .notFound Worker.kErrorMalformedRequest⟩
  else validatedOutcome db symbol validated.2

/-- The outcome of a request for an item. -/
def outcome (db : FlexRecords ℚ) (itemName : Bytes) : Outcome :=
  let url := ascii "null://localhost/" ++ itemName
  let parsed := parseStandardURL url
  match extractFileName url parsed.path with
  | none => ⟨none, .close .closed .notFound Worker.kErrorMalformedRequest⟩
  | some fileName =>
      symbolOutcome db url (fileName.text url) parsed.query
        (Worker.selection url parsed.ref).init

/-- The answer that carries an encoded message. -/
def sent (env : TaskEnv) (view : RequestView) (image : Bytes) : Answer :=
  if env.msgInitSize then
    (env.msgSend,
      if env.msgSend then some (replyImage view.handle view.token image.length image) else none)
  else (false, none)

/-- The answer with a closed status. -/
def closeAnswer (env : TaskEnv) (view : RequestView) (itemName : Bytes)
    (streamState : StreamState) (statusCode : StatusCode) (statusText : Bytes) : Option Answer :=
  match encodeWith env.codec (writeRawClose env.dcheckIsOn view.rwfVersion
    (Worker.closeArgs view itemName streamState statusCode statusText) maxMsgSize) with
  | .complete calls => some (sent env view (env.codec.image calls))
  | .failed _ => some (false, none)
  | .checkFailed => none

/-- The steps that encode the refresh of an analytic under a lock. -/
def refreshWrite (env : TaskEnv) (view : RequestView) (itemName : Bytes) (a : Analytic)
    (dacsLock : Bytes) : Encoded :=
  encodeWith env.codec (a.writeRaw env.dcheckIsOn view.rwfVersion view.token view.serviceId
    itemName dacsLock maxMsgSize)

/-- The answer with the refresh of an analytic under a lock. -/
def refreshAnswer (env : TaskEnv) (view : RequestView) (itemName : Bytes) (a : Analytic)
    (dacsLock : Bytes) : Option Answer :=
  match refreshWrite env view itemName a dacsLock with
  | .complete calls => some (sent env view (env.codec.image calls))
  | .failed _ => closeAnswer env view itemName .closedRecover .error Worker.kErrorInternal
  | .checkFailed => none

/-- The answer to a result under a lock. -/
def Result.answer (env : TaskEnv) (view : RequestView) (itemName lock : Bytes) :
    Result → Option Answer
  | .close streamState statusCode statusText =>
      closeAnswer env view itemName streamState statusCode statusText
  | .refresh a => refreshAnswer env view itemName a lock

/-- The answer to an outcome, and the lock from then on. -/
def Outcome.effect (env : TaskEnv) (view : RequestView) (itemName lock : Bytes) (o : Outcome) :
    Option (Answer × Bytes) :=
  let lock := o.delivered.getD lock
  (o.result.answer env view itemName lock).map fun answer => (answer, lock)

/-- A task; `none` if it ends the process. -/
def serve (env : TaskEnv) (buffer lock : Bytes) : Option (Answer × Bytes) :=
  match decodeRequest .lengthFirst buffer with
  | .error _ => none
  | .ok none => some ((false, none), lock)
  | .ok (some view) =>
      (outcome env.db (view.name buffer)).effect env view (view.name buffer) lock

/-! ## What is sent -/

section

variable (env : TaskEnv) (view : RequestView) (itemName : Bytes)

theorem sent_reply (image reply : Bytes) (h : (sent env view image).2 = some reply) :
    reply = replyImage view.handle view.token image.length image := by
  unfold sent at h
  split at h
  · split at h
    · exact (Option.some.inj h).symm
    · exact absurd h (by simp)
  · exact absurd h (by simp)

/-- A closed status that is sent was encoded completely. -/
theorem closeAnswer_reply (streamState : StreamState) (statusCode : StatusCode)
    (statusText reply : Bytes)
    (h : (closeAnswer env view itemName streamState statusCode statusText).bind Prod.snd
      = some reply) :
    ∃ calls, encodeWith env.codec (writeRawClose env.dcheckIsOn view.rwfVersion
        (Worker.closeArgs view itemName streamState statusCode statusText) maxMsgSize)
        = .complete calls
      ∧ reply = replyImage view.handle view.token (env.codec.image calls).length
        (env.codec.image calls) := by
  unfold closeAnswer at h
  split at h
  · next calls hcalls => exact ⟨calls, hcalls, sent_reply env view _ reply h⟩
  · exact absurd h (by simp)
  · exact absurd h (by simp)

/-- What is sent for a refresh is the refresh, or a status in its place. -/
theorem refreshAnswer_reply (a : Analytic) (lock reply : Bytes)
    (h : (refreshAnswer env view itemName a lock).bind Prod.snd = some reply) :
    (∃ calls, refreshWrite env view itemName a lock = .complete calls
        ∧ reply = replyImage view.handle view.token (env.codec.image calls).length
          (env.codec.image calls))
      ∨ (refreshWrite env view itemName a lock).isComplete = false
        ∧ (closeAnswer env view itemName .closedRecover .error Worker.kErrorInternal).bind Prod.snd
          = some reply := by
  unfold refreshAnswer at h
  split at h
  · next calls hcalls => exact .inl ⟨calls, hcalls, sent_reply env view _ reply h⟩
  · next hcalls => exact .inr ⟨by rw [hcalls]; rfl, h⟩
  · exact absurd h (by simp)

end

/-! ## A worker is no more than that -/

/-- What is left of a task once it is done. -/
def TaskDone.effect (d : TaskDone) : Answer × Bytes :=
  ((d.ret, d.reply), d.worker.dacsLock)

namespace Worker

@[simp] theorem put_underlyingSymbol (w : Worker) (a : Analytic) :
    (w.put a).underlyingSymbol = w.underlyingSymbol := by
  cases a <;> rfl

@[simp] theorem put_dacsLock (w : Worker) (a : Analytic) : (w.put a).dacsLock = w.dacsLock := by
  cases a <;> rfl

@[simp] theorem put_rssl (w : Worker) (a : Analytic) : (w.put a).rssl = w.rssl := by
  cases a <;> rfl

/-- A complete message is what is in the buffer, whatever was there before. -/
theorem write_payload (b : RsslBuf) (image : Bytes) (h : image.length ≤ maxMsgSize) :
    (b.write image).payload = image ∧ (b.write image).length = image.length := by
  have hbytes := b.bytes_length
  simp only [RsslBuf.write, dif_pos h, RsslBuf.payload, overlay, and_true]
  rw [List.take_take, Nat.min_eq_left (hbytes ▸ h), List.take_left]

/-- A complete encoding stays within the buffer that was set. -/
theorem image_fits (env : TaskEnv) (steps : List EncodeStep) (capacity : Nat)
    (calls : List EncodeCall)
    (hsteps : (steps.filterMap EncodeStep.made).head? = some (.setBuffer capacity))
    (h : encodeWith env.codec steps = .complete calls) :
    (env.codec.image calls).length ≤ capacity := by
  obtain ⟨rest, hsteps⟩ := List.head?_eq_some_iff.mp hsteps
  obtain rfl := runSteps_complete env.codec [] calls steps h
  rw [List.nil_append, hsteps]
  exact env.codec.image_length_le capacity rest

/-- What sending comes to, for a message just written. -/
theorem sendReply_effect (w : Worker) (env : TaskEnv) (view : RequestView) (image : Bytes)
    (h : image.length ≤ maxMsgSize) :
    (sendReply { w with rssl := w.rssl.write image } env view.handle view.token).map
      TaskDone.effect = some (sent env view image, w.dacsLock) := by
  obtain ⟨hpayload, hlength⟩ := write_payload w.rssl image h
  simp only [sendReply, sent, encodeReply_eq, hpayload, hlength]
  split
  · rfl
  · rfl

theorem sendClose_effect (w : Worker) (env : TaskEnv) (view : RequestView) (itemName : Bytes)
    (streamState : StreamState) (statusCode : StatusCode) (statusText : Bytes)
    (hlength : w.rssl.length = maxMsgSize) :
    (w.sendClose env view itemName streamState statusCode statusText).map TaskDone.effect
      = (closeAnswer env view itemName streamState statusCode statusText).map
          fun answer => (answer, w.dacsLock) := by
  simp only [sendClose, closeAnswer, encode, hlength]
  cases henc : encodeWith env.codec (writeRawClose env.dcheckIsOn view.rwfVersion
    (closeArgs view itemName streamState statusCode statusText) maxMsgSize) with
  | complete calls =>
      exact sendReply_effect w env view _ (image_fits env _ maxMsgSize calls rfl henc)
  | failed exit => rfl
  | checkFailed => rfl

/-- The refresh is that of any analytic alike, under the worker's lock. -/
theorem respond_effect (w : Worker) (env : TaskEnv) (view : RequestView) (itemName : Bytes)
    (a a' : Analytic) (ha : a.Alike a') (hlength : w.rssl.length = maxMsgSize) :
    (w.respond env view itemName a).map TaskDone.effect
      = (refreshAnswer env view itemName a' w.dacsLock).map
          fun answer => (answer, w.dacsLock) := by
  obtain ⟨hfields, hattaches⟩ := Analytic.alike_fields a a' ha
  have hwrite : a.writeRaw env.dcheckIsOn view.rwfVersion view.token view.serviceId itemName
      w.dacsLock maxMsgSize = a'.writeRaw env.dcheckIsOn view.rwfVersion view.token
      view.serviceId itemName w.dacsLock maxMsgSize := by
    simp only [Analytic.writeRaw, hfields, hattaches]
  simp only [respond, refreshAnswer, refreshWrite, encode, hlength, hwrite]
  cases henc : encodeWith env.codec (a'.writeRaw env.dcheckIsOn view.rwfVersion view.token
    view.serviceId itemName w.dacsLock maxMsgSize) with
  | complete calls =>
      exact sendReply_effect w env view _ (image_fits env _ maxMsgSize calls rfl henc)
  | failed exit => exact sendClose_effect _ env view itemName _ _ _ hlength
  | checkFailed => rfl

theorem onValidated_effect (w : Worker) (env : TaskEnv) (view : RequestView) (itemName : Bytes)
    (a a' : Analytic) (ha : a.Alike a') (hlength : w.rssl.length = maxMsgSize) :
    (w.onValidated env view itemName a).map TaskDone.effect
      = (validatedOutcome env.db w.underlyingSymbol a').effect env view itemName w.dacsLock := by
  obtain ⟨hdone, hfinal⟩ := Analytic.alike_calculate env.db a a' ha w.underlyingSymbol
  let lock := (env.db.permData (cString w.underlyingSymbol)).delivered.getD w.dacsLock
  let w' := put { w with dacsLock := lock } (a.calculate env.db w.underlyingSymbol).2
  have hlock : w'.dacsLock = lock := put_dacsLock _ _
  have hlength' : w'.rssl.length = maxMsgSize := by rw [put_rssl, hlength]
  simp only [onValidated, validatedOutcome, getDacsLock, hdone]
  cases hraises : (env.db.permData (cString w.underlyingSymbol)).raises with
  | true => exact sendClose_effect _ env view itemName _ _ _ hlength
  | false =>
      cases hcalculated : (a'.calculate env.db w.underlyingSymbol).1 with
      | false =>
          have hclose := sendClose_effect w' env view itemName .closedRecover .error
            kErrorInternal hlength'
          rw [hlock] at hclose
          exact hclose
      | true =>
          have hrespond := respond_effect w' env view itemName _ _ hfinal hlength'
          rw [hlock] at hrespond
          exact hrespond

/-- From the symbol on, an implementation that was used before serves as a new one. -/
theorem onSymbol_effect (w : Worker) (env : TaskEnv) (view : RequestView) (itemName : Bytes)
    (query : Option Component) (a a' : Analytic) (ha : a.Alike a')
    (hlength : w.rssl.length = maxMsgSize) :
    (w.onSymbol env view itemName query a).map TaskDone.effect
      = (symbolOutcome env.db w.url w.underlyingSymbol query a').effect env view itemName
          w.dacsLock := by
  obtain ⟨hret, hafter⟩ : (query.elim (true, a) fun query => a.parseRequest w.url query).1
        = (query.elim (true, a') fun query => a'.parseRequest w.url query).1
      ∧ (query.elim (true, a) fun query => a.parseRequest w.url query).2.Alike
          (query.elim (true, a') fun query => a'.parseRequest w.url query).2 := by
    cases query with
    | none => exact ⟨rfl, ha⟩
    | some query => exact Analytic.alike_parseRequest a a' ha w.url query
  have hput : ∀ b, (w.put b).rssl.length = maxMsgSize := fun b => by rw [put_rssl, hlength]
  have hclose : ∀ b text, ((w.put b).sendClose env view itemName .closed .notFound text).map
      TaskDone.effect = Outcome.effect env view itemName w.dacsLock
        ⟨none, .close .closed .notFound text⟩ := by
    intro b text
    rw [sendClose_effect _ env view itemName _ _ _ (hput b), put_dacsLock]
    rfl
  simp only [onSymbol, symbolOutcome, hret]
  split
  · exact hclose a kErrorNotFound
  split
  · exact hclose _ kErrorMalformedRequest
  · have hvalidated := fun b => onValidated_effect (w.put b) env view itemName _ _ hafter (hput b)
    simp only [put_underlyingSymbol, put_dacsLock] at hvalidated
    exact hvalidated _

/-- The selected member, once reset, is as good as new. -/
theorem analytic_reset_alike (w : Worker) (selected : Selection) :
    (w.analytic selected).reset.Alike selected.init := by
  have hselected : (w.analytic selected).selection = selected := by
    cases selected <;> rfl
  have hinit : selected.init.forget = selected.init := by
    cases selected <;> rfl
  rw [Analytic.Alike, Analytic.forget_reset, hselected, hinit]

theorem onView_effect (w : Worker) (env : TaskEnv) (view : RequestView) (itemName : Bytes) :
    (w.onView env view itemName).map TaskDone.effect
      = (outcome env.db itemName).effect env view itemName w.dacsLock := by
  unfold onView outcome
  generalize ascii "null://localhost/" ++ itemName = url
  dsimp only
  generalize parseStandardURL url = parsed
  let ready : Worker := { w with rssl := w.rssl.resetLength, url }
  cases extractFileName url parsed.path with
  | none => exact sendClose_effect ready env view itemName _ _ _ rfl
  | some fileName =>
      exact onSymbol_effect { ready with underlyingSymbol := fileName.text url } env view itemName
        _ _ _ (analytic_reset_alike ready _) rfl

/-- **A task is a function of the request, the database and the lock.** -/
theorem onTask_effect (w : Worker) (env : TaskEnv) (buffer : Bytes) :
    (w.onTask env buffer).map TaskDone.effect = serve env buffer w.dacsLock := by
  rw [onTask, serve]
  rcases decodeRequest .lengthFirst buffer with fault | _ | view
  · rfl
  · rfl
  · exact onView_effect w env view (view.name buffer)

end Worker

end Hitsuji
