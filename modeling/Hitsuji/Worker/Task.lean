import Hitsuji.Sbe.Reply
import Hitsuji.Sbe.Request
import Hitsuji.Vta.WriteRaw

set_option autoImplicit false

/-! # The task of a worker

`worker_t::OnTask`: decode a request, parse its name as a URL, calculate the analytic it selects and
send the encoded refresh, or a closed status, as the reply. This is the plugin build, with the
SearchEngine and FlexRecord libraries behind `FlexRecords`. -/

namespace Hitsuji

open ByteBuffer UrlParse

/-! ## State -/

/-- The members of `worker_t` that outlive a task. `test_t` has no members of its own. -/
structure Worker where
  url : Bytes
  underlyingSymbol : Bytes
  dacsLock : Bytes
  rssl : RsslBuf
  bar : Bar ℚ
  rollupBar : RollupBar ℚ
  close : Close ℚ

/-- As `Initialize` leaves it; `rssl_buf_` and `rssl_length_` are not initialised. -/
def Worker.initial (rssl : RsslBuf) : Worker where
  url := []
  underlyingSymbol := []
  dacsLock := []
  rssl := rssl
  bar := .init
  rollupBar := .init
  close := .init

/-- What is called outside of the program during one task. -/
structure TaskEnv where
  db : FlexRecords ℚ
  codec : Codec
  /-- `DCHECK_IS_ON ()` -/
  dcheckIsOn : Bool
  /-- the memory `zmq_msg_init_size` hands out -/
  mem : Nat → UInt8
  /-- `zmq_msg_init_size` and `zmq_msg_send` succeed -/
  msgInitSize : Bool
  msgSend : Bool

/-- What `OnTask` returns, the worker it leaves behind, and the reply it sent. -/
structure TaskDone where
  ret : Bool
  worker : Worker
  reply : Option Bytes

/-! ## The message buffer -/

/-- `image` over the beginning of `bytes`. -/
def overlay (image bytes : Bytes) : Bytes :=
  (image ++ bytes.drop image.length).take bytes.length

theorem overlay_length (image bytes : Bytes) : (overlay image bytes).length = bytes.length := by
  simp only [overlay, List.length_take, List.length_append, List.length_drop]
  omega

/-- What the encoder wrote, and how much of it: it never writes past the buffer. -/
def RsslBuf.write (b : RsslBuf) (image : Bytes) : RsslBuf :=
  if h : image.length ≤ maxMsgSize then
    ⟨overlay image b.bytes, image.length, (overlay_length _ _).trans b.bytes_length, h⟩
  else b

/-- `rssl_length_ = sizeof (rssl_buf_)`. -/
def RsslBuf.resetLength (b : RsslBuf) : RsslBuf :=
  { b with length := maxMsgSize, length_le := Nat.le_refl _ }

/-- What a failed encoding leaves: the length is not touched. -/
def RsslBuf.spoil (b : RsslBuf) (image : Bytes) : RsslBuf :=
  { b with bytes := overlay image b.bytes
           bytes_length := (overlay_length _ _).trans b.bytes_length }

namespace Worker

/-- Encode a message into `rssl_buf_`. -/
def encode (w : Worker) (env : TaskEnv) (steps : List EncodeStep) : Encoded × Worker :=
  match encodeWith env.codec steps with
  | .complete calls => (.complete calls, { w with rssl := w.rssl.write (env.codec.image calls) })
  | .failed exit => (.failed exit,
      { w with rssl := w.rssl.spoil (env.codec.image (attempted env.codec [] steps)) })
  | .checkFailed => (.checkFailed, w)

/-! ## Replies -/

/-- `worker_t::SendReply`. -/
def sendReply (w : Worker) (env : TaskEnv) (handle : UInt64) (token : Int32) : Option TaskDone :=
  if env.msgInitSize then
    match encodeReply env.mem handle token w.rssl with
    | .error _ => none
    | .ok msg => some ⟨env.msgSend, w, if env.msgSend then some msg else none⟩
  else some ⟨false, w, none⟩

/-- `kErrorMalformedRequest` -/
def kErrorMalformedRequest : Bytes := ascii "Malformed request."

/-- `kErrorNotFound` -/
def kErrorNotFound : Bytes := ascii "Not found in SearchEngine."

/-- `kErrorPermData` -/
def kErrorPermData : Bytes := ascii "Unable to retrieve permission data for item."

/-- `kErrorInternal` -/
def kErrorInternal : Bytes := ascii "Internal error."

/-- The arguments of `WriteRawClose` in `OnTask`. -/
def closeArgs (view : RequestView) (itemName : Bytes) (streamState : StreamState)
    (statusCode : StatusCode) (statusText : Bytes) : CloseArgs where
  requestToken := view.token
  serviceId := view.serviceId
  modelType := .marketPrice
  itemName := itemName
  useAttribInfoInUpdates := view.useAttribInfoInUpdates
  streamState := streamState
  statusCode := statusCode
  statusText := statusText

/-- Answer with a closed status; false if not even that can be encoded. -/
def sendClose (w : Worker) (env : TaskEnv) (view : RequestView) (itemName : Bytes)
    (streamState : StreamState) (statusCode : StatusCode) (statusText : Bytes) :
    Option TaskDone :=
  match w.encode env (writeRawClose env.dcheckIsOn view.rwfVersion
    (closeArgs view itemName streamState statusCode statusText) w.rssl.length) with
  | (.complete _, w) => w.sendReply env view.handle view.token
  | (.failed _, w) => some ⟨false, w, none⟩
  | (.checkFailed, _) => none

/-! ## Analytics -/

/-- The implementation selected by the fragment. -/
def selection (url : Bytes) (ref : Option Component) : Selection :=
  match ref.map fun ref => ref.text url with
  | none => .bar
  | some ref =>
      if ref = ascii "test" then .test
      else if ref = ascii "rollup" then .rollupBar
      else if ref = ascii "close" then .close
      else .bar

/-- The member behind a selection. -/
def analytic (w : Worker) : Selection → Analytic
  | .bar => .bar w.bar
  | .test => .test
  | .rollupBar => .rollupBar w.rollupBar
  | .close => .close w.close

/-- What calling a method on the member does to it. -/
def put (w : Worker) : Analytic → Worker
  | .bar b => { w with bar := b }
  | .test => w
  | .rollupBar b => { w with rollupBar := b }
  | .close b => { w with close := b }

/-- The string as C sees it. -/
def cString (s : Bytes) : Bytes :=
  s.takeWhile (· ≠ 0)

/-- `permdata_t::GetDacsLock` by handle: the callback assigns the lock, nothing else does. -/
def getDacsLock (permData : PermData) (lock : Bytes) : Bool × Bytes :=
  (!permData.raises, permData.delivered.getD lock)

/-! ## The task -/

/-- The end of `OnTask`: the response message with the analytic payload. -/
def respond (w : Worker) (env : TaskEnv) (view : RequestView) (itemName : Bytes) (a : Analytic) :
    Option TaskDone :=
  match w.encode env (a.writeRaw env.dcheckIsOn view.rwfVersion view.token view.serviceId itemName
    w.dacsLock w.rssl.length) with
  | (.complete _, w) => w.sendReply env view.handle view.token
  -- writing the response fails, writing a close may not
  | (.failed _, w) => w.sendClose env view itemName .closedRecover .error kErrorInternal
  | (.checkFailed, _) => none

/-- `OnTask` from the permission data on, with a request that was validated. -/
def onValidated (w : Worker) (env : TaskEnv) (view : RequestView) (itemName : Bytes)
    (a : Analytic) : Option TaskDone :=
  let entitled := getDacsLock (env.db.permData (cString w.underlyingSymbol)) w.dacsLock
  let w := { w with dacsLock := entitled.2 }
  if entitled.1 = false then
    w.sendClose env view itemName .closed .notEntitled kErrorPermData
  else
    let calculated := a.calculate env.db w.underlyingSymbol
    let w := w.put calculated.2
    if calculated.1 = false then
      w.sendClose env view itemName .closedRecover .error kErrorInternal
    else w.respond env view itemName calculated.2

/-- `OnTask` from the symbol on, with the selected implementation reset. -/
def onSymbol (w : Worker) (env : TaskEnv) (view : RequestView) (itemName : Bytes)
    (query : Option Component) (a : Analytic) : Option TaskDone :=
  if env.db.isSymbolExists (cString w.underlyingSymbol) = false then
    (w.put a).sendClose env view itemName .closed .notFound kErrorNotFound
  else
    let validated := query.elim (true, a) fun query => a.parseRequest w.url query
    let w := w.put validated.2
    if validated.1 = false then
      w.sendClose env view itemName .closed .notFound kErrorMalformedRequest
    else w.onValidated env view itemName validated.2

/-- `OnTask` from the reset of the message buffer on. -/
def onView (w : Worker) (env : TaskEnv) (view : RequestView) (itemName : Bytes) :
    Option TaskDone :=
  let url := ascii "null://localhost/" ++ itemName
  let w := { w with rssl := w.rssl.resetLength, url }
  let parsed := parseStandardURL url
  match extractFileName url parsed.path with
  | none => w.sendClose env view itemName .closed .notFound kErrorMalformedRequest
  | some fileName =>
      let a := (w.analytic (selection url parsed.ref)).reset
      onSymbol { w with underlyingSymbol := fileName.text url } env view itemName parsed.query a

/-- `worker_t::OnTask`; `none` when an uncaught exception or an assertion ends the process. -/
def onTask (w : Worker) (env : TaskEnv) (buffer : Bytes) : Option TaskDone :=
  match decodeRequest .lengthFirst buffer with
  | .error _ => none
  -- abort flag
  | .ok none => some ⟨false, w, none⟩
  | .ok (some view) => w.onView env view (view.name buffer)

end Worker

end Hitsuji
