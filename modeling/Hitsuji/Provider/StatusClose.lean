import Hitsuji.Rssl.Encode

set_option autoImplicit false

/-! # Status close

`provider_t::WriteRawClose` encodes the status message that closes a stream. The main thread sends
it through `client_t::SendClose`, the workers as the reply to a request they cannot serve. -/

namespace Hitsuji

open ByteBuffer

/-- The characters of a literal of the source. -/
def ascii (s : String) : Bytes :=
  s.toList.map fun c => UInt8.ofNat c.toNat

/-- `rwf_major_version`. -/
def rwfMajorVersion (rwfVersion : UInt16) : UInt8 :=
  (rwfVersion / 256).toUInt8

/-- `rwf_minor_version`. -/
def rwfMinorVersion (rwfVersion : UInt16) : UInt8 :=
  (rwfVersion % 256).toUInt8

/-- The arguments of `WriteRawClose` that describe the stream and why it closes. -/
structure CloseArgs where
  requestToken : Int32
  serviceId : UInt16
  modelType : DomainType
  itemName : Bytes
  useAttribInfoInUpdates : Bool
  streamState : StreamState
  statusCode : StatusCode
  statusText : Bytes

/-- AttribInfo: "if the ReqMsg set AttribInfoInUpdates, then the AttribInfo must be provided for all
    Refresh, Status, and Update RespMsgs". -/
def CloseArgs.msgKey (a : CloseArgs) : MsgKey :=
  if a.useAttribInfoInUpdates then
    { flags := { hasServiceId := true, hasNameType := true, hasName := true }
      serviceId := a.serviceId
      nameType := .ric
      name := a.itemName }
  else {}

/-- The status message. -/
def CloseArgs.response (a : CloseArgs) : RsslMsg where
  msgClass := .status
  domainType := a.modelType
  streamId := a.requestToken
  containerType := .noData
  flags := if a.useAttribInfoInUpdates then [.stmfHasMsgKey, .stmfHasState] else [.stmfHasState]
  msgKey := a.msgKey
  state :=
    { streamState := a.streamState, dataState := .suspect, code := a.statusCode
      text := a.statusText }

/-- `provider_t::WriteRawClose` into a buffer of `length` bytes. -/
def writeRawClose (dcheckIsOn : Bool) (rwfVersion : UInt16) (a : CloseArgs) (length : Nat) :
    List EncodeStep :=
  [.dcheck (!(dcheckIsOn && a.useAttribInfoInUpdates && a.itemName.isEmpty)),
    .rssl (.setBuffer length),
    .rssl (.setRwfVersion (rwfMajorVersion rwfVersion) (rwfMinorVersion rwfVersion)),
    .rssl (.msg a.response)]
  ++ if dcheckIsOn then [.rssl (.validateMsg a.response)] else []

end Hitsuji
