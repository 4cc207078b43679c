import Hitsuji.Lib.ByteBuffer

set_option autoImplicit false

/-! # RSSL vocabulary

The constants and message structures of the RSSL API that the provider reads or fills in. The API
itself is not part of the repository: a numeric constant of its headers is named here, not given a
value, and a bit mask is a structure with one field for each named bit and the remaining bits in
`rest`, so that the code's equality tests against a mask keep their meaning. -/

namespace Hitsuji

open ByteBuffer

/-! ## Return codes -/

/-- `RsslRet`, as far as the code tells return codes apart. -/
inductive RsslRet where
  | success
  /-- a positive code: that many bytes (here one more than `n`) are still queued -/
  | pendingBytes (n : Nat)
  | encodeMsgKeyOpaque
  | encodeContainer
  | endOfContainer
  | writeCallAgain
  | writeFlushFailed
  | bufferNoBuffers
  | failure (code : Nat)
  deriving DecidableEq

/-- The `rsslWriteEx` codes under which the buffer belongs to RSSL afterwards. -/
def RsslRet.accepted : RsslRet → Bool
  | .success | .pendingBytes _ | .writeFlushFailed => true
  | _ => false

/-! ## Enumerations -/

/-- `RSSL_DMT_…` -/
inductive DomainType where
  | login
  | source
  | dictionary
  | marketPrice
  | marketByOrder
  | marketByPrice
  | marketMaker
  | symbolList
  | yieldCurve
  | other (code : UInt8)
  deriving DecidableEq

/-- `RSSL_MC_…` -/
inductive MsgClass where
  | request
  | refresh
  | status
  | update
  | close
  | ack
  | generic
  | post
  | other (code : UInt8)
  deriving DecidableEq

/-- `RSSL_DT_…` -/
inductive DataType where
  | noData
  | uint
  | real
  | asciiString
  | rmtesString
  | qos
  | array
  | elementList
  | fieldList
  | filterList
  | map
  | other (code : UInt8)
  deriving DecidableEq

/-- `RSSL_STREAM_…` -/
inductive StreamState where
  | unspecified
  | opened
  | nonStreaming
  | closed
  | closedRecover
  deriving DecidableEq

/-- `RSSL_DATA_…` -/
inductive DataState where
  | noChange
  | ok
  | suspect
  deriving DecidableEq

/-- `RSSL_SC_…` -/
inductive StatusCode where
  | none
  | notFound
  | notEntitled
  | usageError
  | error
  deriving DecidableEq

/-- `msgKey.nameType`, with `RDM_INSTRUMENT_NAME_TYPE_RIC` named. -/
inductive NameType where
  | ric
  | other (code : UInt8)
  deriving DecidableEq

/-- `RSSL_ENAME_…` -/
inductive ElementName where
  | allowSuspectData
  | provPermExp
  | provPermProf
  | singleOpen
  | name
  | capabilities
  | dictionariesUsed
  | qos
  | suppsOobSnapshots
  | acceptingConsStatus
  | svcState
  | acceptingReqs
  | openWindow
  | appName
  | viewType
  | other (text : Bytes)
  deriving DecidableEq

/-- The flags set on outgoing messages. -/
inductive MsgFlag where
  | rfmfSolicited
  | rfmfRefreshComplete
  | rfmfDoNotCache
  | rfmfHasMsgKey
  | rfmfHasPermData
  | stmfHasMsgKey
  | stmfHasState
  | upmfDoNotConflate
  deriving DecidableEq

/-! ## Bit masks -/

/-- `RSSL_RQMF_…` -/
structure RequestFlags where
  streaming : Bool := false
  pause : Bool := false
  msgKeyInUpdates : Bool := false
  hasView : Bool := false
  rest : UInt16 := 0
  deriving DecidableEq

/-- `RSSL_MKF_…` -/
structure KeyFlags where
  hasServiceId : Bool := false
  hasName : Bool := false
  hasNameType : Bool := false
  hasFilter : Bool := false
  hasAttrib : Bool := false
  rest : UInt16 := 0
  deriving DecidableEq

/-- `RDM_DIRECTORY_SERVICE_…_FILTER` -/
structure FilterMask where
  info : Bool := false
  state : Bool := false
  load : Bool := false
  rest : UInt32 := 0
  deriving DecidableEq

/-! ## Messages -/

/-- `RsslMsgKey` -/
structure MsgKey where
  flags : KeyFlags := {}
  serviceId : UInt16 := 0
  nameType : NameType := .other 0
  name : Bytes := []
  filter : FilterMask := {}
  attribContainerType : DataType := .noData
  deriving DecidableEq

/-- `RsslState` -/
structure RsslState where
  streamState : StreamState := .unspecified
  dataState : DataState := .noChange
  code : StatusCode := .none
  text : Bytes := []
  deriving DecidableEq

/-- A message the provider builds: `RsslRefreshMsg`, `RsslStatusMsg` and `RsslUpdateMsg` in one,
    each leaving the fields of the others at their initial value. -/
structure RsslMsg where
  msgClass : MsgClass
  domainType : DomainType
  streamId : Int32
  containerType : DataType := .noData
  flags : List MsgFlag := []
  msgKey : MsgKey := {}
  state : RsslState := {}
  permData : Bytes := []
  deriving DecidableEq

end Hitsuji
