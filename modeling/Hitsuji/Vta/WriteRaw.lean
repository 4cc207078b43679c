import Hitsuji.Vta.Analytics

set_option autoImplicit false

/-! # The refresh of an analytic

`WriteRaw` is the same in the four implementations but for the fields, and but for `test_t`, which
leaves out the permission data. -/

namespace Hitsuji

open ByteBuffer

/-! ## Encoding -/

/-- The refresh message; DACS permission data if provided. -/
def refreshResponse (token : Int32) (serviceId : UInt16) (itemName dacsLock : Bytes) :
    RsslMsg where
  msgClass := .refresh
  domainType := .marketPrice
  streamId := token
  containerType := .fieldList
  flags := [.rfmfSolicited, .rfmfRefreshComplete, .rfmfDoNotCache, .rfmfHasMsgKey]
    ++ if dacsLock.isEmpty then [] else [.rfmfHasPermData]
  msgKey :=
    { flags := { hasServiceId := true, hasNameType := true, hasName := true }
      serviceId := serviceId
      nameType := .ric
      name := itemName }
  state := { streamState := .nonStreaming, dataState := .ok, code := .none }
  permData := dacsLock

/-- A step of `WriteRaw`: there is nothing to clean up. -/
def EncodeStep.orReturn (c : EncodeCall) : EncodeStep :=
  .call c .success .returnFalse

/-- The encoding steps of `WriteRaw` into a buffer of `length` bytes; the version is set from the
    major version twice. -/
def refreshSteps (dcheckIsOn : Bool) (rwfVersion : UInt16) (response : RsslMsg)
    (fields : List (Int × Value)) (length : Nat) : List EncodeStep :=
  [.dcheck (!(dcheckIsOn && response.msgKey.name.isEmpty)),
    .orReturn (.setBuffer length),
    .orReturn (.setRwfVersion (rwfMajorVersion rwfVersion) (rwfMajorVersion rwfVersion)),
    .call (.msgInit response 0) .encodeContainer .returnFalse,
    .orReturn .fieldListInit]
  ++ fields.map (fun field => .orReturn (.fieldEntry field.1 field.2))
  ++ [.orReturn .fieldListComplete, .orReturn .msgComplete]
  ++ if dcheckIsOn then [.orReturn (.validateMsg response)] else []

/-- `WriteRaw` of an implementation. -/
def Analytic.writeRaw (a : Analytic) (dcheckIsOn : Bool) (rwfVersion : UInt16) (token : Int32)
    (serviceId : UInt16) (itemName dacsLock : Bytes) (length : Nat) : List EncodeStep :=
  refreshSteps dcheckIsOn rwfVersion
    (refreshResponse token serviceId itemName (if a.attachesLock then dacsLock else []))
    a.fields length

end Hitsuji
