import Hitsuji.Client.State
import Hitsuji.Provider.StatusClose

set_option autoImplicit false

/-! # Source directory

The encoding steps of `provider_t::GetDirectoryMap` and the functions under it. A failing call at
any depth makes every caller return false, which ends at the `cleanup` label of the sending
function, so that the nested functions are one sequence of steps. -/

namespace Hitsuji

open ByteBuffer

/-- `kRdmFieldDictionaryName` -/
def kRdmFieldDictionaryName : Bytes := ascii "RWFFld"

/-- `kEnumTypeDictionaryName` -/
def kEnumTypeDictionaryName : Bytes := ascii "RWFEnum"

/-- A pointer to characters in memory: what `strcmp` may read. -/
abbrev CString := Nat → UInt8

/-- `std::string::c_str`. -/
def cStr (s : Bytes) : CString :=
  fun i => (s[i]?).getD 0

/-- `0 == strcmp (a, s.c_str ())`: `a` starts with the characters of `s` up to its first NUL, and
    ends there. -/
def strcmpEq (a : CString) (s : Bytes) : Bool :=
  let chars := s.takeWhile (· ≠ 0)
  (List.range (chars.length + 1)).map a = chars ++ [0]

/-- `GetServiceCapabilities`: the domains served. -/
def getServiceCapabilities : List EncodeStep :=
  [.rssl (.arrayInit .uint 1),
    .rssl (.arrayEntry (.uint 6)),
    .rssl .arrayComplete]

/-- `GetServiceDictionaries`. -/
def getServiceDictionaries : List EncodeStep :=
  [.rssl (.arrayInit .asciiString 0),
    .rssl (.arrayEntry (.asciiString kRdmFieldDictionaryName)),
    .rssl (.arrayEntry (.asciiString kEnumTypeDictionaryName)),
    .rssl .arrayComplete]

/-- `GetServiceQoS`. -/
def getServiceQoS : List EncodeStep :=
  [.rssl (.arrayInit .qos 0),
    .rssl (.arrayEntry .qosTickByTickRealtime),
    .rssl .arrayComplete]

/-- `GetServiceInformation`. -/
def getServiceInformation (p : ProviderView) : List EncodeStep :=
  [.rssl (.elementListInit 0),
    .rssl (.elementEntry .name (.asciiString p.serviceName)),
    .rssl (.elementEntryInit .capabilities .array)]
  ++ getServiceCapabilities
  ++ [.rssl .elementEntryComplete,
    .rssl (.elementEntryInit .dictionariesUsed .array)]
  ++ getServiceDictionaries
  ++ [.rssl .elementEntryComplete,
    .rssl (.elementEntryInit .qos .array)]
  ++ getServiceQoS
  ++ [.rssl .elementEntryComplete,
    .rssl (.elementEntry .suppsOobSnapshots (.uint 0)),
    .rssl (.elementEntry .acceptingConsStatus (.uint 0)),
    .rssl .elementListComplete]

/-- `GetServiceState`; the state itself is always up. -/
def getServiceState (p : ProviderView) : List EncodeStep :=
  [.rssl (.elementListInit 0),
    .rssl (.elementEntry .svcState (.uint 1)),
    .rssl (.elementEntry .acceptingReqs (.uint (if p.isAcceptingRequests then 1 else 0))),
    .rssl .elementListComplete]

/-- The number of outstanding requests a consumer may have, `ZMQ_SNDHWM`. -/
def openWindow : UInt64 := 1000

/-- `GetServiceLoad`. -/
def getServiceLoad : List EncodeStep :=
  [.rssl (.elementListInit 0),
    .rssl (.elementEntry .openWindow (.uint openWindow)),
    .rssl .elementListComplete]

/-- One entry of the filter list, when the mask asks for it. -/
def filterEntry (use : Bool) (id : FilterId) (content : List EncodeStep) : List EncodeStep :=
  if use then
    [.rssl (.filterEntryInit id)] ++ content ++ [.rssl .filterEntryComplete]
  else []

/-- `GetServiceFilterList`. -/
def getServiceFilterList (p : ProviderView) (filterMask : FilterMask) : List EncodeStep :=
  let filterCount := filterMask.info.toNat + filterMask.state.toNat + filterMask.load.toNat
  [.rssl (.filterListInit .elementList filterCount)]
  ++ filterEntry filterMask.info .info (getServiceInformation p)
  ++ filterEntry filterMask.state .state (getServiceState p)
  ++ filterEntry filterMask.load .load getServiceLoad
  ++ [.rssl .filterListComplete]

/-- `GetServiceDirectory`: a service name that is given has to be the provider's. -/
def getServiceDirectory (p : ProviderView) (serviceName : Option CString)
    (filterMask : FilterMask) : List EncodeStep :=
  .check (serviceName.all fun name => strcmpEq name p.serviceName)
    :: getServiceFilterList p filterMask

/-- `GetDirectoryMap`. -/
def getDirectoryMap (p : ProviderView) (serviceName : Option CString) (filterMask : FilterMask)
    (mapAction : MapAction) : List EncodeStep :=
  [.rssl (.mapInit .uint .filterList),
    .check (p.serviceId ≠ 0),
    .rssl (.mapEntryInit mapAction p.serviceId.toUInt64)]
  ++ getServiceDirectory p serviceName filterMask
  ++ [.rssl .mapEntryComplete, .rssl .mapComplete]

/-! ## Every step cleans up -/

@[simp] theorem rssl_cleansUp (c : EncodeCall) : (EncodeStep.rssl c).cleansUp = true := rfl

@[simp] theorem check_cleansUp (ok : Bool) : (EncodeStep.check ok).cleansUp = true := rfl

theorem filterEntry_cleansUp (use : Bool) (id : FilterId) (content : List EncodeStep)
    (h : content.all EncodeStep.cleansUp = true) :
    (filterEntry use id content).all EncodeStep.cleansUp = true := by
  cases use with
  | false => rfl
  | true => simp [filterEntry, h]

theorem getDirectoryMap_cleansUp (p : ProviderView) (serviceName : Option CString)
    (filterMask : FilterMask) (mapAction : MapAction) :
    (getDirectoryMap p serviceName filterMask mapAction).all EncodeStep.cleansUp = true := by
  have hinfo := filterEntry_cleansUp filterMask.info .info (getServiceInformation p)
    (by simp [getServiceInformation, getServiceCapabilities, getServiceDictionaries, getServiceQoS])
  have hstate := filterEntry_cleansUp filterMask.state .state (getServiceState p)
    (by simp [getServiceState])
  have hload := filterEntry_cleansUp filterMask.load .load getServiceLoad
    (by simp [getServiceLoad])
  simp only [getDirectoryMap, getServiceDirectory, getServiceFilterList, List.all_append,
    List.all_cons, List.all_nil, rssl_cleansUp, check_cleansUp, hinfo, hstate, hload, Bool.and_self]

end Hitsuji
