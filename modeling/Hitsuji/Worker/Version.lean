import Hitsuji.Client.Dispatch
import Hitsuji.Worker.Task

set_option autoImplicit false

/-! # The wire format version of a client

A channel negotiates a major and a minor version. The main thread sets its encode iterators to the
pair in the channel; for the workers `client_t::rwf_version` packs it, the request carries it, and
the helpers of `vta::intraday_t` and `provider_t` take it apart again. -/

namespace Hitsuji

open ByteBuffer

/-! ## Packing -/

/-- What `client_t::rwf_version` packs, the helpers unpack. -/
theorem rwfVersion_unpacks (c : Channel) :
    rwfMajorVersion c.rwfVersion = c.majorVersion
      ∧ rwfMinorVersion c.rwfVersion = c.minorVersion := by
  have hmajor := c.majorVersion.toNat_lt
  have hminor := c.minorVersion.toNat_lt
  have hpacked : c.rwfVersion.toNat = c.majorVersion.toNat * 256 + c.minorVersion.toNat := by
    simp only [Channel.rwfVersion, UInt16.toNat_add, UInt16.toNat_mul, UInt8.toNat_toUInt16,
      UInt16.reduceToNat]
    omega
  constructor
  · apply UInt8.toNat_inj.mp
    simp only [rwfMajorVersion, UInt16.toNat_toUInt8, UInt16.toNat_div, hpacked,
      UInt16.reduceToNat]
    omega
  · apply UInt8.toNat_inj.mp
    simp only [rwfMinorVersion, UInt16.toNat_toUInt8, UInt16.toNat_mod, hpacked,
      UInt16.reduceToNat]
    omega

/-! ## The versions an encoder sets -/

/-- The version a step sets the iterator to. -/
def EncodeStep.versionSet : EncodeStep → Option (UInt8 × UInt8)
  | .call (.setRwfVersion major minor) _ _ => some (major, minor)
  | _ => none

/-- The versions the steps set the iterator to, in order. -/
def versionsSet (steps : List EncodeStep) : List (UInt8 × UInt8) :=
  steps.filterMap EncodeStep.versionSet

@[simp] theorem versionsSet_append (xs ys : List EncodeStep) :
    versionsSet (xs ++ ys) = versionsSet xs ++ versionsSet ys :=
  List.filterMap_append

@[simp] theorem versionsSet_cons (step : EncodeStep) (rest : List EncodeStep) :
    versionsSet (step :: rest) = step.versionSet.toList ++ versionsSet rest := by
  cases h : step.versionSet <;> simp [versionsSet, h]

@[simp] theorem versionsSet_nil : versionsSet [] = [] := rfl

/-- Nothing in a directory touches the version. -/
theorem versionsSet_filterEntry (use : Bool) (id : FilterId) (content : List EncodeStep)
    (h : versionsSet content = []) : versionsSet (filterEntry use id content) = [] := by
  cases use with
  | false => rfl
  | true => simp [filterEntry, h, EncodeStep.versionSet, EncodeStep.rssl]

theorem versionsSet_getDirectoryMap (p : ProviderView) (serviceName : Option CString)
    (filterMask : FilterMask) (mapAction : MapAction) :
    versionsSet (getDirectoryMap p serviceName filterMask mapAction) = [] := by
  have hinfo := versionsSet_filterEntry filterMask.info .info (getServiceInformation p) rfl
  have hstate := versionsSet_filterEntry filterMask.state .state (getServiceState p) rfl
  have hload := versionsSet_filterEntry filterMask.load .load getServiceLoad rfl
  simp [getDirectoryMap, getServiceDirectory, getServiceFilterList, hinfo, hstate, hload,
    EncodeStep.versionSet, EncodeStep.rssl]

theorem versionsSet_fields (fields : List (Int × Value)) :
    versionsSet (fields.map fun field => .orReturn (.fieldEntry field.1 field.2)) = [] := by
  induction fields with
  | nil => rfl
  | cons field rest ih => simpa [EncodeStep.versionSet, EncodeStep.orReturn] using ih

/-! ## Every message encoded for a client -/

/-- What is encoded for a client, with the arguments of the encoding function. The workers encode
    for a request that came in as the message `m`. -/
inductive Encoding where
  | rejectLogin (loginToken : Int32)
  | acceptLogin (loginMsg : InMsg) (loginToken : Int32)
  | directoryRefresh (requestToken : Int32) (serviceName : Option CString)
      (filterMask : FilterMask)
  | directoryUpdate (directoryToken : Int32) (serviceName : Option CString)
  | close (dcheckIsOn : Bool) (a : CloseArgs)
  | workerClose (dcheckIsOn : Bool) (mem : Nat → UInt8) (m : InMsg) (streamState : StreamState)
      (statusCode : StatusCode) (statusText : Bytes) (length : Nat)
  | refresh (dcheckIsOn : Bool) (mem : Nat → UInt8) (m : InMsg) (a : Analytic) (dacsLock : Bytes)
      (length : Nat)

namespace Encoding

/-- The refresh of an analytic. -/
def isRefresh : Encoding → Bool
  | .refresh .. => true
  | _ => false

/-- What a worker makes of the request a session sends it for a message. -/
def received (mem : Nat → UInt8) (s : Session) (m : InMsg) :
    Except Fault (Bytes × Option RequestView) := do
  let msg ← encodeRequest mem (itemRequest s m none)
  return (msg, ← decodeRequest .lengthFirst msg)

/-- The encoding steps; none if no request gets to the worker. -/
def steps (s : Session) : Encoding → List EncodeStep
  | .rejectLogin loginToken => rejectLoginSteps s.channel loginToken
  | .acceptLogin loginMsg loginToken =>
      acceptLoginSteps s.channel (acceptLoginResponse loginMsg loginToken)
  | .directoryRefresh requestToken serviceName filterMask =>
      directorySteps s.channel s.provider (directoryRefreshResponse requestToken filterMask)
        serviceName filterMask .addEntry
  | .directoryUpdate directoryToken serviceName =>
      directorySteps s.channel s.provider (directoryUpdateResponse directoryToken) serviceName
        { state := true } .updateEntry
  | .close dcheckIsOn a => writeRawClose dcheckIsOn s.channel.rwfVersion a maxMsgSize
  | .workerClose dcheckIsOn mem m streamState statusCode statusText length =>
      match received mem s m with
      | .ok (msg, some view) => writeRawClose dcheckIsOn view.rwfVersion
          (Worker.closeArgs view (view.name msg) streamState statusCode statusText) length
      | _ => []
  | .refresh dcheckIsOn mem m a dacsLock length =>
      match received mem s m with
      | .ok (msg, some view) => a.writeRaw dcheckIsOn view.rwfVersion view.token view.serviceId
          (view.name msg) dacsLock length
      | _ => []

/-- The version travels to the worker unchanged. -/
theorem received_version (mem : Nat → UInt8) (s : Session) (m : InMsg) :
    ∃ msg view, received mem s m = .ok (msg, some view)
      ∧ view.rwfVersion = s.channel.rwfVersion := by
  obtain ⟨view, hdecoded, hversion⟩ : ∃ view,
      decodeRequest .lengthFirst (requestImage (itemRequest s m none)) = .ok (some view)
        ∧ view.rwfVersion = s.channel.rwfVersion := ⟨_, decodeRequest_image _, rfl⟩
  refine ⟨requestImage (itemRequest s m none), view, ?_, hversion⟩
  simp only [received, encodeRequest_eq, bind, Except.bind, hdecoded, pure, Except.pure]

end Encoding

theorem versionsSet_close (dcheckIsOn : Bool) (rwfVersion : UInt16) (a : CloseArgs)
    (length : Nat) :
    versionsSet (writeRawClose dcheckIsOn rwfVersion a length)
      = [(rwfMajorVersion rwfVersion, rwfMinorVersion rwfVersion)] := by
  cases dcheckIsOn <;> rfl

/-- The refreshes set the major version in both places. -/
theorem versionsSet_refresh (a : Analytic) (dcheckIsOn : Bool) (rwfVersion : UInt16)
    (token : Int32) (serviceId : UInt16) (itemName dacsLock : Bytes) (length : Nat) :
    versionsSet (a.writeRaw dcheckIsOn rwfVersion token serviceId itemName dacsLock length)
      = [(rwfMajorVersion rwfVersion, rwfMajorVersion rwfVersion)] := by
  simp only [Analytic.writeRaw, refreshSteps, versionsSet_append, versionsSet_fields]
  cases dcheckIsOn <;> rfl

theorem versionsSet_directory (c : Channel) (p : ProviderView) (response : RsslMsg)
    (serviceName : Option CString) (filterMask : FilterMask) (mapAction : MapAction) :
    versionsSet (directorySteps c p response serviceName filterMask mapAction)
      = [(c.majorVersion, c.minorVersion)] := by
  simp [directorySteps, versionsSet_getDirectoryMap, EncodeStep.versionSet, EncodeStep.rssl]

/-- **The iterator is set to the negotiated version, once, for everything that is encoded for a
    client but the refresh of an analytic**; there it is, exactly when the minor version equals the
    major version. -/
theorem version_negotiated_iff (s : Session) (e : Encoding) :
    versionsSet (e.steps s) = [(s.channel.majorVersion, s.channel.minorVersion)] ↔
      (e.isRefresh = true → s.channel.minorVersion = s.channel.majorVersion) := by
  obtain ⟨hmajor, hminor⟩ := rwfVersion_unpacks s.channel
  have hsame : ∀ steps, versionsSet steps = [(s.channel.majorVersion, s.channel.minorVersion)] →
      (versionsSet steps = [(s.channel.majorVersion, s.channel.minorVersion)] ↔
        (false = true → s.channel.minorVersion = s.channel.majorVersion)) :=
    fun _ h => iff_of_true h (fun h => absurd h (by decide))
  cases e with
  | rejectLogin loginToken => exact hsame _ rfl
  | acceptLogin loginMsg loginToken => exact hsame _ rfl
  | directoryRefresh requestToken serviceName filterMask =>
      exact hsame _ (versionsSet_directory _ _ _ _ _ _)
  | directoryUpdate directoryToken serviceName =>
      exact hsame _ (versionsSet_directory _ _ _ _ _ _)
  | close dcheckIsOn a =>
      refine hsame _ ?_
      rw [Encoding.steps, versionsSet_close, hmajor, hminor]
  | workerClose dcheckIsOn mem m streamState statusCode statusText length =>
      obtain ⟨msg, view, hreceived, hversion⟩ := Encoding.received_version mem s m
      refine hsame _ ?_
      simp only [Encoding.steps, hreceived]
      rw [versionsSet_close, hversion, hmajor, hminor]
  | refresh dcheckIsOn mem m a dacsLock length =>
      obtain ⟨msg, view, hreceived, hversion⟩ := Encoding.received_version mem s m
      simp only [Encoding.steps, hreceived]
      rw [versionsSet_refresh, hversion, hmajor]
      simp only [Encoding.isRefresh, List.cons.injEq, Prod.mk.injEq, true_and, and_true,
        forall_const]
      exact eq_comm

/-- A refresh for a channel at version 14.0 is encoded at 14.14. -/
theorem refresh_at_14_14 :
    versionsSet ((Encoding.refresh false (fun _ => 0) (.plain .request .marketPrice 5)
        (.bar .init) [] maxMsgSize).steps clearSession) = [(14, 14)]
      ∧ (clearSession.channel.majorVersion, clearSession.channel.minorVersion) = (14, 0) := by
  refine ⟨?_, rfl⟩
  obtain ⟨msg, view, hreceived, hversion⟩ :=
    Encoding.received_version (fun _ => 0) clearSession (.plain .request .marketPrice 5)
  simp only [Encoding.steps, hreceived]
  rw [versionsSet_refresh, hversion]
  rfl

end Hitsuji
