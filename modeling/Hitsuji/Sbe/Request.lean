import Hitsuji.Sbe.Flyweight

set_option autoImplicit false

/-! # The request message

The main thread distributes an item request as one SBE `Request`: channel pointer, wire format
version, token and service id, a byte of flags, and the item name as variable-length data
(`hitsuji_t::OnRequest`). `worker_t::OnTask` takes it apart. -/

namespace Hitsuji

open ByteBuffer

/-! ## The generated classes -/

namespace Flags

/-- A bit of the flags byte. -/
def bit (n : UInt8) (value : Bool) (bits : UInt8) : UInt8 :=
  if value then bits ||| n else bits &&& ~~~n

/-- The setter `Flags::abort`. -/
def setAbort (value : Bool) (bits : UInt8) : UInt8 :=
  bit 1 value bits

/-- The setter `Flags::useAttribInfoInUpdates`. -/
def setUseAttribInfoInUpdates (value : Bool) (bits : UInt8) : UInt8 :=
  bit 2 value bits

/-- The getter `Flags::abort`. -/
def abort (bits : UInt8) : Bool :=
  bits &&& 1 ≠ 0

/-- The getter `Flags::useAttribInfoInUpdates`. -/
def useAttribInfoInUpdates (bits : UInt8) : Bool :=
  bits &&& 2 ≠ 0

/-- `Flags::wrap`: the offset of the flags byte, checked against the buffer. -/
def wrap (offset bufferLength : Nat) : Except Fault Nat :=
  if offset + 1 > bufferLength then .error .flyweightTooShort else .ok offset

end Flags

namespace Request

/-- `Request::sbeBlockLength`. -/
def sbeBlockLength : UInt16 := 17

/-- `Request::sbeTemplateId`. -/
def sbeTemplateId : UInt16 := 1

/-- `Request::sbeSchemaId`. -/
def sbeSchemaId : UInt16 := 1

/-- `Request::sbeSchemaVersion`. -/
def sbeSchemaVersion : UInt16 := 0

/-- `Request::itemNameHeaderSize`. -/
def itemNameHeaderSize : Nat := 1

/-- `Request::wrapForEncode`. -/
def wrapForEncode (offset bufferLength : Nat) : Except Fault Flyweight :=
  Flyweight.wrap offset sbeBlockLength.toNat sbeSchemaVersion.toNat bufferLength

/-- `Request::wrapForDecode`. -/
def wrapForDecode (offset actingBlockLength actingVersion bufferLength : Nat) :
    Except Fault Flyweight :=
  Flyweight.wrap offset actingBlockLength actingVersion bufferLength

/-- The setters of the fixed fields, chained in this order by both overloads of `OnRequest`. -/
def putFields (m : Flyweight) (buf : Bytes) (handle : UInt64) (rwfVersion : UInt16) (token : Int32)
    (serviceId : UInt16) : Except Fault Bytes := do
  let buf ← m.putField buf 0 8 handle.toNat
  let buf ← m.putField buf 8 2 rwfVersion.toNat
  let buf ← m.putField buf 10 4 token.toUInt32.toNat
  m.putField buf 14 2 serviceId.toNat

/-- The getter `Request::handle`. -/
def handle (m : Flyweight) (buf : Bytes) : Except Fault UInt64 := do
  return UInt64.ofNat (← m.getField buf 0 8)

/-- The getter `Request::rwfVersion`. -/
def rwfVersion (m : Flyweight) (buf : Bytes) : Except Fault UInt16 := do
  return UInt16.ofNat (← m.getField buf 8 2)

/-- The getter `Request::token`. -/
def token (m : Flyweight) (buf : Bytes) : Except Fault Int32 := do
  return (UInt32.ofNat (← m.getField buf 10 4)).toInt32

/-- The getter `Request::serviceId`. -/
def serviceId (m : Flyweight) (buf : Bytes) : Except Fault UInt16 := do
  return UInt16.ofNat (← m.getField buf 14 2)

/-- `Request::flags`: the flags byte behind a checked wrap. -/
def flags (m : Flyweight) (buf : Bytes) : Except Fault UInt8 := do
  let offset ← Flags.wrap (m.offset + 16) m.bufferLength
  return UInt8.ofNat (leNat (← load buf offset 1))

/-- `flags ().clear ().abort (abort).useAttribInfoInUpdates (use)`. -/
def putFlags (m : Flyweight) (buf : Bytes) (abort useAttribInfoInUpdates : Bool) :
    Except Fault Bytes := do
  let offset ← Flags.wrap (m.offset + 16) m.bufferLength
  store buf offset [Flags.setUseAttribInfoInUpdates useAttribInfoInUpdates (Flags.setAbort abort 0)]

end Request

/-! ## Both ends -/

/-- What `delegate_->OnRequest` is called with. -/
structure ItemRequest where
  handle : UInt64
  rwfVersion : UInt16
  token : Int32
  serviceId : UInt16
  itemName : Bytes
  useAttribInfoInUpdates : Bool
  /-- the field ids of the overload with a view -/
  viewByFid : Option (List Int)
  deriving DecidableEq

/-- The channel and the stream a request is for, which is all its reply will be routed by. -/
def ItemRequest.key (r : ItemRequest) : UInt64 × Int32 :=
  (r.handle, r.token)

/-- The message `hitsuji_t::OnRequest` without a view hands to `zmq_msg_send`. -/
def encodeRequest (mem : Nat → UInt8) (r : ItemRequest) : Except Fault Bytes := do
  let msg := zmqMsgInitSize mem (MessageHeader.size + Request.sbeBlockLength.toNat
    + Request.itemNameHeaderSize + r.itemName.length)
  let hdr ← MessageHeader.wrap 0 msg.length
  let msg ← hdr.put msg Request.sbeBlockLength Request.sbeTemplateId Request.sbeSchemaId
    Request.sbeSchemaVersion
  let request ← Request.wrapForEncode MessageHeader.size msg.length
  let msg ← Request.putFields request msg r.handle r.rwfVersion r.token r.serviceId
  let msg ← Request.putFlags request msg false r.useAttribInfoInUpdates
  let (_, msg) ← request.putVarData msg r.itemName r.itemName.length
  return msg

/-- What `worker_t::OnTask` reads from a request; the name is an offset and a length. -/
structure RequestView where
  handle : UInt64
  rwfVersion : UInt16
  token : Int32
  serviceId : UInt16
  useAttribInfoInUpdates : Bool
  itemName : Nat
  itemNameLength : Nat
  deriving DecidableEq

/-- The item name a view refers to. -/
def RequestView.name (view : RequestView) (buffer : Bytes) : Bytes :=
  peek buffer view.itemName view.itemNameLength

/-- The decoding part of `worker_t::OnTask`; `none` is the abort flag. -/
def decodeRequest (order : ArgOrder) (buffer : Bytes) : Except Fault (Option RequestView) := do
  let hdr ← MessageHeader.wrap 0 buffer.length
  let request ← Request.wrapForDecode MessageHeader.size (← hdr.blockLength buffer).toNat
    (← hdr.version buffer).toNat buffer.length
  -- nothing else of an abort message is read
  if Flags.abort (← Request.flags request buffer) then
    return none
  else
    let handle ← Request.handle request buffer
    let rwfVersion ← Request.rwfVersion request buffer
    let token ← Request.token request buffer
    let serviceId ← Request.serviceId request buffer
    let flags ← Request.flags request buffer
    let (itemName, itemNameLength) ← request.varDataArgs order buffer
    return some ⟨handle, rwfVersion, token, serviceId, Flags.useAttribInfoInUpdates flags,
      itemName, itemNameLength⟩

/-! ## What is on the wire -/

/-- The message header of every request. -/
def requestHeader : Bytes :=
  MessageHeader.image Request.sbeBlockLength Request.sbeTemplateId Request.sbeSchemaId
    Request.sbeSchemaVersion

@[simp] theorem requestHeader_length : requestHeader.length = 8 :=
  MessageHeader.image_length _ _ _ _

/-- The flags byte of an item request. -/
def requestFlags (useAttribInfoInUpdates : Bool) : UInt8 :=
  Flags.setUseAttribInfoInUpdates useAttribInfoInUpdates (Flags.setAbort false 0)

theorem requestFlags_abort (use : Bool) : Flags.abort (requestFlags use) = false := by
  cases use <;> decide

theorem requestFlags_use (use : Bool) : Flags.useAttribInfoInUpdates (requestFlags use) = use := by
  cases use <;> decide

/-- The fixed fields up to the flags. -/
def requestFields (r : ItemRequest) : Bytes :=
  requestHeader ++ leBytes 8 r.handle.toNat ++ leBytes 2 r.rwfVersion.toNat
    ++ leBytes 4 r.token.toUInt32.toNat ++ leBytes 2 r.serviceId.toNat

@[simp] theorem requestFields_length (r : ItemRequest) : (requestFields r).length = 24 := by
  simp [requestFields]

/-- A request: the length of the name is kept in one byte, the name in full. -/
def requestImage (r : ItemRequest) : Bytes :=
  requestFields r ++ [requestFlags r.useAttribInfoInUpdates] ++ [UInt8.ofNat r.itemName.length]
    ++ r.itemName

theorem putFields_header (m : Flyweight) (raw : Bytes) (r : ItemRequest) (hm : m.offset = 8)
    (h : 24 ≤ raw.length) :
    Request.putFields m (requestHeader ++ raw.drop 8) r.handle r.rwfVersion r.token r.serviceId
      = .ok (requestFields r ++ raw.drop 24) := by
  have hhandle := m.putField_behind requestHeader (raw.drop 8) 0 8 r.handle.toNat (by simp [hm])
    (by simp; omega)
  have hversion := m.putField_behind (requestHeader ++ leBytes 8 r.handle.toNat) (raw.drop 16) 8 2
    r.rwfVersion.toNat (by simp [hm]) (by simp; omega)
  have htoken := m.putField_behind (requestHeader ++ leBytes 8 r.handle.toNat
    ++ leBytes 2 r.rwfVersion.toNat) (raw.drop 18) 10 4 r.token.toUInt32.toNat (by simp [hm])
    (by simp; omega)
  have hservice := m.putField_behind (requestHeader ++ leBytes 8 r.handle.toNat
    ++ leBytes 2 r.rwfVersion.toNat ++ leBytes 4 r.token.toUInt32.toNat) (raw.drop 22) 14 2
    r.serviceId.toNat (by simp [hm]) (by simp; omega)
  simp only [List.drop_drop, Nat.reduceAdd] at hhandle hversion htoken hservice
  simp only [Request.putFields, bind, Except.bind, hhandle, hversion, htoken, hservice,
    requestFields]

theorem putFlags_header (m : Flyweight) (raw : Bytes) (r : ItemRequest) (hm : m.offset = 8)
    (hbuf : m.bufferLength = raw.length) (h : 25 ≤ raw.length) :
    Request.putFlags m (requestFields r ++ raw.drop 24) false r.useAttribInfoInUpdates
      = .ok (requestFields r ++ [requestFlags r.useAttribInfoInUpdates] ++ raw.drop 25) := by
  have hwrap : Flags.wrap (m.offset + 16) m.bufferLength = .ok 24 := by
    rw [hm, hbuf, Flags.wrap, if_neg (by omega)]
  have hstore := store_behind (requestFields r) (raw.drop 24)
    [requestFlags r.useAttribInfoInUpdates] 24 (by simp) (by simp; omega)
  simp only [List.drop_drop, List.length_cons, List.length_nil, Nat.reduceAdd] at hstore
  simp only [Request.putFlags, hwrap, bind, Except.bind]
  exact hstore

/-- The header and the flyweight over the front of a fresh buffer. -/
theorem requestFrame_written (raw : Bytes) (h : 25 ≤ raw.length) :
    MessageHeader.wrap 0 raw.length = .ok ⟨0⟩
      ∧ MessageHeader.put ⟨0⟩ raw Request.sbeBlockLength Request.sbeTemplateId Request.sbeSchemaId
        Request.sbeSchemaVersion = .ok (requestHeader ++ raw.drop 8)
      ∧ (requestHeader ++ raw.drop 8).length = raw.length
      ∧ Request.wrapForEncode MessageHeader.size raw.length = .ok ⟨raw.length, 8, 25, 17, 0⟩ := by
  refine ⟨if_neg (by omega), MessageHeader.put_front raw _ _ _ _ (by omega), ?_, ?_⟩
  · simp only [List.length_append, requestHeader_length, List.length_drop]
    omega
  · have hpos : ¬ 25 > raw.length := by omega
    simp [Request.wrapForEncode, Flyweight.wrap, Flyweight.setPosition, MessageHeader.size,
      Request.sbeBlockLength, Request.sbeSchemaVersion, hpos]

/-- Encoding never faults, whatever the length of the name. -/
theorem encodeRequest_eq (mem : Nat → UInt8) (r : ItemRequest) :
    encodeRequest mem r = .ok (requestImage r) := by
  unfold encodeRequest
  obtain ⟨raw, hraw⟩ : ∃ raw, zmqMsgInitSize mem (MessageHeader.size
      + Request.sbeBlockLength.toNat + Request.itemNameHeaderSize + r.itemName.length) = raw :=
    ⟨_, rfl⟩
  have hlen : raw.length = 26 + r.itemName.length := by
    rw [← hraw]
    exact zmqMsgInitSize_length mem _
  let m : Flyweight := ⟨raw.length, 8, 25, 17, 0⟩
  obtain ⟨hwrap, hput, hputLen, hm⟩ := requestFrame_written raw (by omega)
  rw [show (⟨raw.length, 8, 25, 17, 0⟩ : Flyweight) = m from rfl] at hm
  have hdata := m.putVarData_behind
    (requestFields r ++ [requestFlags r.useAttribInfoInUpdates]) (raw.drop 25) r.itemName
    r.itemName.length (by simp [m]) (by simp; omega) (by simp [m]; omega) (Nat.le_refl _)
  rw [List.take_length] at hdata
  simp only [bind, Except.bind, pure, Except.pure, hraw, hwrap, hput, hputLen, hm,
    putFields_header m raw r rfl (by omega), putFlags_header m raw r rfl rfl (by omega), hdata]
  rfl

/-! ## Reading it back -/

/-- The fixed fields of a request, as the getters find them. -/
theorem requestFields_read (m : Flyweight) (r : ItemRequest) (rest : Bytes) (hm : m.offset = 8) :
    Request.handle m (requestFields r ++ rest) = .ok r.handle
      ∧ Request.rwfVersion m (requestFields r ++ rest) = .ok r.rwfVersion
      ∧ Request.token m (requestFields r ++ rest) = .ok r.token
      ∧ Request.serviceId m (requestFields r ++ rest) = .ok r.serviceId := by
  have hhandle := m.getField_middle requestHeader (leBytes 2 r.rwfVersion.toNat
    ++ leBytes 4 r.token.toUInt32.toNat ++ leBytes 2 r.serviceId.toNat ++ rest) 0 8
    r.handle.toNat (by simp [hm]) r.handle.toNat_lt
  have hversion := m.getField_middle (requestHeader ++ leBytes 8 r.handle.toNat)
    (leBytes 4 r.token.toUInt32.toNat ++ leBytes 2 r.serviceId.toNat ++ rest) 8 2
    r.rwfVersion.toNat (by simp [hm]) r.rwfVersion.toNat_lt
  have htoken := m.getField_middle (requestHeader ++ leBytes 8 r.handle.toNat
    ++ leBytes 2 r.rwfVersion.toNat) (leBytes 2 r.serviceId.toNat ++ rest) 10 4
    r.token.toUInt32.toNat (by simp [hm]) r.token.toUInt32.toNat_lt
  have hservice := m.getField_middle (requestHeader ++ leBytes 8 r.handle.toNat
    ++ leBytes 2 r.rwfVersion.toNat ++ leBytes 4 r.token.toUInt32.toNat) rest 14 2
    r.serviceId.toNat (by simp [hm]) r.serviceId.toNat_lt
  simp only [List.append_assoc] at hhandle hversion htoken hservice
  refine ⟨?_, ?_, ?_, ?_⟩
  · simp only [Request.handle, requestFields, List.append_assoc, hhandle, bind, Except.bind, pure,
      Except.pure, UInt64.ofNat_toNat]
  · simp only [Request.rwfVersion, requestFields, List.append_assoc, hversion, bind, Except.bind,
      pure, Except.pure, UInt16.ofNat_toNat]
  · simp only [Request.token, requestFields, List.append_assoc, htoken, bind, Except.bind, pure,
      Except.pure, UInt32.ofNat_toNat, Int32.toInt32_toUInt32]
  · simp only [Request.serviceId, requestFields, List.append_assoc, hservice, bind, Except.bind,
      pure, Except.pure, UInt16.ofNat_toNat]

/-- Whatever follows them, the fixed fields of a request and its flags are recovered. -/
theorem decodeRequest_block (order : ArgOrder) (r : ItemRequest) (rest : Bytes) :
    decodeRequest order (requestFields r ++ [requestFlags r.useAttribInfoInUpdates] ++ rest) = (do
      let m : Flyweight := ⟨25 + rest.length, 8, 25, 17, 0⟩
      let (ptr, length) ← m.varDataArgs order
        (requestFields r ++ [requestFlags r.useAttribInfoInUpdates] ++ rest)
      return some ⟨r.handle, r.rwfVersion, r.token, r.serviceId, r.useAttribInfoInUpdates, ptr,
        length⟩) := by
  let m : Flyweight := ⟨25 + rest.length, 8, 25, 17, 0⟩
  let flags := requestFlags r.useAttribInfoInUpdates
  obtain ⟨msg, hmsg⟩ : ∃ msg, requestFields r ++ [flags] ++ rest = msg := ⟨_, rfl⟩
  have himage : msg = requestFields r ++ ([flags] ++ rest) := by
    rw [← hmsg, List.append_assoc]
  have hlen : msg.length = 25 + rest.length := by
    rw [← hmsg, List.length_append, List.length_append, requestFields_length]
    rfl
  have hwrap : MessageHeader.wrap 0 (25 + rest.length) = .ok ⟨0⟩ := if_neg (by omega)
  have hblock : MessageHeader.blockLength ⟨0⟩ msg = .ok 17 := by
    rw [himage, requestFields, requestHeader]
    simp only [List.append_assoc]
    exact MessageHeader.blockLength_image _ _ _ _ _
  have hversion : MessageHeader.version ⟨0⟩ msg = .ok 0 := by
    rw [himage, requestFields, requestHeader]
    simp only [List.append_assoc]
    exact MessageHeader.version_image _ _ _ _ _
  have hm : Request.wrapForDecode MessageHeader.size (17 : UInt16).toNat (0 : UInt16).toNat
      (25 + rest.length) = .ok m := by
    simp [Request.wrapForDecode, Flyweight.wrap, Flyweight.setPosition, MessageHeader.size, m]
  have hflags : Request.flags m msg = .ok flags := by
    have hat : Flags.wrap (m.offset + 16) m.bufferLength = .ok 24 := if_neg (by simp [m])
    have hload := load_middle (requestFields r) [flags] rest 24 1 (by simp) rfl
    rw [hmsg] at hload
    simp only [Request.flags, hat, hload, bind, Except.bind, pure, Except.pure]
    simp [leNat]
  obtain ⟨hhandle, hrwf, htoken, hservice⟩ := requestFields_read m r ([flags] ++ rest) rfl
  rw [← himage] at hhandle hrwf htoken hservice
  change decodeRequest order (requestFields r ++ [flags] ++ rest) = (do
    let (ptr, length) ← m.varDataArgs order (requestFields r ++ [flags] ++ rest)
    return some ⟨r.handle, r.rwfVersion, r.token, r.serviceId, r.useAttribInfoInUpdates, ptr,
      length⟩)
  rw [hmsg]
  unfold decodeRequest
  simp only [bind, Except.bind, pure, Except.pure, hlen, hwrap, hblock, hversion, hm, hflags,
    hhandle, hrwf, htoken, hservice]
  simp only [flags, requestFlags_abort, requestFlags_use, Bool.false_eq_true, if_false]

/-- The fixed fields of a request, its flags and a length byte are decoded as such, whatever the
    length byte counts. -/
theorem decodeRequest_fields (r : ItemRequest) (length : UInt8) (rest : Bytes)
    (hrest : length.toNat ≤ rest.length) :
    decodeRequest .lengthFirst (requestFields r ++ [requestFlags r.useAttribInfoInUpdates]
        ++ [length] ++ rest)
      = .ok (some ⟨r.handle, r.rwfVersion, r.token, r.serviceId, r.useAttribInfoInUpdates, 26,
          length.toNat⟩) := by
  let m : Flyweight := ⟨26 + rest.length, 8, 25, 17, 0⟩
  have hargs := m.varDataArgs_lengthFirst
    (requestFields r ++ [requestFlags r.useAttribInfoInUpdates]) rest length (by simp [m])
    (by simp [m]) hrest
  have hrest : 25 + ([length] ++ rest).length = 26 + rest.length := by
    simp only [List.length_append, List.length_cons, List.length_nil]
    omega
  rw [List.append_assoc, decodeRequest_block]
  simp only [hrest]
  rw [← List.append_assoc, hargs]
  simp [bind, Except.bind, pure, Except.pure]

/-- **Whatever its name, a request is decoded as the item request it was encoded from**, with the
    name cut to its length byte. -/
theorem decodeRequest_image (r : ItemRequest) :
    decodeRequest .lengthFirst (requestImage r)
      = .ok (some ⟨r.handle, r.rwfVersion, r.token, r.serviceId, r.useAttribInfoInUpdates, 26,
          r.itemName.length % 256⟩) := by
  have hlength : (UInt8.ofNat r.itemName.length).toNat = r.itemName.length % 256 :=
    UInt8.toNat_ofNat'
  rw [requestImage, decodeRequest_fields r _ _ (hlength ▸ Nat.mod_le _ _), hlength]

/-- The name a worker works on. -/
theorem name_image (r : ItemRequest) (view : RequestView) (h : view.itemName = 26) :
    view.name (requestImage r) = r.itemName.take view.itemNameLength := by
  have hdrop : (requestImage r).drop 26 = r.itemName := List.drop_left' (by simp)
  simp only [RequestView.name, peek, h, hdrop]

end Hitsuji
