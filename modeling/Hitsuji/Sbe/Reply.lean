import Hitsuji.Sbe.Flyweight

set_option autoImplicit false

/-! # The reply message

A worker answers with one SBE `Reply`: the handle and token of the request, and the encoded RSSL
message as variable-length data (`worker_t::SendReply`). The main thread takes it apart again in
`hitsuji_t::OnReply`.

The message is sized by the true payload length, while the schema stores that length in a
`varDataEncoding`, whose length is a `uint8`. -/

namespace Hitsuji

open ByteBuffer

/-- `MAX_MSG_SIZE`, the size of `rssl_buf_`. -/
def maxMsgSize : Nat := 4096

/-- A worker's `rssl_buf_` and `rssl_length_`. -/
structure RsslBuf where
  bytes : Bytes
  length : Nat
  bytes_length : bytes.length = maxMsgSize
  length_le : length ≤ maxMsgSize

/-- The encoded message, `rssl_buf_[0..rssl_length_)`. -/
def RsslBuf.payload (b : RsslBuf) : Bytes :=
  b.bytes.take b.length

@[simp] theorem RsslBuf.payload_length (b : RsslBuf) : b.payload.length = b.length := by
  have hlen := b.bytes_length
  have hle := b.length_le
  simp only [payload, List.length_take]
  omega

/-! ## The generated class -/

namespace Reply

/-- `Reply::sbeBlockLength`. -/
def sbeBlockLength : UInt16 := 12

/-- `Reply::sbeTemplateId`. -/
def sbeTemplateId : UInt16 := 2

/-- `Reply::sbeSchemaId`. -/
def sbeSchemaId : UInt16 := 1

/-- `Reply::sbeSchemaVersion`. -/
def sbeSchemaVersion : UInt16 := 0

/-- `Reply::rsslBufferHeaderSize`. -/
def rsslBufferHeaderSize : Nat := 1

/-- `Reply::wrapForEncode`. -/
def wrapForEncode (offset bufferLength : Nat) : Except Fault Flyweight :=
  Flyweight.wrap offset sbeBlockLength.toNat sbeSchemaVersion.toNat bufferLength

/-- `Reply::wrapForDecode`. -/
def wrapForDecode (offset actingBlockLength actingVersion bufferLength : Nat) :
    Except Fault Flyweight :=
  Flyweight.wrap offset actingBlockLength actingVersion bufferLength

/-- The setter `Reply::handle`. -/
def putHandle (m : Flyweight) (buf : Bytes) (handle : UInt64) : Except Fault Bytes :=
  m.putField buf 0 8 handle.toNat

/-- The setter `Reply::token`. -/
def putToken (m : Flyweight) (buf : Bytes) (token : Int32) : Except Fault Bytes :=
  m.putField buf 8 4 token.toUInt32.toNat

/-- `Reply::putRsslBuffer`. -/
def putRsslBuffer (m : Flyweight) (buf src : Bytes) (length : Nat) :
    Except Fault (Flyweight × Bytes) :=
  m.putVarData buf src length

/-- The getter `Reply::handle`. -/
def handle (m : Flyweight) (buf : Bytes) : Except Fault UInt64 := do
  return UInt64.ofNat (← m.getField buf 0 8)

/-- The getter `Reply::token`. -/
def token (m : Flyweight) (buf : Bytes) : Except Fault Int32 := do
  return (UInt32.ofNat (← m.getField buf 8 4)).toInt32

end Reply

/-! ## Both ends -/

/-- The message `worker_t::SendReply` hands to `zmq_msg_send`. -/
def encodeReply (mem : Nat → UInt8) (handle : UInt64) (token : Int32) (rssl : RsslBuf) :
    Except Fault Bytes := do
  let msg := zmqMsgInitSize mem (MessageHeader.size + Reply.sbeBlockLength.toNat
    + Reply.rsslBufferHeaderSize + rssl.length)
  let hdr ← MessageHeader.wrap 0 msg.length
  let msg ← hdr.put msg Reply.sbeBlockLength Reply.sbeTemplateId Reply.sbeSchemaId
    Reply.sbeSchemaVersion
  let reply ← Reply.wrapForEncode MessageHeader.size msg.length
  let msg ← Reply.putHandle reply msg handle
  let msg ← Reply.putToken reply msg token
  let (_, msg) ← Reply.putRsslBuffer reply msg rssl.bytes rssl.length
  return msg

/-- The arguments `hitsuji_t::OnReply` passes on; the data pointer is an offset. -/
structure ReplyView where
  handle : UInt64
  token : Int32
  rsslBuffer : Nat
  rsslBufferLength : Nat
  deriving DecidableEq

/-- The payload bytes a view refers to. -/
def ReplyView.payload (view : ReplyView) (buffer : Bytes) : Bytes :=
  peek buffer view.rsslBuffer view.rsslBufferLength

/-- `hitsuji_t::OnReply`, up to the call of `provider_t::SendReply`. -/
def decodeReply (order : ArgOrder) (buffer : Bytes) : Except Fault ReplyView := do
  let hdr ← MessageHeader.wrap 0 buffer.length
  let reply ← Reply.wrapForDecode MessageHeader.size (← hdr.blockLength buffer).toNat
    (← hdr.version buffer).toNat buffer.length
  let handle ← Reply.handle reply buffer
  let token ← Reply.token reply buffer
  let (rsslBuffer, rsslBufferLength) ← reply.varDataArgs order buffer
  return ⟨handle, token, rsslBuffer, rsslBufferLength⟩

/-! ## What is on the wire -/

/-- The message header of every reply. -/
def replyHeader : Bytes :=
  MessageHeader.image Reply.sbeBlockLength Reply.sbeTemplateId Reply.sbeSchemaId
    Reply.sbeSchemaVersion

@[simp] theorem replyHeader_length : replyHeader.length = 8 :=
  MessageHeader.image_length _ _ _ _

/-- Header and fixed fields, the first twenty bytes of a reply. -/
def replyBlock (handle : UInt64) (token : Int32) : Bytes :=
  replyHeader ++ leBytes 8 handle.toNat ++ leBytes 4 token.toUInt32.toNat

@[simp] theorem replyBlock_length (handle : UInt64) (token : Int32) :
    (replyBlock handle token).length = 20 := by
  simp [replyBlock]

/-- A reply of `length` bytes: the length is kept in one byte, the payload in full. -/
def replyImage (handle : UInt64) (token : Int32) (length : Nat) (payload : Bytes) : Bytes :=
  replyBlock handle token ++ [UInt8.ofNat length] ++ payload

theorem wrapForEncode_eq (bufferLength : Nat) (h : 20 ≤ bufferLength) :
    Reply.wrapForEncode MessageHeader.size bufferLength = .ok ⟨bufferLength, 8, 20, 12, 0⟩ := by
  have hpos : ¬ 20 > bufferLength := by omega
  simp [Reply.wrapForEncode, Flyweight.wrap, Flyweight.setPosition, MessageHeader.size,
    Reply.sbeBlockLength, Reply.sbeSchemaVersion, hpos]

theorem putHandle_header (m : Flyweight) (raw : Bytes) (handle : UInt64) (hm : m.offset = 8)
    (h : 16 ≤ raw.length) :
    Reply.putHandle m (replyHeader ++ raw.drop 8) handle
      = .ok (replyHeader ++ leBytes 8 handle.toNat ++ raw.drop 16) := by
  rw [Reply.putHandle, m.putField_behind replyHeader (raw.drop 8) 0 8 handle.toNat (by simp [hm])
    (by simp; omega), List.drop_drop]

theorem putToken_header (m : Flyweight) (raw : Bytes) (handle : UInt64) (token : Int32)
    (hm : m.offset = 8) (h : 20 ≤ raw.length) :
    Reply.putToken m (replyHeader ++ leBytes 8 handle.toNat ++ raw.drop 16) token
      = .ok (replyBlock handle token ++ raw.drop 20) := by
  rw [Reply.putToken, m.putField_behind (replyHeader ++ leBytes 8 handle.toNat) (raw.drop 16) 8 4
    token.toUInt32.toNat (by simp [hm]) (by simp; omega), List.drop_drop, replyBlock]

/-- Encoding never faults, and nothing of the uninitialised message memory survives. -/
theorem encodeReply_eq (mem : Nat → UInt8) (handle : UInt64) (token : Int32) (rssl : RsslBuf) :
    encodeReply mem handle token rssl = .ok (replyImage handle token rssl.length rssl.payload) := by
  unfold encodeReply
  obtain ⟨raw, hraw⟩ : ∃ raw, zmqMsgInitSize mem (MessageHeader.size
      + Reply.sbeBlockLength.toNat + Reply.rsslBufferHeaderSize + rssl.length) = raw := ⟨_, rfl⟩
  have hlen : raw.length = 21 + rssl.length := by
    rw [← hraw]
    exact zmqMsgInitSize_length mem _
  have hsrc : rssl.length ≤ rssl.bytes.length := rssl.bytes_length ▸ rssl.length_le
  have hwrap : MessageHeader.wrap 0 raw.length = .ok ⟨0⟩ := if_neg (by omega)
  -- each setter writes right behind the last, so that in the end nothing of `raw` is left
  have hput : MessageHeader.put ⟨0⟩ raw Reply.sbeBlockLength Reply.sbeTemplateId
      Reply.sbeSchemaId Reply.sbeSchemaVersion = .ok (replyHeader ++ raw.drop 8) :=
    MessageHeader.put_front raw _ _ _ _ (by omega)
  have hputLen : (replyHeader ++ raw.drop 8).length = raw.length := by
    simp only [List.length_append, replyHeader_length, List.length_drop]
    omega
  let m : Flyweight := ⟨raw.length, 8, 20, 12, 0⟩
  have hdata := m.putVarData_behind (replyBlock handle token) (raw.drop 20) rssl.bytes rssl.length
    (by simp [m]) (by simp; omega) (by simp [m]; omega) hsrc
  simp only [bind, Except.bind, pure, Except.pure, hraw, hwrap, hput, hputLen,
    wrapForEncode_eq raw.length (by omega), putHandle_header m raw handle rfl (by omega),
    putToken_header m raw handle token rfl (by omega), Reply.putRsslBuffer, hdata, m]
  rfl

/-! ## Reading it back -/

/-- Whatever follows them, the fixed fields of a reply are recovered. -/
theorem decodeReply_block (order : ArgOrder) (handle : UInt64) (token : Int32) (rest : Bytes) :
    decodeReply order (replyBlock handle token ++ rest) = (do
      let m : Flyweight := ⟨20 + rest.length, 8, 20, 12, 0⟩
      let (ptr, length) ← m.varDataArgs order (replyBlock handle token ++ rest)
      return ⟨handle, token, ptr, length⟩) := by
  let m : Flyweight := ⟨20 + rest.length, 8, 20, 12, 0⟩
  have hlen : (replyBlock handle token ++ rest).length = 20 + rest.length := by simp
  have hwrap : MessageHeader.wrap 0 (20 + rest.length) = .ok ⟨0⟩ := if_neg (by omega)
  have hblock : MessageHeader.blockLength ⟨0⟩ (replyBlock handle token ++ rest) = .ok 12 := by
    rw [replyBlock, replyHeader, List.append_assoc, List.append_assoc]
    exact MessageHeader.blockLength_image _ _ _ _ _
  have hversion : MessageHeader.version ⟨0⟩ (replyBlock handle token ++ rest) = .ok 0 := by
    rw [replyBlock, replyHeader, List.append_assoc, List.append_assoc]
    exact MessageHeader.version_image _ _ _ _ _
  have hm : Reply.wrapForDecode MessageHeader.size (12 : UInt16).toNat (0 : UInt16).toNat
      (20 + rest.length) = .ok m := by
    simp [Reply.wrapForDecode, Flyweight.wrap, Flyweight.setPosition, MessageHeader.size, m]
  have hhandle : Reply.handle m (replyBlock handle token ++ rest) = .ok handle := by
    have h := m.getField_middle replyHeader (leBytes 4 token.toUInt32.toNat ++ rest) 0 8
      handle.toNat (by simp [m]) handle.toNat_lt
    rw [replyBlock, List.append_assoc (replyHeader ++ _), Reply.handle, h]
    simp only [bind, Except.bind, pure, Except.pure, UInt64.ofNat_toNat]
  have htoken : Reply.token m (replyBlock handle token ++ rest) = .ok token := by
    have h := m.getField_middle (replyHeader ++ leBytes 8 handle.toNat) rest 8 4
      token.toUInt32.toNat (by simp [m]) token.toUInt32.toNat_lt
    rw [replyBlock, Reply.token, h]
    simp only [bind, Except.bind, pure, Except.pure, UInt32.ofNat_toNat, Int32.toInt32_toUInt32]
  unfold decodeReply
  simp only [bind, Except.bind, pure, Except.pure, hlen, hwrap, hblock, hversion, hm, hhandle,
    htoken, m]

/-- Decoding what was encoded: the payload comes back cut to the length byte. -/
theorem decodeReply_image (handle : UInt64) (token : Int32) (rssl : RsslBuf) :
    decodeReply .lengthFirst (replyImage handle token rssl.length rssl.payload)
      = .ok ⟨handle, token, 21, rssl.length % 256⟩ := by
  let m : Flyweight := ⟨21 + rssl.length, 8, 20, 12, 0⟩
  have hargs := m.varDataArgs_lengthFirst (replyBlock handle token) rssl.payload
    (UInt8.ofNat rssl.length) (by simp [m]) (by simp [m])
    (by simp only [UInt8.toNat_ofNat', RsslBuf.payload_length]; omega)
  have hrest : 20 + ([UInt8.ofNat rssl.length] ++ rssl.payload).length = 21 + rssl.length := by
    simp only [List.length_append, List.length_cons, List.length_nil, RsslBuf.payload_length]
    omega
  rw [replyImage, List.append_assoc, decodeReply_block]
  simp only [hrest]
  rw [← List.append_assoc, hargs]
  simp only [bind, Except.bind, pure, Except.pure, replyBlock_length, UInt8.toNat_ofNat']

/-- What a faithful round trip is: neither side faults, and all four values come back. -/
def ReplyRoundTrips (mem : Nat → UInt8) (handle : UInt64) (token : Int32) (rssl : RsslBuf) : Prop :=
  ∃ msg view, encodeReply mem handle token rssl = .ok msg
    ∧ decodeReply .lengthFirst msg = .ok view
    ∧ view.handle = handle ∧ view.token = token
    ∧ view.rsslBufferLength = rssl.length ∧ view.payload msg = rssl.payload

/-- The decoded payload, for every length a worker can send. -/
theorem payload_image (handle : UInt64) (token : Int32) (rssl : RsslBuf) (n : Nat) :
    ReplyView.payload ⟨handle, token, 21, n⟩ (replyImage handle token rssl.length rssl.payload)
      = rssl.payload.take n := by
  have hdrop : (replyBlock handle token ++ [UInt8.ofNat rssl.length] ++ rssl.payload).drop 21
      = rssl.payload := List.drop_left' (by simp)
  simp only [ReplyView.payload, peek, replyImage, hdrop]

/-- **A reply survives the queue exactly when its length fits the length byte.** -/
theorem replyRoundTrips_iff (mem : Nat → UInt8) (handle : UInt64) (token : Int32)
    (rssl : RsslBuf) : ReplyRoundTrips mem handle token rssl ↔ rssl.length ≤ 255 := by
  unfold ReplyRoundTrips
  constructor
  · rintro ⟨msg, view, henc, hdec, -, -, hlength, -⟩
    rw [encodeReply_eq] at henc
    obtain rfl := Except.ok.inj henc
    rw [decodeReply_image] at hdec
    obtain rfl := Except.ok.inj hdec
    simp only at hlength
    omega
  · intro hle
    have hmod : rssl.length % 256 = rssl.length := Nat.mod_eq_of_lt (by omega)
    refine ⟨_, _, encodeReply_eq mem handle token rssl, decodeReply_image handle token rssl,
      rfl, rfl, hmod, ?_⟩
    rw [payload_image, hmod]
    exact List.take_of_length_le (by simp)

/-- A payload of `n` bytes in a fresh buffer. -/
def RsslBuf.zeros (n : Nat) (h : n ≤ maxMsgSize) : RsslBuf :=
  ⟨List.replicate maxMsgSize 0, n, List.length_replicate, h⟩

/-- The first length that is lost: 256 bytes arrive as none. -/
theorem reply_of_256_bytes_lost :
    ¬ ReplyRoundTrips (fun _ => 0) 0x7f00 5 (RsslBuf.zeros 256 (by decide)) := by
  rintro ⟨msg, view, henc, hdec, -, -, hlength, -⟩
  rw [encodeReply_eq] at henc
  obtain rfl := Except.ok.inj henc
  rw [decodeReply_image] at hdec
  obtain rfl := Except.ok.inj hdec
  exact absurd hlength (by decide)

end Hitsuji
