import Hitsuji.Lib.ByteBuffer

set_option autoImplicit false

/-! # Simple Binary Encoding flyweights

The generated SBE classes (`include/sbe/hitsuji`) are windows onto a message buffer: a base offset,
a running position that variable-length data advances, and the length of the buffer against which
that position is checked. Fixed fields are read and written through raw pointers, so only the
position is bounds checked by the code; a raw access outside the buffer is `Fault.outOfBounds`
here.

The buffer itself is threaded through every operation, because the header and the message flyweight
of one message share it. -/

namespace Hitsuji

open ByteBuffer

/-- What an SBE accessor can raise, and the accesses that would leave the buffer. -/
inductive Fault where
  | bufferTooShort
  | flyweightTooShort
  | groupTooShort
  | outOfBounds
  deriving DecidableEq

/-! ## Raw memory -/

/-- Store `xs` at `off`. -/
def store (buf : Bytes) (off : Nat) (xs : Bytes) : Except Fault Bytes :=
  if off + xs.length ≤ buf.length then .ok (poke buf off xs) else .error .outOfBounds

/-- Load `n` bytes from `off`. -/
def load (buf : Bytes) (off n : Nat) : Except Fault Bytes :=
  if off + n ≤ buf.length then .ok (peek buf off n) else .error .outOfBounds

/-- `zmq_msg_init_size`: a message of `n` bytes holding whatever was in memory. -/
def zmqMsgInitSize (mem : Nat → UInt8) (n : Nat) : Bytes :=
  (List.range n).map mem

@[simp] theorem zmqMsgInitSize_length (mem : Nat → UInt8) (n : Nat) :
    (zmqMsgInitSize mem n).length = n := by
  simp [zmqMsgInitSize]

/-- Storing right behind the bytes written so far. -/
theorem store_behind (pre rest xs : Bytes) (off : Nat) (hoff : off = pre.length)
    (h : xs.length ≤ rest.length) :
    store (pre ++ rest) off xs = .ok ((pre ++ xs) ++ rest.drop xs.length) := by
  rw [store, if_pos (by rw [List.length_append]; omega), poke_behind pre rest xs off hoff]

/-- Loading a known stretch of the buffer. -/
theorem load_middle (pre xs post : Bytes) (off n : Nat) (hoff : off = pre.length)
    (hn : n = xs.length) : load (pre ++ xs ++ post) off n = .ok xs := by
  rw [load, if_pos (by simp only [List.length_append]; omega),
    peek_append_middle pre xs post off n hoff hn]

/-! ## Message header -/

/-- `MessageHeader`: only its offset matters, every field access goes through the buffer. -/
structure MessageHeader where
  offset : Nat
  deriving DecidableEq

namespace MessageHeader

/-- `MessageHeader::size`. -/
def size : Nat := 8

/-- `MessageHeader::wrap`. -/
def wrap (offset bufferLength : Nat) : Except Fault MessageHeader :=
  if offset + 8 > bufferLength then .error .flyweightTooShort else .ok ⟨offset⟩

/-- The four setters are chained in this order by every encoder. -/
def put (h : MessageHeader) (buf : Bytes) (blockLength templateId schemaId version : UInt16) :
    Except Fault Bytes := do
  let buf ← store buf (h.offset + 0) (leBytes 2 blockLength.toNat)
  let buf ← store buf (h.offset + 2) (leBytes 2 templateId.toNat)
  let buf ← store buf (h.offset + 4) (leBytes 2 schemaId.toNat)
  store buf (h.offset + 6) (leBytes 2 version.toNat)

/-- `MessageHeader::blockLength`. -/
def blockLength (h : MessageHeader) (buf : Bytes) : Except Fault UInt16 := do
  return UInt16.ofNat (leNat (← load buf (h.offset + 0) 2))

/-- `MessageHeader::version`. -/
def version (h : MessageHeader) (buf : Bytes) : Except Fault UInt16 := do
  return UInt16.ofNat (leNat (← load buf (h.offset + 6) 2))

/-- The eight bytes the setters leave behind. -/
def image (blockLength templateId schemaId version : UInt16) : Bytes :=
  leBytes 2 blockLength.toNat ++ leBytes 2 templateId.toNat ++ leBytes 2 schemaId.toNat
    ++ leBytes 2 version.toNat

@[simp] theorem image_length (b t s v : UInt16) : (image b t s v).length = 8 := by
  simp [image]

/-- Writing a header over the front of a fresh buffer. -/
theorem put_front (rest : Bytes) (b t s v : UInt16) (h : 8 ≤ rest.length) :
    put ⟨0⟩ rest b t s v = .ok (image b t s v ++ rest.drop 8) := by
  have h0 := store_behind [] rest (leBytes 2 b.toNat) 0 rfl (by simp; omega)
  have h1 := store_behind (leBytes 2 b.toNat) (rest.drop 2) (leBytes 2 t.toNat) 2 (by simp)
    (by simp; omega)
  have h2 := store_behind (leBytes 2 b.toNat ++ leBytes 2 t.toNat) (rest.drop 4)
    (leBytes 2 s.toNat) 4 (by simp) (by simp; omega)
  have h3 := store_behind (leBytes 2 b.toNat ++ leBytes 2 t.toNat ++ leBytes 2 s.toNat)
    (rest.drop 6) (leBytes 2 v.toNat) 6 (by simp) (by simp; omega)
  simp only [leBytes_length, List.nil_append, List.drop_drop, Nat.reduceAdd] at h0 h1 h2 h3
  simp only [put, Nat.zero_add, h0, h1, h2, h3, image, bind, Except.bind]

theorem leNat_toUInt16 (x : UInt16) : UInt16.ofNat (leNat (leBytes 2 x.toNat)) = x := by
  rw [leNat_leBytes_of_lt 2 x.toNat (by simpa using x.toNat_lt), UInt16.ofNat_toNat]

/-- Reading back the fields a decoder asks for. -/
theorem blockLength_image (b t s v : UInt16) (rest : Bytes) :
    blockLength ⟨0⟩ (image b t s v ++ rest) = .ok b := by
  have h := load_middle [] (leBytes 2 b.toNat)
    (leBytes 2 t.toNat ++ leBytes 2 s.toNat ++ leBytes 2 v.toNat ++ rest) 0 2 rfl (by simp)
  simp only [List.nil_append, ← List.append_assoc] at h
  simp only [blockLength, image, Nat.zero_add, h, bind, Except.bind, pure, Except.pure,
    leNat_toUInt16]

theorem version_image (b t s v : UInt16) (rest : Bytes) :
    version ⟨0⟩ (image b t s v ++ rest) = .ok v := by
  have h := load_middle (leBytes 2 b.toNat ++ leBytes 2 t.toNat ++ leBytes 2 s.toNat)
    (leBytes 2 v.toNat) rest 6 2 (by simp) (by simp)
  simp only [version, image, Nat.zero_add, h, bind, Except.bind, pure, Except.pure, leNat_toUInt16]

end MessageHeader

/-! ## Message body -/

/-- The state shared by the generated `Request` and `Reply` classes. -/
structure Flyweight where
  bufferLength : Nat
  offset : Nat
  position : Nat
  actingBlockLength : Nat
  actingVersion : Nat
  deriving DecidableEq

namespace Flyweight

/-- `position (sbe_uint64_t)`: the only bounds check of the message classes. -/
def setPosition (m : Flyweight) (position : Nat) : Except Fault Flyweight :=
  if position > m.bufferLength then .error .bufferTooShort else .ok { m with position := position }

/-- `wrapForEncode` and `wrapForDecode` differ only in where block length and version come from. -/
def wrap (offset actingBlockLength actingVersion bufferLength : Nat) : Except Fault Flyweight :=
  setPosition ⟨bufferLength, offset, 0, actingBlockLength, actingVersion⟩
    (offset + actingBlockLength)

/-- A setter of a fixed field of `w` bytes. -/
def putField (m : Flyweight) (buf : Bytes) (fieldOffset w value : Nat) : Except Fault Bytes :=
  store buf (m.offset + fieldOffset) (leBytes w value)

/-- A getter of a fixed field of `w` bytes. -/
def getField (m : Flyweight) (buf : Bytes) (fieldOffset w : Nat) : Except Fault Nat := do
  return leNat (← load buf (m.offset + fieldOffset) w)

/-- `putItemName` and `putRsslBuffer`: a one byte length, cast down to `sbe_uint8_t`, then the
    data. The position advances by the full length. -/
def putVarData (m : Flyweight) (buf src : Bytes) (length : Nat) :
    Except Fault (Flyweight × Bytes) := do
  let lengthPosition := m.position
  -- the cast to `sbe_uint8_t`
  let buf ← store buf lengthPosition [UInt8.ofNat length]
  let m ← m.setPosition (lengthPosition + 1)
  let pos := m.position
  let m ← m.setPosition (m.position + length)
  let data ← load src 0 length
  let buf ← store buf pos data
  return (m, buf)

/-- `itemNameLength` and `rsslBufferLength`: the length byte at the current position. -/
def varDataLength (m : Flyweight) (buf : Bytes) : Except Fault Nat := do
  return leNat (← load buf m.position 1)

/-- `itemName` and `rsslBuffer`: a pointer to the data; moves the position past it. -/
def varData (m : Flyweight) (buf : Bytes) : Except Fault (Flyweight × Nat) := do
  let fieldPtr := m.position + 1
  let m ← m.setPosition (m.position + 1 + leNat (← load buf m.position 1))
  return (m, fieldPtr)

/-- A field setter writing right behind the bytes written so far. -/
theorem putField_behind (m : Flyweight) (pre rest : Bytes) (fieldOffset w value : Nat)
    (hoff : m.offset + fieldOffset = pre.length) (h : w ≤ rest.length) :
    m.putField (pre ++ rest) fieldOffset w value
      = .ok ((pre ++ leBytes w value) ++ rest.drop w) := by
  rw [putField, store_behind pre rest (leBytes w value) _ hoff (by simpa using h), leBytes_length]

/-- A field getter reads what a setter of the same width left there. -/
theorem getField_middle (m : Flyweight) (pre post : Bytes) (fieldOffset w value : Nat)
    (hoff : m.offset + fieldOffset = pre.length) (hv : value < 256 ^ w) :
    m.getField (pre ++ leBytes w value ++ post) fieldOffset w = .ok value := by
  rw [getField, load_middle pre (leBytes w value) post _ w hoff (by simp)]
  simp only [bind, Except.bind, pure, Except.pure, leNat_leBytes_of_lt w value hv]

/-- The data is stored in full, behind a length that is only kept modulo 256. -/
theorem putVarData_behind (m : Flyweight) (pre rest src : Bytes) (length : Nat)
    (hpos : m.position = pre.length) (hrest : rest.length = 1 + length)
    (hbuf : m.bufferLength = pre.length + rest.length) (hsrc : length ≤ src.length) :
    m.putVarData (pre ++ rest) src length
      = .ok ({ m with position := pre.length + 1 + length },
          pre ++ [UInt8.ofNat length] ++ src.take length) := by
  have hlen := store_behind pre rest [UInt8.ofNat length] pre.length rfl (by simp; omega)
  have hload : load src 0 length = .ok (src.take length) := by
    rw [load, if_pos (by omega), peek, List.drop_zero]
  have hdata := store_behind (pre ++ [UInt8.ofNat length]) (rest.drop 1) (src.take length)
    (pre.length + 1) (by simp) (by simp; omega)
  have hnil : (rest.drop 1).drop (src.take length).length = [] := by
    apply List.drop_eq_nil_of_le
    simp only [List.length_take, List.length_drop]
    omega
  rw [hnil, List.append_nil] at hdata
  simp only [List.length_cons, List.length_nil, Nat.zero_add] at hlen
  simp only [putVarData, hpos, hlen, setPosition, hbuf, hload, hdata, bind, Except.bind, pure,
    Except.pure, if_neg (show ¬ pre.length + 1 > pre.length + rest.length by omega),
    if_neg (show ¬ pre.length + 1 + length > pre.length + rest.length by omega)]

end Flyweight

/-- C++ leaves the order in which the two arguments of one call are evaluated unspecified. -/
inductive ArgOrder where
  /-- the length accessor runs before the data accessor advances the position -/
  | lengthFirst
  /-- the data accessor has already advanced when the length is read -/
  | dataFirst
  deriving DecidableEq

/-- The pointer and length of a variable-length field, as a call passing both receives them. -/
def Flyweight.varDataArgs (order : ArgOrder) (m : Flyweight) (buf : Bytes) :
    Except Fault (Nat × Nat) :=
  match order with
  | .lengthFirst => do
      let length ← m.varDataLength buf
      let (_, ptr) ← m.varData buf
      return (ptr, length)
  | .dataFirst => do
      let (m, ptr) ← m.varData buf
      let length ← m.varDataLength buf
      return (ptr, length)

/-- Read in schema order, the arguments are the byte behind the length and the length byte. -/
theorem Flyweight.varDataArgs_lengthFirst (m : Flyweight) (pre rest : Bytes) (b : UInt8)
    (hpos : m.position = pre.length) (hbuf : m.bufferLength = pre.length + 1 + rest.length)
    (hb : b.toNat ≤ rest.length) :
    m.varDataArgs .lengthFirst (pre ++ [b] ++ rest) = .ok (pre.length + 1, b.toNat) := by
  have hload := load_middle pre [b] rest pre.length 1 rfl rfl
  have hle : leNat [b] = b.toNat := by simp [leNat]
  simp only [varDataArgs, varDataLength, varData, setPosition, hpos, hbuf, hload, hle, bind,
    Except.bind, pure, Except.pure,
    if_neg (show ¬ pre.length + 1 + b.toNat > pre.length + 1 + rest.length by omega)]

/-- With the position moved first, the length is the byte behind the data, if there is one. -/
theorem Flyweight.varDataArgs_dataFirst (m : Flyweight) (pre rest : Bytes) (b : UInt8)
    (hpos : m.position = pre.length) (hbuf : m.bufferLength = pre.length + 1 + rest.length)
    (hb : b.toNat ≤ rest.length) :
    m.varDataArgs .dataFirst (pre ++ [b] ++ rest)
      = (match rest[b.toNat]? with
        | some c => .ok (pre.length + 1, c.toNat)
        | none => .error .outOfBounds) := by
  have hload := load_middle pre [b] rest pre.length 1 rfl rfl
  have hle : ∀ c : UInt8, leNat [c] = c.toNat := by simp [leNat]
  have hbehind : load (pre ++ [b] ++ rest) (pre.length + 1 + b.toNat) 1
      = (match rest[b.toNat]? with
        | some c => .ok [c]
        | none => .error .outOfBounds) := by
    cases hc : rest[b.toNat]? with
    | some c =>
        obtain ⟨hlt, rfl⟩ := List.getElem?_eq_some_iff.mp hc
        have hsplit : pre ++ [b] ++ rest
            = (pre ++ [b] ++ rest.take b.toNat) ++ [rest[b.toNat]] ++ rest.drop (b.toNat + 1) := by
          simp
        rw [hsplit]
        exact load_middle _ _ _ _ _ (by simp; omega) rfl
    | none =>
        have hend := List.getElem?_eq_none_iff.mp hc
        exact if_neg (by simp; omega)
  simp only [varDataArgs, varDataLength, varData, setPosition, hpos, hbuf, hload, hle, bind,
    Except.bind, pure, Except.pure, hbehind,
    if_neg (show ¬ pre.length + 1 + b.toNat > pre.length + 1 + rest.length by omega)]
  cases rest[b.toNat]? with
  | some c => simp [hle]
  | none => rfl

end Hitsuji
