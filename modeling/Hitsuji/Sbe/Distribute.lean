import Hitsuji.Sbe.Request

set_option autoImplicit false

/-! # What the main thread distributes

Besides the plain item request, the main thread has two more messages for the workers: the overload
of `hitsuji_t::OnRequest` with a view, which puts a repeating group between the fixed fields and the
name, and the abort message of `AbortOneWorker`, of which only the header and the flags are
written. -/

namespace Hitsuji

open ByteBuffer

/-! ## The abort message -/

/-- The message `hitsuji_t::AbortOneWorker` hands to `zmq_msg_send`. -/
def encodeAbort (mem : Nat → UInt8) : Except Fault Bytes := do
  let msg := zmqMsgInitSize mem (MessageHeader.size + Request.sbeBlockLength.toNat)
  let hdr ← MessageHeader.wrap 0 msg.length
  let msg ← hdr.put msg Request.sbeBlockLength Request.sbeTemplateId Request.sbeSchemaId
    Request.sbeSchemaVersion
  let request ← Request.wrapForEncode MessageHeader.size msg.length
  let offset ← Flags.wrap (request.offset + 16) request.bufferLength
  -- `flags ().clear ().abort (true)`
  store msg offset [Flags.setAbort true 0]

/-- The header and the flags byte, around sixteen bytes of whatever the memory held. -/
theorem encodeAbort_eq (mem : Nat → UInt8) :
    ∃ fields, fields.length = 16
      ∧ encodeAbort mem = .ok (requestHeader ++ fields ++ [Flags.setAbort true 0]) := by
  obtain ⟨raw, hraw⟩ : ∃ raw, zmqMsgInitSize mem (MessageHeader.size
      + Request.sbeBlockLength.toNat) = raw := ⟨_, rfl⟩
  have hlen : raw.length = 25 := by
    rw [← hraw]
    exact zmqMsgInitSize_length mem _
  have hfields : ((raw.drop 8).take 16).length = 16 := by
    simp only [List.length_take, List.length_drop, hlen]
    decide
  have hsplit : requestHeader ++ raw.drop 8
      = (requestHeader ++ (raw.drop 8).take 16) ++ (raw.drop 8).drop 16 := by
    rw [List.append_assoc, List.take_append_drop]
  refine ⟨(raw.drop 8).take 16, hfields, ?_⟩
  obtain ⟨hwrap, hput, hputLen, hm⟩ := requestFrame_written raw (by omega)
  rw [hlen] at hwrap hputLen hm
  have hstore := store_behind (requestHeader ++ (raw.drop 8).take 16) ((raw.drop 8).drop 16)
    [Flags.setAbort true 0] 24 (by simp [hfields]) (by simp [hlen])
  have hnothing : ((raw.drop 8).drop 16).drop [Flags.setAbort true 0].length = [] :=
    List.drop_eq_nil_of_le (by simp [hlen])
  rw [hnothing, List.append_nil, ← hsplit] at hstore
  unfold encodeAbort
  simp only [hraw, hlen, bind, Except.bind, hwrap, hput, hputLen, hm,
    show Flags.wrap (8 + 16) 25 = .ok 24 from rfl, hstore]

/-- Whatever the unwritten bytes are, a worker sees the abort flag. -/
theorem decodeRequest_abort (fields : Bytes) (h : fields.length = 16) :
    decodeRequest .lengthFirst (requestHeader ++ fields ++ [Flags.setAbort true 0]) = .ok none := by
  have hlen : (requestHeader ++ fields ++ [Flags.setAbort true 0]).length = 25 := by
    simp [h]
  have hblock : MessageHeader.blockLength ⟨0⟩
      (requestHeader ++ fields ++ [Flags.setAbort true 0]) = .ok 17 := by
    rw [requestHeader, List.append_assoc]
    exact MessageHeader.blockLength_image _ _ _ _ _
  have hversion : MessageHeader.version ⟨0⟩
      (requestHeader ++ fields ++ [Flags.setAbort true 0]) = .ok 0 := by
    rw [requestHeader, List.append_assoc]
    exact MessageHeader.version_image _ _ _ _ _
  have hload := load_middle (requestHeader ++ fields) [Flags.setAbort true 0] [] 24 1
    (by simp [h]) rfl
  rw [List.append_nil] at hload
  have hflags : Request.flags ⟨25, 8, 25, 17, 0⟩
      (requestHeader ++ fields ++ [Flags.setAbort true 0]) = .ok (Flags.setAbort true 0) := by
    simp only [Request.flags, show Flags.wrap (8 + 16) 25 = .ok 24 from rfl, hload, bind,
      Except.bind, pure, Except.pure]
    rfl
  unfold decodeRequest
  simp only [hlen, bind, Except.bind, show MessageHeader.wrap 0 25 = .ok ⟨0⟩ from rfl, hblock,
    hversion, show Request.wrapForDecode MessageHeader.size (17 : UInt16).toNat
      (0 : UInt16).toNat 25 = .ok ⟨25, 8, 25, 17, 0⟩ from rfl, hflags]
  rfl

/-! ## What reaches a worker -/

/-- What `OnTask` makes of a message is the item request it was made from. -/
structure DecodesAs (msg : Bytes) (r : ItemRequest) (view : RequestView) : Prop where
  decoded : decodeRequest .lengthFirst msg = .ok (some view)
  handle : view.handle = r.handle
  rwfVersion : view.rwfVersion = r.rwfVersion
  token : view.token = r.token
  serviceId : view.serviceId = r.serviceId
  useAttribInfoInUpdates : view.useAttribInfoInUpdates = r.useAttribInfoInUpdates
  name : view.name msg = r.itemName

/-- **The messages of the main thread are decoded as intended**: an item request with a name of up
    to 255 bytes fills the buffer that was allocated for it, whatever was in it, and gives back
    every field; an abort message is an abort, whatever was in its buffer. -/
theorem distributed_decodes (r : ItemRequest) (hname : r.itemName.length ≤ 255) :
    (∃ msg view, (∀ mem, encodeRequest mem r = .ok msg)
      ∧ msg.length = MessageHeader.size + Request.sbeBlockLength.toNat
        + Request.itemNameHeaderSize + r.itemName.length
      ∧ DecodesAs msg r view)
    ∧ ∀ mem, ∃ msg, encodeAbort mem = .ok msg
      ∧ msg.length = MessageHeader.size + Request.sbeBlockLength.toNat
      ∧ decodeRequest .lengthFirst msg = .ok none := by
  have hlen : (requestImage r).length = 26 + r.itemName.length := by
    simp only [requestImage, List.length_append, requestFields_length, List.length_cons,
      List.length_nil]
  refine ⟨⟨requestImage r, _, fun mem => encodeRequest_eq mem r, hlen,
    ⟨decodeRequest_image r, rfl, rfl, rfl, rfl, rfl, ?_⟩⟩, fun mem => ?_⟩
  · rw [name_image r _ rfl]
    exact List.take_of_length_le (Nat.le_of_eq (Nat.mod_eq_of_lt (by omega)).symm)
  · obtain ⟨fields, hfields, heq⟩ := encodeAbort_eq mem
    exact ⟨_, heq, by simp [hfields, MessageHeader.size, Request.sbeBlockLength],
      decodeRequest_abort fields hfields⟩

/-- A request for "u" on token 5. -/
def requestForU : ItemRequest :=
  ⟨0x7f00, 0x0e01, 5, 1, [117], true, none⟩

theorem requestForU_decodes :
    ∃ msg view, (∀ mem, encodeRequest mem requestForU = .ok msg)
      ∧ msg.length = MessageHeader.size + Request.sbeBlockLength.toNat
        + Request.itemNameHeaderSize + 1
      ∧ DecodesAs msg requestForU view :=
  (distributed_decodes requestForU (by decide)).1

/-! ## A view -/

/-- `GroupSizeEncoding::wrap`: three bytes, checked against the buffer. -/
def GroupSizeEncoding.wrap (offset bufferLength : Nat) : Except Fault Nat :=
  if offset + 3 > bufferLength then .error .flyweightTooShort else .ok offset

namespace View

/-- `viewCount`, which is `View::wrapForEncode`: the position moves without a check. -/
def wrapForEncode (m : Flyweight) (buf : Bytes) (count : Nat) :
    Except Fault (Flyweight × Bytes) := do
  let offset ← GroupSizeEncoding.wrap m.position m.bufferLength
  let buf ← store buf (offset + 2) [UInt8.ofNat count]
  let buf ← store buf offset (leBytes 2 2)
  return ({ m with position := m.position + 3 }, buf)

/-- `next ().fid (value)`: the bytes behind the entry are wanted too. -/
def putFid (m : Flyweight) (buf : Bytes) (value : Int) : Except Fault (Flyweight × Bytes) :=
  if m.position + 2 ≥ m.bufferLength then .error .groupTooShort
  else do
    let buf ← store buf m.position (leBytes 2 (Int16.ofInt value).toUInt16.toNat)
    return ({ m with position := m.position + 2 }, buf)

/-- The loop over `view_by_fid`. -/
def putFids (m : Flyweight) (buf : Bytes) : List Int → Except Fault (Flyweight × Bytes)
  | [] => .ok (m, buf)
  | fid :: rest => do
      let (m, buf) ← putFid m buf fid
      putFids m buf rest

end View

/-- What the overload of `hitsuji_t::OnRequest` with a view writes into its message. -/
def writeViewRequest (msg : Bytes) (r : ItemRequest) (viewByFid : List Int) :
    Except Fault Bytes := do
  let hdr ← MessageHeader.wrap 0 msg.length
  let msg ← hdr.put msg Request.sbeBlockLength Request.sbeTemplateId Request.sbeSchemaId
    Request.sbeSchemaVersion
  let request ← Request.wrapForEncode MessageHeader.size msg.length
  let msg ← Request.putFields request msg r.handle r.rwfVersion r.token r.serviceId
  let msg ← Request.putFlags request msg false r.useAttribInfoInUpdates
  let (request, msg) ← View.wrapForEncode request msg viewByFid.length
  let (request, msg) ← View.putFids request msg viewByFid
  let (_, msg) ← request.putVarData msg r.itemName r.itemName.length
  return msg

/-- The message of the overload with a view: the size is that of a message without one. -/
def encodeViewRequest (mem : Nat → UInt8) (r : ItemRequest) (viewByFid : List Int) :
    Except Fault Bytes :=
  writeViewRequest (zmqMsgInitSize mem (MessageHeader.size + Request.sbeBlockLength.toNat
    + Request.itemNameHeaderSize + r.itemName.length)) r viewByFid

/-! ## A view does not fit -/

theorem bind_eq_ok {ε α β : Type} (x : Except ε α) (f : α → Except ε β) (b : β)
    (h : (x >>= f) = .ok b) : ∃ a, x = .ok a ∧ f a = .ok b := by
  cases x with
  | error e => exact absurd h (by simp [bind, Except.bind])
  | ok a => exact ⟨a, rfl, h⟩

theorem setPosition_fits (m m' : Flyweight) (position : Nat)
    (h : m.setPosition position = .ok m') :
    position ≤ m.bufferLength ∧ m' = { m with position := position } := by
  unfold Flyweight.setPosition at h
  split at h
  · exact absurd h (by simp)
  · next hle => exact ⟨Nat.le_of_not_lt hle, (Except.ok.inj h).symm⟩

theorem wrapForEncode_position (m m' : Flyweight) (buf buf' : Bytes) (count : Nat)
    (h : View.wrapForEncode m buf count = .ok (m', buf')) :
    m'.position = m.position + 3 ∧ m'.bufferLength = m.bufferLength := by
  obtain ⟨offset, -, h⟩ := bind_eq_ok _ _ _ h
  obtain ⟨buf₁, -, h⟩ := bind_eq_ok _ _ _ h
  obtain ⟨buf₂, -, h⟩ := bind_eq_ok _ _ _ h
  obtain ⟨rfl, -⟩ := Prod.mk.inj (Except.ok.inj h)
  exact ⟨rfl, rfl⟩

/-- Every field id moves the position by two. -/
theorem putFids_position (viewByFid : List Int) (m m' : Flyweight) (buf buf' : Bytes)
    (h : View.putFids m buf viewByFid = .ok (m', buf')) :
    m'.position = m.position + 2 * viewByFid.length ∧ m'.bufferLength = m.bufferLength := by
  induction viewByFid generalizing m buf with
  | nil =>
      obtain ⟨rfl, -⟩ := Prod.mk.inj (Except.ok.inj h)
      exact ⟨rfl, rfl⟩
  | cons fid rest ih =>
      obtain ⟨⟨m₁, buf₁⟩, hfid, h⟩ := bind_eq_ok _ _ _ h
      unfold View.putFid at hfid
      split at hfid
      · exact absurd hfid (by simp)
      obtain ⟨buf₂, -, hfid⟩ := bind_eq_ok _ _ _ hfid
      obtain ⟨rfl, -⟩ := Prod.mk.inj (Except.ok.inj hfid)
      obtain ⟨hpos, hlen⟩ := ih _ _ h
      refine ⟨hpos.trans ?_, hlen⟩
      rw [List.length_cons]
      change m.position + 2 + 2 * rest.length = _
      omega

theorem putVarData_fits (m m' : Flyweight) (buf buf' src : Bytes) (length : Nat)
    (h : m.putVarData buf src length = .ok (m', buf')) :
    m.position + 1 + length ≤ m.bufferLength := by
  obtain ⟨buf₁, -, h⟩ := bind_eq_ok _ _ _ h
  obtain ⟨m₁, hone, h⟩ := bind_eq_ok _ _ _ h
  obtain ⟨m₂, htwo, -⟩ := bind_eq_ok _ _ _ h
  obtain ⟨-, rfl⟩ := setPosition_fits m m₁ _ hone
  exact (setPosition_fits _ m₂ _ htwo).1

/-- The group takes three bytes and two for each field id. -/
theorem writeViewRequest_fits (msg out : Bytes) (r : ItemRequest) (viewByFid : List Int)
    (h : writeViewRequest msg r viewByFid = .ok out) :
    29 + 2 * viewByFid.length + r.itemName.length ≤ msg.length := by
  obtain ⟨hdr, hwrap, h⟩ := bind_eq_ok _ _ _ h
  obtain ⟨msg₁, hput, h⟩ := bind_eq_ok _ _ _ h
  obtain ⟨request, hrequest, h⟩ := bind_eq_ok _ _ _ h
  obtain ⟨msg₂, -, h⟩ := bind_eq_ok _ _ _ h
  obtain ⟨msg₃, -, h⟩ := bind_eq_ok _ _ _ h
  obtain ⟨⟨request₁, msg₄⟩, hgroup, h⟩ := bind_eq_ok _ _ _ h
  obtain ⟨⟨request₂, msg₅⟩, hfids, h⟩ := bind_eq_ok _ _ _ h
  obtain ⟨⟨request₃, msg₆⟩, hname, -⟩ := bind_eq_ok _ _ _ h
  have hroom : 8 ≤ msg.length := by
    unfold MessageHeader.wrap at hwrap
    split at hwrap
    · exact absurd hwrap (by simp)
    · next hle => omega
  obtain rfl : hdr = ⟨0⟩ := by
    rw [MessageHeader.wrap, if_neg (by omega)] at hwrap
    exact (Except.ok.inj hwrap).symm
  have hlen : msg₁.length = msg.length := by
    rw [MessageHeader.put_front msg _ _ _ _ hroom] at hput
    rw [← Except.ok.inj hput, List.length_append, MessageHeader.image_length, List.length_drop]
    omega
  obtain ⟨-, rfl⟩ := setPosition_fits _ request _ hrequest
  obtain ⟨hpos₁, hlen₁⟩ := wrapForEncode_position _ _ _ _ _ hgroup
  obtain ⟨hpos₂, hlen₂⟩ := putFids_position viewByFid _ _ _ _ hfids
  have hfits := putVarData_fits _ _ _ _ _ _ hname
  rw [hpos₂, hlen₂, hpos₁, hlen₁, hlen] at hfits
  simp only [MessageHeader.size, show Request.sbeBlockLength.toNat = 17 from rfl] at hfits
  omega

/-- The message of the overload with a view has no room for the view. -/
theorem encodeViewRequest_faults (mem : Nat → UInt8) (r : ItemRequest) (viewByFid : List Int)
    (msg : Bytes) : encodeViewRequest mem r viewByFid ≠ .ok msg := by
  intro hmsg
  have hfits := writeViewRequest_fits _ msg r viewByFid hmsg
  simp only [zmqMsgInitSize_length, MessageHeader.size,
    show Request.sbeBlockLength.toNat = 17 from rfl, Request.itemNameHeaderSize] at hfits
  omega

/-- The message for a view fits, and a worker makes the same of it as of the message without one. -/
def ViewAgrees (mem : Nat → UInt8) (r : ItemRequest) (viewByFid : List Int) : Prop :=
  ∃ msg msg' view view', encodeViewRequest mem r viewByFid = .ok msg
    ∧ encodeRequest mem r = .ok msg'
    ∧ decodeRequest .lengthFirst msg = .ok (some view)
    ∧ decodeRequest .lengthFirst msg' = .ok (some view')
    ∧ (view.handle, view.rwfVersion, view.token, view.serviceId, view.useAttribInfoInUpdates)
      = (view'.handle, view'.rwfVersion, view'.token, view'.serviceId,
        view'.useAttribInfoInUpdates)
    ∧ view.name msg = view'.name msg'

/-- **A view never fits**: for no list of field ids, the empty one included, and no name does the
    overload with a view get as far as a message. -/
theorem view_never_agrees (mem : Nat → UInt8) (r : ItemRequest) (viewByFid : List Int) :
    ¬ ViewAgrees mem r viewByFid := by
  rintro ⟨msg, -, -, -, hmsg, -⟩
  exact encodeViewRequest_faults mem r viewByFid msg hmsg

/-- Without any field id and with a name of one byte, the group header is already too long. -/
theorem emptyView_faults :
    encodeViewRequest (fun _ => 0) requestForU [] = .error .flyweightTooShort
      ∧ ¬ ViewAgrees (fun _ => 0) requestForU [] := by
  have hfault : encodeViewRequest (fun _ => 0) requestForU [] = .error .flyweightTooShort := rfl
  refine ⟨hfault, ?_⟩
  rintro ⟨msg, -, -, -, hmsg, -⟩
  rw [hfault] at hmsg
  exact absurd hmsg (by simp)

/-! ## Nor would it be understood -/

theorem putFids_behind (viewByFid : List Int) (m : Flyweight) (pre rest : Bytes)
    (hpos : m.position = pre.length) (hbuf : m.bufferLength = pre.length + rest.length)
    (hrest : 2 * viewByFid.length < rest.length) :
    ∃ fids, fids.length = 2 * viewByFid.length
      ∧ View.putFids m (pre ++ rest) viewByFid
        = .ok ({ m with position := pre.length + 2 * viewByFid.length },
          pre ++ fids ++ rest.drop (2 * viewByFid.length)) := by
  induction viewByFid generalizing m pre rest with
  | nil =>
      refine ⟨[], rfl, ?_⟩
      obtain ⟨bufferLength, offset, position, actingBlockLength, actingVersion⟩ := m
      obtain rfl : position = pre.length := hpos
      simp [View.putFids]
  | cons fid viewByFid ih =>
      rw [List.length_cons] at hrest
      obtain ⟨xs, hxs⟩ : ∃ xs, leBytes 2 (Int16.ofInt fid).toUInt16.toNat = xs := ⟨_, rfl⟩
      have hxsLen : xs.length = 2 := by
        rw [← hxs, leBytes_length]
      have hstore := store_behind pre rest xs m.position hpos (by omega)
      obtain ⟨fids, hfids, heq⟩ := ih { m with position := m.position + 2 } (pre ++ xs)
        (rest.drop 2) (by simp [hpos, hxsLen]) (by simp [hbuf, hxsLen]; omega) (by simp; omega)
      refine ⟨xs ++ fids, by simp [hfids, hxsLen]; omega, ?_⟩
      rw [hxsLen] at hstore
      simp only [View.putFids, View.putFid,
        if_neg (show ¬ m.position + 2 ≥ m.bufferLength by omega), bind, Except.bind, pure,
        Except.pure, hxs, hstore, heq]
      simp only [List.length_append, hxsLen, List.length_cons, List.drop_drop, List.append_assoc,
        Except.ok.injEq, Prod.mk.injEq, Flyweight.mk.injEq, true_and, and_true]
      exact ⟨by omega, by rw [show 2 + 2 * viewByFid.length = 2 * (viewByFid.length + 1) by omega]⟩

/-- The header of the group over the next three bytes. -/
theorem wrapForEncode_behind (m : Flyweight) (pre rest : Bytes) (count : Nat)
    (hpos : m.position = pre.length) (hbuf : m.bufferLength = pre.length + rest.length)
    (hrest : 3 ≤ rest.length) :
    View.wrapForEncode m (pre ++ rest) count
      = .ok ({ m with position := pre.length + 3 },
        pre ++ [2, 0, UInt8.ofNat count] ++ rest.drop 3) := by
  obtain ⟨a, b, c, rest, rfl⟩ : ∃ a b c rest', rest = a :: b :: c :: rest' := by
    match rest, hrest with
    | a :: b :: c :: rest, _ => exact ⟨a, b, c, rest, rfl⟩
  have hwrap : GroupSizeEncoding.wrap pre.length m.bufferLength = .ok pre.length :=
    if_neg (by omega)
  -- the count is written first, behind the two bytes of the block length
  have hcount := store_behind (pre ++ [a, b]) (c :: rest) [UInt8.ofNat count] (pre.length + 2)
    (by simp) (by simp)
  have hblock := store_behind pre ([a, b] ++ [UInt8.ofNat count] ++ rest) (leBytes 2 2) pre.length
    rfl (by simp)
  simp only [List.append_assoc, List.cons_append, List.nil_append, List.length_cons,
    List.length_nil, List.drop_succ_cons, List.drop_zero, Nat.zero_add, leBytes_length]
    at hcount hblock
  simp only [View.wrapForEncode, hwrap, bind, Except.bind, pure, Except.pure, hcount, hblock, hpos]
  simp [leBytes]

/-- Given the room, the message would be written, but a worker does not expect the group: it reads
    the size of its entries as the length of the name. -/
theorem roomyView_misread (raw : Bytes) (r : ItemRequest) (viewByFid : List Int)
    (hraw : raw.length = 29 + 2 * viewByFid.length + r.itemName.length) :
    ∃ msg view, writeViewRequest raw r viewByFid = .ok msg
      ∧ decodeRequest .lengthFirst msg = .ok (some view)
      ∧ view.name msg = [0, UInt8.ofNat viewByFid.length] := by
  let m : Flyweight := ⟨raw.length, 8, 25, 17, 0⟩
  let pre := requestFields r ++ [requestFlags r.useAttribInfoInUpdates]
  let count := UInt8.ofNat viewByFid.length
  have hpre : pre.length = 25 := by simp [pre]
  obtain ⟨hwrap, hput, hputLen, hm⟩ := requestFrame_written raw (by omega)
  rw [show (⟨raw.length, 8, 25, 17, 0⟩ : Flyweight) = m from rfl] at hm
  have hgroup := wrapForEncode_behind m pre (raw.drop 25) viewByFid.length (by simp [m, hpre])
    (by simp [m, hpre]; omega) (by simp; omega)
  obtain ⟨fids, hfidsLen, hfids⟩ := putFids_behind viewByFid { m with position := 28 }
    (pre ++ [2, 0, count]) ((raw.drop 25).drop 3) (by simp [hpre]) (by simp [m, hpre]; omega)
    (by simp; omega)
  have hname := Flyweight.putVarData_behind { m with position := 28 + 2 * viewByFid.length }
    (pre ++ [2, 0, count] ++ fids) (((raw.drop 25).drop 3).drop (2 * viewByFid.length)) r.itemName
    r.itemName.length (by simp [hpre, hfidsLen]; omega) (by simp; omega)
    (by simp [m, hpre, hfidsLen]; omega) (Nat.le_refl _)
  let rest := [0, count] ++ fids ++ [UInt8.ofNat r.itemName.length] ++ r.itemName
  have hmsg : writeViewRequest raw r viewByFid = .ok (pre ++ [2] ++ rest) := by
    have hshape : pre ++ [2, 0, count] ++ fids ++ [UInt8.ofNat r.itemName.length]
        ++ r.itemName.take r.itemName.length = pre ++ [2] ++ rest := by
      simp [rest, List.take_length]
    rw [hshape] at hname
    simp only [hpre, List.length_append, List.length_cons, List.length_nil, Nat.reduceAdd]
      at hgroup hfids
    unfold writeViewRequest
    simp only [bind, Except.bind, pure, Except.pure, hwrap, hput, hputLen, hm,
      putFields_header m raw r rfl (by omega), putFlags_header m raw r rfl rfl (by omega),
      show requestFields r ++ [requestFlags r.useAttribInfoInUpdates] = pre from rfl, hgroup]
    rw [show UInt8.ofNat viewByFid.length = count from rfl, hfids]
    simp only [hname]
  refine ⟨_, _, hmsg, decodeRequest_fields r 2 rest (by simp [rest]), ?_⟩
  have hdrop : (pre ++ [2] ++ rest).drop 26 = rest := List.drop_left' (by simp [hpre])
  simp only [RequestView.name, peek]
  rw [hdrop]
  rfl

end Hitsuji
