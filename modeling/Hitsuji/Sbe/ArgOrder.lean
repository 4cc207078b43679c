import Hitsuji.Sbe.Reply
import Hitsuji.Sbe.Request

set_option autoImplicit false

/-! # Decoding in either order

`OnTask` and `OnReply` pass the data accessor and the length accessor of one field as the two
arguments of a call. The first moves the read position and the second reads at it, so that a
compiler that evaluates them left to right takes the byte behind the data for the length. For
shorter data than 256 bytes there is no such byte. -/

namespace Hitsuji

open ByteBuffer

/-! ## A field in either order -/

/-- The byte that a position moved by the length byte of `data` points at is that length byte. -/
def EndsAsItBegins (data : Bytes) : Prop :=
  data[data.length % 256]? = some (UInt8.ofNat data.length)

instance (data : Bytes) : Decidable (EndsAsItBegins data) :=
  inferInstanceAs (Decidable (_ = _))

/-- What fits the length byte has nothing behind it. -/
theorem not_endsAsItBegins (data : Bytes) (h : data.length ≤ 255) : ¬ EndsAsItBegins data := by
  intro hbyte
  have hmod : data.length % 256 = data.length := Nat.mod_eq_of_lt (by omega)
  rw [EndsAsItBegins, hmod, List.getElem?_eq_none (Nat.le_refl _)] at hbyte
  exact absurd hbyte (by simp)

section

variable (m : Flyweight) (pre data : Bytes)

/-- A field from its length byte on, behind `pre`. -/
def varDataImage : Bytes :=
  pre ++ [UInt8.ofNat data.length] ++ data

/-- Both orders give the pointer behind the length byte, and what the length byte says, exactly for
    data that ends as it begins. -/
theorem varDataArgs_order (hpos : m.position = pre.length)
    (hbuf : m.bufferLength = pre.length + 1 + data.length) :
    m.varDataArgs .lengthFirst (varDataImage pre data) = .ok (pre.length + 1, data.length % 256)
      ∧ (m.varDataArgs .dataFirst (varDataImage pre data)
          = .ok (pre.length + 1, data.length % 256) ↔ EndsAsItBegins data) := by
  have hbyte : (UInt8.ofNat data.length).toNat = data.length % 256 := UInt8.toNat_ofNat'
  have hle : (UInt8.ofNat data.length).toNat ≤ data.length := hbyte ▸ Nat.mod_le _ _
  rw [varDataImage, m.varDataArgs_lengthFirst pre data _ hpos hbuf hle,
    m.varDataArgs_dataFirst pre data _ hpos hbuf hle, hbyte, EndsAsItBegins]
  refine ⟨rfl, ?_⟩
  cases data[data.length % 256]? with
  | none => exact ⟨nofun, nofun⟩
  | some c =>
      rw [Except.ok.injEq, Prod.mk.injEq, Option.some.injEq, ← hbyte, UInt8.toNat_inj]
      exact and_iff_right rfl

/-- The same of a decoder that hands the two on in a view. -/
theorem decode_order {V : Type} (decode : ArgOrder → Except Fault V) (view : Nat → Nat → V)
    (hview : ∀ n n', view (pre.length + 1) n = view (pre.length + 1) n' → n = n')
    (hdecode : ∀ order, decode order = (do
      let (ptr, length) ← m.varDataArgs order (varDataImage pre data)
      return view ptr length))
    (hpos : m.position = pre.length) (hbuf : m.bufferLength = pre.length + 1 + data.length)
    (v : V) :
    (∀ order, decode order = .ok v)
      ↔ v = view (pre.length + 1) (data.length % 256) ∧ EndsAsItBegins data := by
  obtain ⟨hfirst, hlast⟩ := varDataArgs_order m pre data hpos hbuf
  have hlengthFirst : decode .lengthFirst = .ok (view (pre.length + 1) (data.length % 256)) := by
    rw [hdecode, hfirst]
    rfl
  rw [← hlast]
  constructor
  · intro h
    obtain rfl := Except.ok.inj ((h .lengthFirst).symm.trans hlengthFirst)
    refine ⟨rfl, ?_⟩
    have hdataFirst := (hdecode .dataFirst).symm.trans (h .dataFirst)
    have hbyte : (UInt8.ofNat data.length).toNat ≤ data.length := by
      rw [UInt8.toNat_ofNat']
      exact Nat.mod_le _ _
    rw [varDataImage, m.varDataArgs_dataFirst pre data _ hpos hbuf hbyte] at hdataFirst ⊢
    cases hbehind : data[(UInt8.ofNat data.length).toNat]? with
    | none =>
        rw [hbehind] at hdataFirst
        cases hdataFirst
    | some c =>
        rw [hbehind] at hdataFirst
        have hlength : c.toNat = data.length % 256 := hview _ _ (Except.ok.inj hdataFirst)
        simp only [hlength]
  · rintro ⟨rfl, hdataFirst⟩ order
    cases order with
    | lengthFirst => exact hlengthFirst
    | dataFirst =>
        rw [hdecode, hdataFirst]
        rfl

end

/-! ## The messages -/

/-- Every order of evaluation takes the same item name out of a request, and out of its bytes. -/
def RequestOrderFree (msg : Bytes) : Prop :=
  ∃ view, (∀ order, decodeRequest order msg = .ok (some view))
    ∧ view.itemName + view.itemNameLength ≤ msg.length

/-- Every order of evaluation takes the same payload out of a reply, and out of its bytes. -/
def ReplyOrderFree (msg : Bytes) : Prop :=
  ∃ view, (∀ order, decodeReply order msg = .ok view)
    ∧ view.rsslBuffer + view.rsslBufferLength ≤ msg.length

theorem requestOrderFree_iff (r : ItemRequest) :
    RequestOrderFree (requestImage r) ↔ EndsAsItBegins r.itemName := by
  let pre := requestFields r ++ [requestFlags r.useAttribInfoInUpdates]
  let m : Flyweight := ⟨25 + ([UInt8.ofNat r.itemName.length] ++ r.itemName).length, 8, 25, 17, 0⟩
  let view : Nat → Nat → Option RequestView := fun ptr length =>
    some ⟨r.handle, r.rwfVersion, r.token, r.serviceId, r.useAttribInfoInUpdates, ptr, length⟩
  have hpre : pre.length = 25 := by simp [pre]
  have hdecode : ∀ order, decodeRequest order (requestImage r) = (do
      let (ptr, length) ← m.varDataArgs order (varDataImage pre r.itemName)
      return view ptr length) := by
    intro order
    have hblock := decodeRequest_block order r ([UInt8.ofNat r.itemName.length] ++ r.itemName)
    rw [← List.append_assoc] at hblock
    exact hblock
  have horder := decode_order m pre r.itemName (decodeRequest · (requestImage r)) view
    (fun n n' h => by simpa [view] using h) hdecode hpre.symm
    (by simp only [m, hpre, List.length_append, List.length_cons, List.length_nil]; omega)
  have hfits : r.itemName.length % 256 ≤ r.itemName.length := Nat.mod_le _ _
  constructor
  · rintro ⟨v, hv, -⟩
    exact ((horder (some v)).mp hv).2
  · intro hends
    refine ⟨_, (horder _).mpr ⟨rfl, hends⟩, ?_⟩
    simp only [hpre, requestImage, List.length_append, requestFields_length, List.length_cons,
      List.length_nil]
    omega

theorem replyOrderFree_iff (handle : UInt64) (token : Int32) (payload : Bytes) :
    ReplyOrderFree (replyImage handle token payload.length payload) ↔ EndsAsItBegins payload := by
  let pre := replyBlock handle token
  let m : Flyweight := ⟨20 + ([UInt8.ofNat payload.length] ++ payload).length, 8, 20, 12, 0⟩
  let view : Nat → Nat → ReplyView := fun ptr length => ⟨handle, token, ptr, length⟩
  have hpre : pre.length = 20 := replyBlock_length handle token
  have hdecode : ∀ order, decodeReply order (replyImage handle token payload.length payload) = (do
      let (ptr, length) ← m.varDataArgs order (varDataImage pre payload)
      return view ptr length) := by
    intro order
    have hblock := decodeReply_block order handle token ([UInt8.ofNat payload.length] ++ payload)
    rw [← List.append_assoc] at hblock
    exact hblock
  have horder := decode_order m pre payload
    (decodeReply · (replyImage handle token payload.length payload)) view
    (fun n n' h => by simpa [view] using h) hdecode hpre.symm
    (by simp only [m, hpre, List.length_append, List.length_cons, List.length_nil]; omega)
  have hfits : payload.length % 256 ≤ payload.length := Nat.mod_le _ _
  constructor
  · rintro ⟨v, hv, -⟩
    exact ((horder v).mp hv).2
  · intro hends
    refine ⟨_, (horder _).mpr ⟨rfl, hends⟩, ?_⟩
    simp only [view, hpre, replyImage, List.length_append, replyBlock_length, List.length_cons,
      List.length_nil]
    omega

/-- **Decoding depends on the order of evaluation**, but for data whose length byte is found again
    where the moved position points; data that fits the length byte never is. -/
theorem orderFree_iff (mem : Nat → UInt8) :
    (∀ r msg, encodeRequest mem r = .ok msg →
        (RequestOrderFree msg ↔ EndsAsItBegins r.itemName))
      ∧ (∀ handle token rssl msg, encodeReply mem handle token rssl = .ok msg →
        (ReplyOrderFree msg ↔ EndsAsItBegins rssl.payload))
      ∧ ∀ data : Bytes, data.length ≤ 255 → ¬ EndsAsItBegins data := by
  refine ⟨?_, ?_, not_endsAsItBegins⟩
  · intro r msg hmsg
    obtain rfl := Except.ok.inj ((encodeRequest_eq mem r).symm.trans hmsg)
    exact requestOrderFree_iff r
  · intro handle token rssl msg hmsg
    obtain rfl := Except.ok.inj ((encodeReply_eq mem handle token rssl).symm.trans hmsg)
    have hiff := replyOrderFree_iff handle token rssl.payload
    rwa [rssl.payload_length] at hiff

/-- An item request that asks for a name, and nothing else of interest. -/
def ItemRequest.named (itemName : Bytes) : ItemRequest :=
  ⟨0x7f00, 0x0e, 5, 1, itemName, false, none⟩

/-- 256 zero bytes are no bytes in either order. -/
theorem zeros_orderFree :
    RequestOrderFree (requestImage (.named (List.replicate 256 0)))
      ∧ ReplyOrderFree (replyImage 0x7f00 5 256 (RsslBuf.zeros 256 (by decide)).payload)
      ∧ ¬ EndsAsItBegins [1] := by
  obtain ⟨hrequest, hreply, hshort⟩ := orderFree_iff (fun _ => 0)
  refine ⟨(hrequest _ _ (encodeRequest_eq _ _)).mpr (by decide +kernel), ?_, hshort _ (by decide)⟩
  exact (hreply 0x7f00 5 (RsslBuf.zeros 256 (by decide)) _ (encodeReply_eq _ _ _ _)).mpr
    (by decide +kernel)

/-- The length of the name "VTA", read behind it, is read past the end of the message; that of a
    reply of three bytes as well. -/
theorem pastEnd_order :
    (decodeRequest .lengthFirst (requestImage (.named [86, 84, 65]))
        = .ok (some ⟨0x7f00, 0x0e, 5, 1, false, 26, 3⟩)
      ∧ decodeRequest .dataFirst (requestImage (.named [86, 84, 65])) = .error .outOfBounds
      ∧ ¬ RequestOrderFree (requestImage (.named [86, 84, 65])))
    ∧ decodeReply .lengthFirst (replyImage 0x7f00 5 3 [1, 2, 3]) = .ok ⟨0x7f00, 5, 21, 3⟩
      ∧ decodeReply .dataFirst (replyImage 0x7f00 5 3 [1, 2, 3]) = .error .outOfBounds
      ∧ ¬ ReplyOrderFree (replyImage 0x7f00 5 3 [1, 2, 3]) := by
  have hrequest : decodeRequest .dataFirst (requestImage (.named [86, 84, 65]))
      = .error .outOfBounds := by decide +kernel
  have hreply : decodeReply .dataFirst (replyImage 0x7f00 5 3 [1, 2, 3])
      = .error .outOfBounds := by decide +kernel
  refine ⟨⟨by decide +kernel, hrequest, ?_⟩, by decide +kernel, hreply, ?_⟩
  · rintro ⟨view, hview, -⟩
    cases hrequest.symm.trans (hview .dataFirst)
  · rintro ⟨view, hview, -⟩
    cases hreply.symm.trans (hview .dataFirst)

end Hitsuji
