import Hitsuji.Worker.Task

set_option autoImplicit false

/-! # Two ways to a lock

`permdata_t::GetDacsLock` reads the newest permission record of a symbol by a cursor, or by the
primitives that call back for it. The cursor's text is converted to the bytes it spells, and no
record is an error; the callback assigns the text as it is, and no record goes unnoticed. The two
overloads agree on nothing but a record without text. -/

namespace Hitsuji

open ByteBuffer UrlParse

/-! ## By name -/

namespace PermData

/-- `HexChar` -/
def hexChar (c : UInt8) : Option UInt8 :=
  if code '0' ≤ c ∧ c ≤ code '9' then some (c - code '0')
  else if code 'a' ≤ c ∧ c ≤ code 'f' then some (c - code 'a' + 10)
  else if code 'A' ≤ c ∧ c ≤ code 'F' then some (c - code 'A' + 10)
  else none

/-- `permdata_t::asciiLockToBinary`; a digit too many is left out, and what is not a digit fails a
    `CHECK`. -/
def asciiLockToBinary : Bytes → Option Bytes
  | hi :: lo :: rest => do
      let v ← hexChar hi
      let v' ← hexChar lo
      let dacsLock ← asciiLockToBinary rest
      return (v <<< 4 ||| v') :: dacsLock
  | _ => some []

/-- What comes of a `FlexRecReader` on the permission records, newest to oldest. -/
inductive Cursor where
  /-- `Open` does not return 1, or raises an exception -/
  | notOpened
  /-- the text `Next` binds, if there is a record -/
  | opened (next : Option Bytes)

/-- `permdata_t::GetDacsLock` by name; `none` when the text fails a `CHECK`. -/
def getDacsLockByName (cursor : Cursor) (lock : Bytes) : Option (Bool × Bytes) :=
  match cursor with
  | .notOpened => some (false, lock)
  | .opened none => some (false, lock)
  | .opened (some permdata) => (asciiLockToBinary permdata).map fun lock => (true, lock)

/-- A permission text that fits the buffer of the cursor. -/
def HexText (text : Bytes) : Prop :=
  text.length < 32 ∧ ∀ c ∈ text, (hexChar c).isSome

instance (text : Bytes) : Decidable (HexText text) :=
  inferInstanceAs (Decidable (_ ∧ _))

/-! ## The two overloads -/

/-- The primitives over records that go from the oldest to the newest. -/
def ofHistory (history : List Bytes) : PermData :=
  ⟨history.getLast?, false⟩

/-- The overloads return the same, and the same lock when they return true. -/
def LocksAgree (history : List Bytes) (lock : Bytes) : Prop :=
  ∃ byName, getDacsLockByName (.opened history.getLast?) lock = some byName
    ∧ byName.1 = (Worker.getDacsLock (ofHistory history) lock).1
    ∧ (byName.1 = true → byName.2 = (Worker.getDacsLock (ofHistory history) lock).2)

/-- The binary lock has half as many bytes as there are digits. -/
theorem asciiLockToBinary_length (text : Bytes) (h : ∀ c ∈ text, (hexChar c).isSome) :
    ∃ dacsLock, asciiLockToBinary text = some dacsLock ∧ dacsLock.length = text.length / 2 := by
  induction text using asciiLockToBinary.induct with
  | case1 hi lo rest ih =>
      simp only [List.forall_mem_cons, Option.isSome_iff_exists] at h
      obtain ⟨⟨v, hv⟩, ⟨v', hv'⟩, hrest⟩ := h
      obtain ⟨dacsLock, hlock, hlength⟩ :=
        ih fun c hc => Option.isSome_iff_exists.mpr (hrest c hc)
      refine ⟨(v <<< 4 ||| v') :: dacsLock, by simp [asciiLockToBinary, hv, hv', hlock], ?_⟩
      simp only [List.length_cons, hlength]
      omega
  | case2 text hshort =>
      refine ⟨[], by simp [asciiLockToBinary], ?_⟩
      rcases text with _ | ⟨hi, _ | ⟨lo, rest⟩⟩
      · rfl
      · simp
      · exact absurd rfl (hshort hi lo rest)

/-- Conversion to binary shortens every text. -/
theorem asciiLockToBinary_eq_self (text : Bytes) (h : ∀ c ∈ text, (hexChar c).isSome) :
    asciiLockToBinary text = some text ↔ text = [] := by
  constructor
  · intro hself
    obtain ⟨dacsLock, hlock, hlength⟩ := asciiLockToBinary_length text h
    obtain rfl : text = dacsLock := Option.some.inj (hself.symm.trans hlock)
    exact List.length_eq_zero_iff.mp (by omega)
  · rintro rfl
    rfl

/-- **The overloads agree exactly on a newest record without text**, whatever the lock was. -/
theorem locksAgree_iff (history : List Bytes) (lock : Bytes)
    (hhex : ∀ text ∈ history, HexText text) :
    LocksAgree history lock ↔ history.getLast? = some [] := by
  unfold LocksAgree Worker.getDacsLock ofHistory
  cases hnewest : history.getLast? with
  | none => simp [getDacsLockByName]
  | some text =>
      have hdigits := (hhex text (List.mem_of_getLast? hnewest)).2
      rw [Option.some.injEq, ← asciiLockToBinary_eq_self text hdigits]
      simp only [getDacsLockByName, Option.getD_some]
      constructor
      · rintro ⟨byName, hname, -, hlock⟩
        obtain ⟨dacsLock, hbinary, rfl⟩ := Option.map_eq_some_iff.mp hname
        rw [hbinary, show dacsLock = text from hlock rfl]
      · intro hbinary
        exact ⟨(true, text), by rw [hbinary]; rfl, rfl, fun _ => rfl⟩

theorem noText_agrees : LocksAgree [ascii "41", []] (ascii "41") :=
  (locksAgree_iff [ascii "41", []] (ascii "41") (by decide)).mpr rfl

/-- Without a record the one returns false and the other true, with the lock of the item before.
    The record "41" is the byte 0x41 to the one and two characters to the other. -/
theorem stale_disagrees :
    (getDacsLockByName (.opened none) (ascii "62") = some (false, ascii "62")
        ∧ Worker.getDacsLock (ofHistory []) (ascii "62") = (true, ascii "62")
        ∧ ¬ LocksAgree [] (ascii "62"))
      ∧ (getDacsLockByName (.opened (some (ascii "41"))) [] = some (true, [0x41])
        ∧ Worker.getDacsLock (ofHistory [ascii "41"]) [] = (true, ascii "41")
        ∧ ¬ LocksAgree [ascii "41"] []) := by
  refine ⟨⟨rfl, rfl, ?_⟩, ⟨by decide, rfl, ?_⟩⟩
  · rintro ⟨byName, hname, hret, -⟩
    obtain rfl := Option.some.inj hname
    exact absurd hret (by decide)
  · rintro ⟨byName, hname, -, hlock⟩
    have hbinary : getDacsLockByName (.opened [ascii "41"].getLast?) [] = some (true, [0x41]) := by
      decide
    obtain rfl := Option.some.inj (hname.symm.trans hbinary)
    exact absurd (hlock rfl) (by decide)

end PermData

end Hitsuji
