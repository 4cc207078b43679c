import Hitsuji.Worker.PermData

set_option autoImplicit false

/-! # The digits of a lock

`permdata_t::asciiLockToBinary` works on the string it is given: it makes it half as long as the
text, and then writes each byte in two steps, the high digit over whatever is there and the low digit
into it. What the string held before does not come through, and the loop computes what the text
spells. -/

namespace Hitsuji

open ByteBuffer UrlParse

namespace PermData

/-! ## The loop -/

/-- `std::string::resize` -/
def resize (s : Bytes) (size : Nat) : Bytes :=
  s.take size ++ List.replicate (size - s.length) 0

/-- One round of the loop; `none` when a `CHECK` fails. -/
def convertByte (asciiLock dacsLock : Bytes) (i : Nat) : Option Bytes := do
  let v ← hexChar (asciiLock.getD (i * 2) 0)
  let dacsLock := dacsLock.set i (v <<< 4)
  let v ← hexChar (asciiLock.getD (i * 2 + 1) 0)
  return dacsLock.set i (dacsLock.getD i 0 ||| v)

/-- `permdata_t::asciiLockToBinary` on a string; the rounds do not change its size. -/
def convertLock (asciiLock dacsLock : Bytes) : Option Bytes :=
  (List.range' 0 (asciiLock.length / 2)).foldlM (convertByte asciiLock)
    (resize dacsLock (asciiLock.length / 2))

theorem resize_length (s : Bytes) (size : Nat) : (resize s size).length = size := by
  simp only [resize, List.length_append, List.length_take, List.length_replicate]
  omega

theorem getD_at (before after : Bytes) (c : UInt8) :
    (before ++ c :: after).getD before.length 0 = c := by
  simp

theorem set_at (before after : Bytes) (c c' : UInt8) :
    (before ++ c :: after).set before.length c' = before ++ c' :: after := by
  simp

/-- What is at a place before its round does not matter. -/
theorem convertByte_eq (read written rest : Bytes) (hi lo c : UInt8) (after : Bytes)
    (hread : read.length = written.length * 2) :
    convertByte (read ++ hi :: lo :: rest) (written ++ c :: after) written.length
      = (hexChar hi).bind fun v => (hexChar lo).bind fun v' =>
        some (written ++ (v <<< 4 ||| v') :: after) := by
  have hhi : (read ++ hi :: lo :: rest).getD (written.length * 2) 0 = hi := by
    rw [← hread, getD_at]
  have hlo : (read ++ hi :: lo :: rest).getD (written.length * 2 + 1) 0 = lo := by
    have hshift := getD_at (read ++ [hi]) rest lo
    rw [List.append_assoc, List.length_append, hread] at hshift
    exact hshift
  unfold convertByte
  rw [hhi, hlo]
  cases hexChar hi with
  | none => rfl
  | some v =>
      cases hexChar lo with
      | none => rfl
      | some v' =>
          show some (((written ++ c :: after).set written.length (v <<< 4)).set written.length
            (((written ++ c :: after).set written.length (v <<< 4)).getD written.length 0 ||| v'))
            = some (written ++ (v <<< 4 ||| v') :: after)
          rw [set_at, getD_at, set_at]

/-- The rounds that are left convert the text that is left. -/
theorem rounds_eq (text read written old : Bytes) (hread : read.length = written.length * 2)
    (hold : old.length = text.length / 2) :
    (List.range' written.length (text.length / 2)).foldlM (convertByte (read ++ text))
        (written ++ old)
      = (asciiLockToBinary text).map (written ++ ·) := by
  induction text using asciiLockToBinary.induct generalizing read written old with
  | case1 hi lo rest ih =>
      have hhalf : (hi :: lo :: rest).length / 2 = rest.length / 2 + 1 := by
        simp only [List.length_cons]
        omega
      rw [hhalf] at hold ⊢
      cases old with
      | nil => exact absurd hold (Nat.succ_ne_zero _).symm
      | cons c after =>
          rw [List.range'_succ, List.foldlM_cons, convertByte_eq read written rest hi lo c after hread,
            asciiLockToBinary]
          cases hexChar hi with
          | none => rfl
          | some v =>
              cases hexChar lo with
              | none => rfl
              | some v' =>
                  have hih := ih (read ++ [hi, lo]) (written ++ [v <<< 4 ||| v']) after
                    (by simp [hread, Nat.succ_mul]) (Nat.succ.inj hold)
                  simp only [List.append_assoc, List.length_append, List.length_singleton,
                    List.cons_append, List.nil_append] at hih
                  show List.foldlM (convertByte (read ++ hi :: lo :: rest))
                    (written ++ (v <<< 4 ||| v') :: after) _ = _
                  rw [hih]
                  cases asciiLockToBinary rest <;> rfl
  | case2 text hshort =>
      have hhalf : text.length / 2 = 0 := by
        rcases text with _ | ⟨hi, _ | ⟨lo, rest⟩⟩
        · rfl
        · simp
        · exact absurd rfl (hshort hi lo rest)
      have hnone : asciiLockToBinary text = some [] := by
        simp [asciiLockToBinary]
      rw [hhalf] at hold ⊢
      rw [hnone, List.length_eq_zero_iff.mp hold]
      rfl

/-- **The loop computes what the text spells**, whatever the string held. -/
theorem convertLock_eq (asciiLock dacsLock : Bytes) :
    convertLock asciiLock dacsLock = asciiLockToBinary asciiLock := by
  have hrounds := rounds_eq asciiLock [] [] (resize dacsLock (asciiLock.length / 2)) rfl
    (resize_length _ _)
  rw [List.nil_append, List.nil_append] at hrounds
  unfold convertLock
  rw [show (0 : Nat) = ([] : Bytes).length from rfl, hrounds]
  cases asciiLockToBinary asciiLock <;> rfl

/-! ## Digits -/

/-- The digits in either case. -/
def HexDigit (c : UInt8) : Prop :=
  c ∈ ascii "0123456789abcdef" ∨ c ∈ ascii "0123456789ABCDEF"

instance : DecidablePred HexDigit :=
  fun _ => inferInstanceAs (Decidable (_ ∨ _))

/-- A digit for a number below sixteen. -/
def DigitOf (d : Nat) (c : UInt8) : Prop :=
  c = (ascii "0123456789abcdef").getD d 0 ∨ c = (ascii "0123456789ABCDEF").getD d 0

/-- A text that spells bytes, two digits each, in any mix of cases. -/
inductive Spelling : Bytes → Bytes → Prop where
  | nil : Spelling [] []
  | cons (x hi lo : UInt8) (bytes text : Bytes) (hhi : DigitOf (x.toNat / 16) hi)
      (hlo : DigitOf (x.toNat % 16) lo) (h : Spelling bytes text) :
      Spelling (x :: bytes) (hi :: lo :: text)

/-- `HexChar` accepts the digits. -/
theorem hexChar_isSome (c : UInt8) : (hexChar c).isSome = true ↔ HexDigit c := by
  have hall : ∀ n : Fin 256,
      (hexChar (UInt8.ofNat n.val)).isSome = true ↔ HexDigit (UInt8.ofNat n.val) := by
    decide +kernel
  have hc := hall ⟨c.toNat, c.toNat_lt⟩
  rwa [UInt8.ofNat_toNat] at hc

/-- A digit is read as its number. -/
theorem hexChar_digit (d : Nat) (c : UInt8) (hd : d < 16) (h : DigitOf d c) :
    hexChar c = some (UInt8.ofNat d) := by
  have hall : ∀ d : Fin 16,
      hexChar ((ascii "0123456789abcdef").getD d.val 0) = some (UInt8.ofNat d.val)
        ∧ hexChar ((ascii "0123456789ABCDEF").getD d.val 0) = some (UInt8.ofNat d.val) := by
    decide +kernel
  rcases h with rfl | rfl
  · exact (hall ⟨d, hd⟩).1
  · exact (hall ⟨d, hd⟩).2

/-- The two halves make the byte. -/
theorem halves_or (x : UInt8) :
    UInt8.ofNat (x.toNat / 16) <<< 4 ||| UInt8.ofNat (x.toNat % 16) = x := by
  have hall : ∀ n : Fin 256, UInt8.ofNat (n.val / 16) <<< 4 ||| UInt8.ofNat (n.val % 16)
      = UInt8.ofNat n.val := by
    decide +kernel
  have hx := hall ⟨x.toNat, x.toNat_lt⟩
  rwa [UInt8.ofNat_toNat] at hx

/-! ## What is decoded -/

theorem asciiLockToBinary_spelling (bytes text : Bytes) (h : Spelling bytes text) :
    asciiLockToBinary text = some bytes := by
  induction h with
  | nil => rfl
  | cons x hi lo bytes text hhi hlo _ ih =>
      have hlt : x.toNat < 256 := x.toNat_lt
      rw [asciiLockToBinary, hexChar_digit _ hi (by omega) hhi,
        hexChar_digit _ lo (by omega) hlo, ih]
      show some ((UInt8.ofNat (x.toNat / 16) <<< 4 ||| UInt8.ofNat (x.toNat % 16)) :: bytes)
        = some (x :: bytes)
      rw [halves_or]

/-- A text is refused for the first character that is not a digit, an odd one at the end aside. -/
theorem asciiLockToBinary_eq_none (text : Bytes) :
    asciiLockToBinary text = none ↔ ∃ c ∈ text.take (2 * (text.length / 2)), ¬ HexDigit c := by
  induction text using asciiLockToBinary.induct with
  | case1 hi lo rest ih =>
      have htake : (hi :: lo :: rest).take (2 * ((hi :: lo :: rest).length / 2))
          = hi :: lo :: rest.take (2 * (rest.length / 2)) := by
        have hhalf : 2 * ((hi :: lo :: rest).length / 2) = 2 * (rest.length / 2) + 1 + 1 := by
          simp only [List.length_cons]
          omega
        rw [hhalf, List.take_succ_cons, List.take_succ_cons]
      rw [htake, asciiLockToBinary, List.exists_mem_cons_iff, List.exists_mem_cons_iff, ← ih,
        ← hexChar_isSome, ← hexChar_isSome]
      cases hexChar hi with
      | none => simp
      | some v =>
          cases hexChar lo with
          | none => simp
          | some v' => cases asciiLockToBinary rest <;> simp
  | case2 text hshort =>
      have hnone : text.take (2 * (text.length / 2)) = [] := by
        rcases text with _ | ⟨hi, _ | ⟨lo, rest⟩⟩
        · rfl
        · simp
        · exact absurd rfl (hshort hi lo rest)
      rw [hnone]
      simp [asciiLockToBinary]

theorem asciiLockToBinary_half (text dacsLock : Bytes) (h : asciiLockToBinary text = some dacsLock) :
    dacsLock.length = text.length / 2 := by
  induction text using asciiLockToBinary.induct generalizing dacsLock with
  | case1 hi lo rest ih =>
      simp only [asciiLockToBinary, Option.bind_eq_bind, Option.bind_eq_some_iff, Option.pure_def,
        Option.some.injEq] at h
      obtain ⟨v, -, v', -, tail, htail, rfl⟩ := h
      have hlength := ih tail htail
      simp only [List.length_cons, hlength]
      omega
  | case2 text hshort =>
      have hnil : asciiLockToBinary text = some [] := by
        simp [asciiLockToBinary]
      obtain rfl : [] = dacsLock := Option.some.inj (hnil.symm.trans h)
      rcases text with _ | ⟨hi, _ | ⟨lo, rest⟩⟩
      · rfl
      · simp
      · exact absurd rfl (hshort hi lo rest)

/-- **A lock is decoded from its digits**: a text that spells bytes overwrites the string with just
    these, every text that is accepted gives half as many, and a text is refused exactly for a
    character among its pairs that is not a digit. -/
theorem convertLock_decodes (asciiLock dacsLock : Bytes) :
    (∀ bytes, Spelling bytes asciiLock → convertLock asciiLock dacsLock = some bytes)
      ∧ (∀ lock, convertLock asciiLock dacsLock = some lock → lock.length = asciiLock.length / 2)
      ∧ (convertLock asciiLock dacsLock = none
        ↔ ∃ c ∈ asciiLock.take (2 * (asciiLock.length / 2)), ¬ HexDigit c) := by
  rw [convertLock_eq]
  exact ⟨fun bytes => asciiLockToBinary_spelling bytes asciiLock,
    fun lock => asciiLockToBinary_half asciiLock lock, asciiLockToBinary_eq_none asciiLock⟩

example : convertLock (ascii "fF0aC") (ascii "held before") = some [0xff, 0x0a] := by
  decide +kernel

end PermData

end Hitsuji
