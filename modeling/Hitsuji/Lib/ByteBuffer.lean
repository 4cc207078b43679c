import Mathlib.Data.List.Basic
import Mathlib.Tactic.Ring

set_option autoImplicit false

/-! # Byte buffers with little-endian fixed-width fields

A buffer is a list of bytes that is only ever read and written in place: `peek` reads `n` bytes at
an offset, `poke` overwrites the bytes at an offset and keeps the length. Integers are stored as
`w` little-endian bytes (`leBytes`), and reading them back (`leNat`) gives the value modulo
`256 ^ w`. The lemmas here are what a codec that works from front to back needs: a write right
behind a known prefix extends that prefix, and a read inside it finds what was written. -/

namespace ByteBuffer

/-- A run of bytes in memory. -/
abbrev Bytes := List UInt8

/-! ## Little-endian integers -/

/-- The low `w` bytes of `x`, least significant first. -/
def leBytes : Nat → Nat → Bytes
  | 0, _ => []
  | w + 1, x => UInt8.ofNat x :: leBytes w (x / 256)

/-- The value of a little-endian byte run. -/
def leNat : Bytes → Nat
  | [] => 0
  | b :: bs => b.toNat + 256 * leNat bs

@[simp] theorem leBytes_length (w x : Nat) : (leBytes w x).length = w := by
  induction w generalizing x with
  | zero => rfl
  | succ w ih => simp only [leBytes, List.length_cons, ih]

/-- Storing a value in `w` bytes keeps it modulo `256 ^ w`. -/
theorem leNat_leBytes (w x : Nat) : leNat (leBytes w x) = x % 256 ^ w := by
  induction w generalizing x with
  | zero => simp [leBytes, leNat, Nat.mod_one]
  | succ w ih =>
      simp only [leBytes, leNat, ih, UInt8.toNat_ofNat']
      have hpow : (256 : Nat) ^ (w + 1) = 256 * 256 ^ w := by ring
      rw [hpow, Nat.mod_mul]

theorem leNat_leBytes_of_lt (w x : Nat) (h : x < 256 ^ w) : leNat (leBytes w x) = x := by
  rw [leNat_leBytes, Nat.mod_eq_of_lt h]

/-! ## Reading and writing in place -/

/-- The `n` bytes at offset `off`. -/
def peek (b : Bytes) (off n : Nat) : Bytes :=
  (b.drop off).take n

/-- Overwrite the bytes at offset `off` with `xs`. -/
def poke (b : Bytes) (off : Nat) (xs : Bytes) : Bytes :=
  b.take off ++ (xs ++ b.drop (off + xs.length))

/-- Writing right behind an already written prefix extends that prefix. -/
theorem poke_behind (pre rest xs : Bytes) (off : Nat) (hoff : off = pre.length) :
    poke (pre ++ rest) off xs = (pre ++ xs) ++ rest.drop xs.length := by
  subst hoff
  have htake : (pre ++ rest).take pre.length = pre := List.take_left
  have hdrop : (pre ++ rest).drop (pre.length + xs.length) = rest.drop xs.length := by
    rw [← List.drop_drop, List.drop_left]
  rw [poke, htake, hdrop, List.append_assoc]

/-- A read inside a known prefix. -/
theorem peek_append_middle (pre xs post : Bytes) (off n : Nat) (hoff : off = pre.length)
    (hn : n = xs.length) : peek (pre ++ xs ++ post) off n = xs := by
  subst hoff hn
  rw [peek, List.append_assoc, List.drop_left, List.take_left]

end ByteBuffer
