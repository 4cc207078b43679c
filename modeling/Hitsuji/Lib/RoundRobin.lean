import Mathlib.Data.Nat.Nth
import Mathlib.Data.Nat.Periodic

set_option autoImplicit false

/-! # Taking turns over a periodic predicate

Places in a ring of `n` are numbers modulo `n`, and a set of them is a predicate of period `n`. To go
from a place to the next one of the set, again and again, is to go through the numbers that satisfy
the predicate in their order; so after the first step the place is that of the `i`th such number, and
two numbers of steps lead to the same place exactly if they are congruent modulo the size of the
set. -/

namespace RoundRobin

variable (p : ℕ → Prop) [DecidablePred p] (n : ℕ)

/-- The next number after `k` that satisfies the predicate. -/
noncomputable def next (k : ℕ) : ℕ :=
  Nat.nth p (Nat.count p (k + 1))

section Periodic

variable (hp : Function.Periodic p n) (hn : 0 < n) (hex : ∃ k, p k)

include hp

theorem count_add_period (k : ℕ) : Nat.count p (k + n) = Nat.count p k + Nat.count p n := by
  rw [Nat.count_add']
  congr 1
  simp only [hp _]

theorem count_add_periods (k t : ℕ) : Nat.count p (k + t * n) = Nat.count p k + t * Nat.count p n := by
  induction t with
  | zero => simp
  | succ t ih =>
      rw [Nat.succ_mul, ← Nat.add_assoc, count_add_period p n hp, ih, Nat.succ_mul, Nat.add_assoc]

include hn hex

theorem count_period_pos : 0 < Nat.count p n := by
  obtain ⟨k, hk⟩ := hex
  have hmod : p (k % n) := by rwa [hp.map_mod_nat k]
  exact Nat.pos_of_ne_zero (Nat.count_ne_iff_exists.mpr ⟨k % n, Nat.mod_lt k hn, hmod⟩)

omit [DecidablePred p] in
theorem infinite : (Set.ofPred p).Infinite := by
  obtain ⟨k, hk⟩ := hex
  refine Set.infinite_of_forall_exists_gt fun a => ⟨k + (a + 1) * n, ?_, ?_⟩
  · show p (k + (a + 1) * n)
    rw [← hp.map_mod_nat, Nat.add_mul_mod_self_right, hp.map_mod_nat]
    exact hk
  · have hle : (a + 1) * 1 ≤ (a + 1) * n := Nat.mul_le_mul_left _ hn
    omega

/-! ## One step -/

theorem lt_next (k : ℕ) : k < next p k :=
  Nat.le_nth_count (infinite p n hp hn hex) (k + 1)

theorem next_mem (k : ℕ) : p (next p k) :=
  Nat.nth_mem_of_infinite (infinite p n hp hn hex) _

/-- Nothing is passed over. -/
theorem next_le (k u : ℕ) (hlt : k < u) (hu : p u) : next p k ≤ u := by
  have hcount : Nat.count p (k + 1) ≤ Nat.count p u := Nat.count_monotone p hlt
  calc next p k ≤ Nat.nth p (Nat.count p u) := Nat.nth_monotone (infinite p n hp hn hex) hcount
    _ = u := Nat.nth_count hu

/-- A whole turn is enough. -/
theorem next_le_turn (k : ℕ) : next p k ≤ k + n := by
  have hcount : Nat.count p (k + 1) < Nat.count p (k + 1 + n) := by
    rw [count_add_period p n hp]
    exact Nat.lt_add_of_pos_right (count_period_pos p n hp hn hex)
  obtain ⟨u, hmem, hu⟩ := Nat.exists_of_count_lt_count hcount
  rw [Set.mem_Ico] at hmem
  exact (next_le p n hp hn hex k u (by omega) hu).trans (by omega)

/-! ## Many steps -/

/-- **After the first step, the steps go through the numbers in their order.** -/
theorem iterate_next (k i : ℕ) : (next p)^[i + 1] k = Nat.nth p (Nat.count p (k + 1) + i) := by
  induction i with
  | zero => rfl
  | succ i ih =>
      rw [Function.iterate_succ_apply', ih, next,
        Nat.count_nth_succ_of_infinite (infinite p n hp hn hex)]
      rfl

theorem nth_add_turns (i t : ℕ) : Nat.nth p (i + t * Nat.count p n) = Nat.nth p i + t * n := by
  have hmem : p (Nat.nth p i + t * n) := by
    rw [← hp.map_mod_nat, Nat.add_mul_mod_self_right, hp.map_mod_nat]
    exact Nat.nth_mem_of_infinite (infinite p n hp hn hex) i
  have hcount : Nat.count p (Nat.nth p i + t * n) = i + t * Nat.count p n := by
    rw [count_add_periods p n hp, Nat.count_nth_of_infinite (infinite p n hp hn hex)]
  rw [← hcount, Nat.nth_count hmem]

/-- **The same place is reached by congruent numbers of steps, and by no others.** -/
theorem nth_modEq_iff (i j : ℕ) :
    Nat.nth p i ≡ Nat.nth p j [MOD n] ↔ i ≡ j [MOD Nat.count p n] := by
  wlog hij : i ≤ j with hsymm
  · rw [Nat.ModEq.comm, hsymm p n hp hn hex j i (Nat.le_of_not_le hij), Nat.ModEq.comm]
  have hle : Nat.nth p i ≤ Nat.nth p j := Nat.nth_monotone (infinite p n hp hn hex) hij
  constructor
  · intro hplace
    obtain ⟨t, ht⟩ := (Nat.modEq_iff_dvd' hle).mp hplace
    have hj : Nat.nth p j = Nat.nth p i + t * n := by
      rw [Nat.mul_comm t n, ← ht]
      omega
    have hcount := Nat.count_nth_of_infinite (infinite p n hp hn hex) j
    rw [hj, count_add_periods p n hp, Nat.count_nth_of_infinite (infinite p n hp hn hex)] at hcount
    rw [← hcount]
    exact (Nat.add_mul_modulus_modEq_iff.mpr rfl).symm
  · intro hsteps
    obtain ⟨t, ht⟩ := (Nat.modEq_iff_dvd' hij).mp hsteps
    have hj : j = i + t * Nat.count p n := by
      rw [Nat.mul_comm t, ← ht]
      omega
    rw [hj, nth_add_turns p n hp hn hex]
    exact (Nat.add_mul_modulus_modEq_iff.mpr rfl).symm

end Periodic

end RoundRobin
