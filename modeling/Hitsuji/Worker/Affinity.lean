import Hitsuji.Lib.RoundRobin
import Mathlib.Data.Nat.Bitwise

set_option autoImplicit false

/-! # The CPU of a worker

`worker_t::Initialize` picks a CPU by the number of the worker: a bit starts at the first CPU and is
moved on once for each number below, to the next bit of the process mask and from the top around to
the bottom. The inner loop stops at a bit of the mask, or back at the bit it started from. The first
CPU is where the search begins, and what the first worker gets without a look at the mask. -/

namespace Hitsuji

/-! ## The search -/

/-- `while ((current_mask & default_mask) == 0)`, up to a number of rounds; `none` if it is not over
    by then. -/
def searchMask (defaultMask oldMask : UInt64) : Nat → UInt64 → Option UInt64
  | 0, _ => none
  | rounds + 1, currentMask =>
      if currentMask &&& defaultMask ≠ 0 then some currentMask
      else
        let currentMask := currentMask <<< 1
        let currentMask := if currentMask = 0 then 1 else currentMask
        if currentMask = oldMask then some currentMask
        else searchMask defaultMask oldMask rounds currentMask

/-- `current_mask` after the loop in `worker_t::Initialize` for a worker id. -/
def currentMask (defaultMask : UInt64) (rounds : Nat) : Nat → Option UInt64
  | 0 => some 1
  | id + 1 => (currentMask defaultMask rounds id).bind fun oldMask =>
      searchMask defaultMask oldMask rounds (oldMask <<< 1)

/-! ## Bits -/

/-- The mask of one CPU. -/
def bit (i : Nat) : UInt64 :=
  UInt64.ofNat (2 ^ i)

theorem toNat_bit (i : Nat) (h : i < 64) : (bit i).toNat = 2 ^ i :=
  UInt64.toNat_ofNat_of_lt (Nat.pow_lt_pow_right (by omega) h)

theorem bit_inj (i j : Nat) (hi : i < 64) (hj : j < 64) (h : bit i = bit j) : i = j := by
  have hpow := congrArg UInt64.toNat h
  rw [toNat_bit i hi, toNat_bit j hj] at hpow
  exact Nat.pow_right_injective (Nat.le_refl 2) hpow

theorem bit_and (mask : UInt64) (i : Nat) (h : i < 64) :
    bit i &&& mask ≠ 0 ↔ mask.toNat.testBit i = true := by
  rw [Ne, ← UInt64.toNat_inj, UInt64.toNat_and, toNat_bit i h, Nat.two_pow_and]
  cases mask.toNat.testBit i with
  | false => simp
  | true => simp

/-- The bit is moved up, -/
theorem bit_shift (i : Nat) (h : i < 63) : bit i <<< 1 = bit (i + 1) := by
  have hshift : ∀ i : Fin 63, bit i.val <<< 1 = bit (i.val + 1) := by decide
  exact hshift ⟨i, h⟩

/-- and out of the mask at the top. -/
theorem bit_shift_top : bit 63 <<< 1 = 0 := by
  decide

/-- `current_mask <<= 1; if (!current_mask) current_mask = 1;` -/
theorem bit_wrap (u : Nat) :
    (if bit (u % 64) <<< 1 = 0 then (1 : UInt64) else bit (u % 64) <<< 1)
      = bit ((u + 1) % 64) := by
  have hlt : u % 64 < 64 := Nat.mod_lt u (by decide)
  by_cases htop : u % 64 = 63
  · have hnext : (u + 1) % 64 = 0 := by omega
    rw [htop, hnext, bit_shift_top, if_pos rfl]
    rfl
  · have hnext : (u + 1) % 64 = u % 64 + 1 := by omega
    have hne : bit (u % 64 + 1) ≠ 0 := by
      intro hzero
      have hpow := congrArg UInt64.toNat hzero
      rw [toNat_bit _ (by omega)] at hpow
      exact absurd hpow (Nat.pow_pos (by decide)).ne'
    rw [bit_shift (u % 64) (by omega), if_neg hne, hnext]

/-! ## One search -/

/-- The CPUs of a mask, counted around. -/
def Allowed (mask : UInt64) (u : Nat) : Prop :=
  mask.toNat.testBit (u % 64) = true

instance (mask : UInt64) : DecidablePred (Allowed mask) :=
  fun u => inferInstanceAs (Decidable (mask.toNat.testBit (u % 64) = true))

theorem allowed_periodic (mask : UInt64) : Function.Periodic (Allowed mask) 64 := by
  intro u
  unfold Allowed
  rw [Nat.add_mod_right]

theorem exists_allowed (mask : UInt64) (h : mask ≠ 0) : ∃ u, Allowed mask u := by
  obtain ⟨i, hi⟩ := Nat.exists_testBit_of_ne_zero fun hzero => h (UInt64.toNat_inj.mp hzero)
  have hlt : i < 64 := by
    by_contra hge
    have hsize : mask.toNat < 2 ^ i :=
      mask.toNat_lt.trans_le (Nat.pow_le_pow_right (by decide) (Nat.le_of_not_lt hge))
    rw [Nat.testBit_lt_two_pow hsize] at hi
    cases hi
  refine ⟨i, ?_⟩
  unfold Allowed
  rwa [Nat.mod_eq_of_lt hlt]

/-- The search goes on to the next CPU of the mask. -/
theorem searchMask_from (mask : UInt64) (t t' u rounds : Nat) (htu : t < u) (hut : u ≤ t')
    (hturn : u < t + 64) (hle : t' ≤ t + 64) (hrounds : t + 64 - u ≤ rounds)
    (hno : ∀ v, t < v → v < t' → ¬ Allowed mask v) (ht' : Allowed mask t') :
    searchMask mask (bit (t % 64)) rounds (bit (u % 64)) = some (bit (t' % 64)) := by
  induction rounds generalizing u with
  | zero => omega
  | succ rounds ih =>
      unfold searchMask
      by_cases hallowed : Allowed mask u
      · obtain rfl : u = t' := by
          by_contra hne
          exact hno u htu (by omega) hallowed
        rw [if_pos ((bit_and mask _ (Nat.mod_lt u (by decide))).mpr hallowed)]
      · have hlt : u < t' := by
          refine Nat.lt_of_le_of_ne hut ?_
          rintro rfl
          exact hallowed ht'
        rw [if_neg fun hand =>
          hallowed ((bit_and mask _ (Nat.mod_lt u (by decide))).mp hand)]
        dsimp only
        rw [bit_wrap]
        by_cases hback : u + 1 = t + 64
        · -- back at the bit it started from
          obtain rfl : t' = u + 1 := by omega
          rw [if_pos (by rw [hback, Nat.add_mod_right])]
        · have hne : bit ((u + 1) % 64) ≠ bit (t % 64) := by
            intro heq
            have hmod := bit_inj _ _ (Nat.mod_lt _ (by decide)) (Nat.mod_lt _ (by decide)) heq
            omega
          rw [if_neg hne]
          exact ih (u + 1) (by omega) hlt (by omega) (by omega)

/-- **A search ends at the next CPU of the mask**, within 65 rounds. -/
theorem searchMask_next (mask : UInt64) (hmask : mask ≠ 0) (t rounds : Nat) (h : 65 ≤ rounds) :
    searchMask mask (bit (t % 64)) rounds (bit (t % 64) <<< 1)
      = some (bit (RoundRobin.next (Allowed mask) t % 64)) := by
  have hp := allowed_periodic mask
  have hex := exists_allowed mask hmask
  have hlt := RoundRobin.lt_next (Allowed mask) 64 hp (by decide) hex t
  have hmem := RoundRobin.next_mem (Allowed mask) 64 hp (by decide) hex t
  have hturn := RoundRobin.next_le_turn (Allowed mask) 64 hp (by decide) hex t
  have hno : ∀ v, t < v → v < RoundRobin.next (Allowed mask) t → ¬ Allowed mask v :=
    fun v hv hv' hallowed => absurd
      (RoundRobin.next_le (Allowed mask) 64 hp (by decide) hex t v hv hallowed) (by omega)
  have hfrom := fun rounds' (hrounds : 64 ≤ rounds') =>
    searchMask_from mask t (RoundRobin.next (Allowed mask) t) (t + 1) rounds' (by omega) hlt
      (by omega) hturn (by omega) hno hmem
  by_cases htop : t % 64 = 63
  · -- the bit is shifted out, and comes back as the first one
    obtain ⟨rounds, rfl⟩ := Nat.exists_eq_add_of_le' (show 1 ≤ rounds by omega)
    have hfirst : (t + 1) % 64 = 0 := by omega
    have hback := hfrom rounds (by omega)
    rw [htop, hfirst] at hback
    rw [htop, bit_shift_top]
    unfold searchMask
    rw [if_neg (by simp)]
    exact hback
  · have hnext : (t + 1) % 64 = t % 64 + 1 := by omega
    rw [bit_shift _ (by omega), ← hnext]
    exact hfrom rounds (by omega)

/-! ## The workers -/

/-- The number of CPUs of a mask. -/
def cpuCount (mask : UInt64) : Nat :=
  ((List.range 64).filter fun i => mask.toNat.testBit i).length

/-- The search for a worker is over within 65 rounds for each id below. -/
def SearchEnds (mask : UInt64) (id : Nat) (found : UInt64) : Prop :=
  ∀ rounds, 65 ≤ rounds → currentMask mask rounds id = some found

/-- Both searches end with exactly one bit, of the process mask, and it is the same one exactly for
    ids that are congruent modulo the number of CPUs. -/
def CpuSelected (mask : UInt64) (id id' : Nat) : Prop :=
  ∃ found found', SearchEnds mask id found ∧ SearchEnds mask id' found'
    ∧ (∃ i < 64, found = bit i) ∧ (∃ i < 64, found' = bit i)
    ∧ found &&& mask = found ∧ found' &&& mask = found'
    ∧ (found = found' ↔ id ≡ id' [MOD cpuCount mask])

/-- The CPU that the search for a worker ends at. -/
noncomputable def place (mask : UInt64) (id : Nat) : Nat :=
  (RoundRobin.next (Allowed mask))^[id] 0 % 64

theorem place_lt (mask : UInt64) (id : Nat) : place mask id < 64 :=
  Nat.mod_lt _ (by decide)

theorem count_allowed (mask : UInt64) : Nat.count (Allowed mask) 64 = cpuCount mask := by
  unfold Nat.count cpuCount
  rw [List.countP_eq_length_filter]
  congr 1
  refine List.filter_congr fun i hi => ?_
  have hiff : Allowed mask i ↔ mask.toNat.testBit i = true := by
    unfold Allowed
    rw [Nat.mod_eq_of_lt (List.mem_range.mp hi)]
  rw [Bool.eq_iff_iff, decide_eq_true_iff]
  exact hiff

variable (mask : UInt64) (hmask : mask ≠ 0)

include hmask

/-- **Every search ends**, at the place the steps lead to. -/
theorem searchEnds_place (id : Nat) : SearchEnds mask id (bit (place mask id)) := by
  intro rounds h
  induction id with
  | zero => rfl
  | succ id ih =>
      unfold currentMask
      rw [ih, Option.bind_some, place, searchMask_next mask hmask _ rounds h, place,
        Function.iterate_succ_apply']

/-- From the second worker on, they take the CPUs of the mask in turn. -/
theorem place_succ (i : Nat) :
    place mask (i + 1)
      = Nat.nth (Allowed mask) (Nat.count (Allowed mask) 1 + i) % 64 := by
  rw [place, RoundRobin.iterate_next (Allowed mask) 64 (allowed_periodic mask) (by decide)
    (exists_allowed mask hmask)]

theorem allowed_succ (i : Nat) : mask.toNat.testBit (place mask (i + 1)) = true := by
  have hmem := Nat.nth_mem_of_infinite (RoundRobin.infinite (Allowed mask) 64
    (allowed_periodic mask) (by decide) (exists_allowed mask hmask))
    (Nat.count (Allowed mask) 1 + i)
  rw [place_succ mask hmask]
  exact hmem

/-- Where the first CPU is one of the mask, so do they all. -/
theorem place_allowed (h : Allowed mask 0) (id : Nat) :
    place mask id = Nat.nth (Allowed mask) id % 64 := by
  cases id with
  | zero =>
      rw [Nat.nth_zero_of_zero h]
      rfl
  | succ i =>
      have hone : Nat.count (Allowed mask) 1 = 1 := by rw [Nat.count_one, if_pos h]
      rw [place_succ mask hmask, hone, Nat.add_comm]

theorem place_eq_iff (id id' : Nat) (h : Allowed mask 0 ∨ 0 < id ∧ 0 < id') :
    place mask id = place mask id' ↔ id ≡ id' [MOD cpuCount mask] := by
  have hturns := RoundRobin.nth_modEq_iff (Allowed mask) 64 (allowed_periodic mask) (by decide)
    (exists_allowed mask hmask)
  rw [count_allowed] at hturns
  rcases h with hfirst | ⟨hid, hid'⟩
  · rw [place_allowed mask hmask hfirst, place_allowed mask hmask hfirst]
    exact hturns id id'
  · obtain ⟨i, rfl⟩ := Nat.exists_eq_add_of_le' hid
    obtain ⟨j, rfl⟩ := Nat.exists_eq_add_of_le' hid'
    rw [place_succ mask hmask, place_succ mask hmask]
    refine (hturns _ _).trans ⟨fun hmod => ?_, fun hmod => ?_⟩
    · exact (Nat.ModEq.add_left_cancel' _ hmod).add_right 1
    · exact (Nat.ModEq.add_right_cancel' 1 hmod).add_left _

omit hmask in
/-- A bit of the mask is left by it as it is. -/
theorem bit_and_eq_iff (i : Nat) (h : i < 64) :
    bit i &&& mask = bit i ↔ mask.toNat.testBit i = true := by
  rw [← UInt64.toNat_inj, UInt64.toNat_and, toNat_bit i h, Nat.two_pow_and]
  have hpos : 0 < 2 ^ i := Nat.pow_pos (by decide)
  cases mask.toNat.testBit i with
  | false => simp [hpos.ne]
  | true => simp

/-- **Every worker gets a CPU of the process, in turn, if the first CPU is one of them**, and
    otherwise every worker but the first one does. -/
theorem cpuSelected_iff (id id' : Nat) :
    CpuSelected mask id id' ↔ (mask.toNat.testBit 0 = true ∨ 0 < id ∧ 0 < id') := by
  have hin : ∀ id, Allowed mask 0 ∨ 0 < id → mask.toNat.testBit (place mask id) = true := by
    intro id h
    cases id with
    | zero => exact h.elim (fun hfirst => hfirst) fun hpos => absurd hpos (Nat.lt_irrefl 0)
    | succ i => exact allowed_succ mask hmask i
  constructor
  · rintro ⟨found, found', hends, hends', -, -, hfound, hfound', -⟩
    by_contra hneither
    rw [not_or, Decidable.not_and_iff_not_or_not] at hneither
    have hfirst : ∀ b, SearchEnds mask 0 b → b &&& mask = b → mask.toNat.testBit 0 = true := by
      intro b hb hand
      obtain rfl : bit 0 = b := Option.some.inj (hb 65 (Nat.le_refl _))
      exact (bit_and_eq_iff mask 0 (by decide)).mp hand
    rcases hneither.2 with hid | hid'
    · obtain rfl : id = 0 := by omega
      exact hneither.1 (hfirst found hends hfound)
    · obtain rfl : id' = 0 := by omega
      exact hneither.1 (hfirst found' hends' hfound')
  · intro h
    refine ⟨bit (place mask id), bit (place mask id'), searchEnds_place mask hmask id,
      searchEnds_place mask hmask id', ⟨_, place_lt mask id, rfl⟩, ⟨_, place_lt mask id', rfl⟩,
      (bit_and_eq_iff mask _ (place_lt mask id)).mpr (hin id (h.imp_right And.left)),
      (bit_and_eq_iff mask _ (place_lt mask id')).mpr (hin id' (h.imp_right And.right)), ?_⟩
    rw [← place_eq_iff mask hmask id id' h]
    exact ⟨bit_inj _ _ (place_lt mask id) (place_lt mask id'), congrArg bit⟩

omit hmask

theorem fourCpus_selected : CpuSelected 15 0 4 :=
  (cpuSelected_iff 15 (by decide) 0 4).mpr (.inl (by decide))

/-- With the second CPU only, the first worker asks for the first one. -/
theorem secondCpu_unselected : (2 : UInt64) ≠ 0 ∧ currentMask 2 65 0 = some 1
    ∧ (1 : UInt64) &&& 2 = 0 ∧ ¬ CpuSelected 2 0 0 := by
  refine ⟨by decide, rfl, by decide, ?_⟩
  rintro ⟨found, found', hends, -, -, -, hfound, -⟩
  obtain rfl : 1 = found := Option.some.inj (hends 65 (Nat.le_refl _))
  exact absurd hfound (by decide)

end Hitsuji
