import Hitsuji.Vta.Agreement
import Mathlib.Algebra.Order.Round

set_option autoImplicit false

/-! # What a bar publishes

The fields of `bar_t` after any earlier use, a reset and any number of ticks: first, last, greatest
and least price, each rounded half up to four decimals, the sum of the volumes and the number of
ticks. The two counters are 64 bits wide, and "overflow not managed": the prices are blank whenever
the number of ticks is a multiple of 2⁶⁴. -/

namespace Hitsuji

open Accumulators

/-! ## Rounding -/

namespace Rounding

/-- The scaled mantissa of a price is an `int64_t`. -/
def Fits (x : ℚ) : Prop :=
  -2 ^ 63 ≤ roundHalfUp (x * 10000) ∧ roundHalfUp (x * 10000) < 2 ^ 63

/-- `round_half_up` is Mathlib's `round`. -/
theorem roundHalfUp_eq (x : ℚ) : roundHalfUp x = round x :=
  (round_eq x).symm

theorem roundHalfUp_mono (x y : ℚ) (h : x ≤ y) : roundHalfUp x ≤ roundHalfUp y :=
  Int.floor_le_floor (by linarith)

theorem mantissa_toInt (x : ℚ) (h : Fits x) : (mantissa x).toInt = roundHalfUp (x * 10000) :=
  Int64.toInt_ofInt_of_le h.1 h.2

/-- A mantissa is off by half a unit at most. -/
theorem mantissa_error (x : ℚ) (h : Fits x) : |((mantissa x).toInt : ℚ) - x * 10000| ≤ 1 / 2 := by
  rw [mantissa_toInt x h, roundHalfUp_eq, abs_sub_comm]
  exact abs_sub_round _

theorem mantissa_mono (x y : ℚ) (hx : Fits x) (hy : Fits y) (h : x ≤ y) :
    mantissa x ≤ mantissa y := by
  rw [Int64.le_iff_toInt_le, mantissa_toInt x hx, mantissa_toInt y hy]
  exact roundHalfUp_mono _ _ (by linarith)

end Rounding

/-! ## A bar over ticks -/

/-- What is to be published of `ticks`. -/
structure PublishesBar (ticks : List (Tick ℚ)) (fields : List (Int × Value)) : Prop where
  /-- without trades to tell of -/
  blank : ticks.length % 2 ^ 64 = 0 → ∀ id ∈ priceFieldIds, fields.lookup id = some .blankReal
  /-- `OPEN_PRC`, `HST_CLOSE`, `HIGH_1`, `LOW_1` -/
  prices : ticks.length % 2 ^ 64 ≠ 0 → ∃ openPrice closePrice highPrice lowPrice,
    (ticks.head?.map Tick.lastPrice = some openPrice
      ∧ ticks.getLast?.map Tick.lastPrice = some closePrice
      ∧ IsGreatest {x | x ∈ ticks.map Tick.lastPrice} highPrice
      ∧ IsLeast {x | x ∈ ticks.map Tick.lastPrice} lowPrice)
    ∧ (fields.lookup 19 = some (.real (Rounding.mantissa openPrice) Rounding.hint)
      ∧ fields.lookup 21 = some (.real (Rounding.mantissa closePrice) Rounding.hint)
      ∧ fields.lookup 12 = some (.real (Rounding.mantissa highPrice) Rounding.hint)
      ∧ fields.lookup 13 = some (.real (Rounding.mantissa lowPrice) Rounding.hint))
    ∧ (∀ x ∈ [openPrice, closePrice, highPrice, lowPrice],
        |((Rounding.mantissa x).toInt : ℚ) - x * 10000| ≤ 1 / 2)
    ∧ ∀ x ∈ [openPrice, closePrice],
        Rounding.mantissa lowPrice ≤ Rounding.mantissa x
          ∧ Rounding.mantissa x ≤ Rounding.mantissa highPrice
  /-- `ACVOL_1` -/
  volume : fields.lookup 32 = some (volumeField (ticks.map Tick.tickVolume).sum)
  /-- `NUM_MOVES` -/
  count : ∃ n : Int64, fields.lookup 77 = some (.real n .exponent0)
    ∧ n.toUInt64 = UInt64.ofNat ticks.length
    ∧ (ticks.length < 2 ^ 63 → n.toInt = ticks.length)

/-- The tick count wraps around at 2⁶⁴. -/
theorem count_foldl (b : Bar ℚ) (ticks : List (Tick ℚ)) :
    (ticks.foldl Bar.add b.reset).count = UInt64.ofNat ticks.length := by
  rw [foldl_add]
  exact UInt64.zero_add _

theorem count_eq_zero (b : Bar ℚ) (ticks : List (Tick ℚ)) :
    (ticks.foldl Bar.add b.reset).count = 0 ↔ ticks.length % 2 ^ 64 = 0 := by
  rw [count_foldl, ← UInt64.toNat_inj, UInt64.toNat_ofNat']
  rfl

/-- The four prices that a bar of at least one tick holds. -/
theorem prices_foldl (b : Bar ℚ) (tick : Tick ℚ) (rest : List (Tick ℚ)) :
    let bar := (tick :: rest).foldl Bar.add b.reset
    let prices := rest.map Tick.lastPrice
    bar.first.first = tick.lastPrice ∧ bar.last.last = prices.getLastD tick.lastPrice
      ∧ bar.max.max = some (prices.foldl max tick.lastPrice)
      ∧ bar.min.min = some (prices.foldl min tick.lastPrice) := by
  dsimp only
  rw [foldl_add, List.map_cons, first_add_block, last_add_block, max_add_block, min_add_block]
  exact ⟨rfl, rfl, rfl, rfl⟩

/-- **A bar publishes its ticks**, whatever it was used for before the reset. -/
theorem bar_published (b : Bar ℚ) (ticks : List (Tick ℚ))
    (hfits : ∀ tick ∈ ticks, Rounding.Fits tick.lastPrice) :
    PublishesBar ticks (ticks.foldl Bar.add b.reset).fields := by
  have hcount := count_foldl b ticks
  constructor
  · intro hzero id hid
    have hnone := (count_eq_zero b ticks).mpr hzero
    simp only [priceFieldIds, List.mem_cons, List.not_mem_nil, or_false] at hid
    simp only [Bar.fields, barFields, priceField, if_pos hnone]
    rcases hid with rfl | rfl | rfl | rfl <;> rfl
  · intro hsome
    have htrades : (ticks.foldl Bar.add b.reset).count ≠ 0 :=
      fun h => hsome ((count_eq_zero b ticks).mp h)
    cases ticks with
    | nil => exact absurd rfl hsome
    | cons tick rest =>
        obtain ⟨hfirst, hlast, hmax, hmin⟩ := prices_foldl b tick rest
        let prices := rest.map Tick.lastPrice
        have hgreatest := isGreatest_foldl_max tick.lastPrice prices
        have hleast := isLeast_foldl_min tick.lastPrice prices
        have hlastMem : prices.getLastD tick.lastPrice ∈ tick.lastPrice :: prices :=
          List.getLastD_mem_cons
        have hfit : ∀ x ∈ tick.lastPrice :: prices, Rounding.Fits x := by
          intro x hx
          have hmem : x ∈ (tick :: rest).map Tick.lastPrice := hx
          obtain ⟨t, ht, rfl⟩ := List.mem_map.mp hmem
          exact hfits t ht
        refine ⟨tick.lastPrice, prices.getLastD tick.lastPrice, prices.foldl max tick.lastPrice,
          prices.foldl min tick.lastPrice, ⟨rfl, ?_, hgreatest, hleast⟩, ?_, ?_, ?_⟩
        · rw [← List.getLast?_map, List.map_cons, List.getLast?_cons, List.getLastD_eq_getLast?]
        · simp only [Bar.fields, barFields, priceField, if_neg htrades, hfirst, hlast, hmax, hmin]
          exact ⟨rfl, rfl, rfl, rfl⟩
        · intro x hx
          refine Rounding.mantissa_error x (hfit x ?_)
          simp only [List.mem_cons, List.not_mem_nil, or_false] at hx
          rcases hx with rfl | rfl | rfl | rfl
          exacts [List.mem_cons_self, hlastMem, hgreatest.1, hleast.1]
        · intro x hx
          have hmem : x ∈ tick.lastPrice :: prices := by
            simp only [List.mem_cons, List.not_mem_nil, or_false] at hx
            rcases hx with rfl | rfl
            exacts [List.mem_cons_self, hlastMem]
          exact ⟨Rounding.mantissa_mono _ _ (hfit _ hleast.1) (hfit x hmem) (hleast.2 hmem),
            Rounding.mantissa_mono _ _ (hfit x hmem) (hfit _ hgreatest.1) (hgreatest.2 hmem)⟩
  · rw [foldl_add]
    change some (volumeField (0 + _)) = _
    rw [UInt64.zero_add]
  · refine ⟨(UInt64.ofNat ticks.length).toInt64, ?_, rfl, fun hlt => ?_⟩
    · rw [← hcount]
      rfl
    · exact Int64.toInt_ofNat_of_lt hlt

/-- A price of zero, a negative one and a tie between two mantissas. -/
def threeTicks : List (Tick ℚ) :=
  [⟨0, 100⟩, ⟨-1 / 20000, 200⟩, ⟨2, 300⟩]

theorem threeTicks_published :
    PublishesBar threeTicks (threeTicks.foldl Bar.add Bar.init.reset).fields
      ∧ (threeTicks.foldl Bar.add Bar.init.reset).fields.lookup 13
        = some (.real 0 Rounding.hint) := by
  refine ⟨bar_published .init threeTicks ?_, by decide +kernel⟩
  intro tick htick
  simp only [threeTicks, List.mem_cons, List.not_mem_nil, or_false] at htick
  rcases htick with rfl | rfl | rfl <;>
    norm_num [Rounding.Fits, Rounding.roundHalfUp]

/-- After 2⁶⁴ trades at 1 the bar says that there were none. -/
theorem fullCircle_blank :
    let ticks : List (Tick ℚ) := List.replicate (2 ^ 64) ⟨1, 1⟩
    (∀ tick ∈ ticks, Rounding.Fits tick.lastPrice) ∧ ticks ≠ []
      ∧ (ticks.foldl Bar.add Bar.init.reset).fields.lookup 19 = some .blankReal
      ∧ (ticks.foldl Bar.add Bar.init.reset).fields.lookup 77 = some (.real 0 .exponent0) := by
  intro ticks
  have hlength : ticks.length = 2 ^ 64 := List.length_replicate
  have hcount := (count_eq_zero .init ticks).mpr (by rw [hlength]; rfl)
  refine ⟨fun tick htick => ?_, fun hnil => ?_, ?_, ?_⟩
  · obtain rfl := List.eq_of_mem_replicate htick
    norm_num [Rounding.Fits, Rounding.roundHalfUp]
  · rw [hnil] at hlength
    exact absurd hlength (by decide)
  · simp only [Bar.fields, barFields, priceField, if_pos hcount]
    rfl
  · change some (countField (ticks.foldl Bar.add Bar.init.reset).count) = _
    rw [hcount]
    rfl

end Hitsuji
