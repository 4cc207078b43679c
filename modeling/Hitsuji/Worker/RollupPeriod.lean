import Hitsuji.Worker.Interval

set_option autoImplicit false

/-! # The period of a rollup

`rollup_bar_t::Calculate` asks for one bar as wide as the interval, in a period moved by that width.
The width is a difference of signed times taken as `unsigned`; it is then added to either time and
the sum narrowed back to a signed time. So the period is the one meant as long as its end is a time
at all: the width and the closing time together stay below `2³¹`. -/

namespace Hitsuji

open ByteBuffer UrlParse

variable {α : Type}

/-! ## The cursor -/

/-- What `rollup_bar_t::Calculate` gives to `FlexRecReader::Open`. -/
structure RollupCursor where
  width : UInt32
  lower : Int32
  upper : Int32

/-- `width`, `width + from` and `width + till`. -/
def rollupCursor (lo till : Int32) : RollupCursor where
  width := (till - lo + 1).toUInt32
  lower := ((till - lo + 1).toUInt32 + lo.toUInt32).toInt32
  upper := ((till - lo + 1).toUInt32 + till.toUInt32).toInt32

/-- What `FlexRecReader::Open` is given for the times of a bar. -/
def RollupBar.cursor (b : RollupBar α) (notADateTime : Int32) : RollupCursor :=
  rollupCursor (b.times.period notADateTime).1 (b.times.period notADateTime).2

/-- The bar after the records of an open cursor, if it could be opened. -/
def RollupBar.iterate [LinearOrder α] (b : RollupBar α) :
    Option (List (BarRecord α)) → Bool × RollupBar α
  | none => (false, b)
  | some records => (true, records.foldl RollupBar.add b)

/-- `Calculate` opens one cursor, and iterates through what it gives. -/
theorem RollupBar.calculate_cursor [LinearOrder α] (db : FlexRecords α) (b : RollupBar α)
    (symbol : Bytes) :
    b.calculate db symbol
      = b.iterate (db.rollups symbol (b.cursor db.notADateTime).width
        (b.cursor db.notADateTime).lower (b.cursor db.notADateTime).upper) := by
  unfold RollupBar.calculate RollupBar.iterate
  rfl

/-! ## Exactness -/

/-- The width and the bounds are the integers meant, and the period is not reversed. -/
structure RollupCursor.Exact (c : RollupCursor) (openTime closeTime : Int32) : Prop where
  width_eq : (c.width.toNat : Int) = closeTime.toInt - openTime.toInt + 1
  width_pos : 0 < c.width.toNat
  lower_eq : c.lower.toInt = c.width.toNat + openTime.toInt
  upper_eq : c.upper.toInt = c.width.toNat + closeTime.toInt
  ordered : c.lower ≤ c.upper

/-- A time from 1970 on is not changed by the conversion to `unsigned`. -/
theorem toNat_toUInt32_of_nonneg (time : Int32) (h : 0 ≤ time) :
    (time.toUInt32.toNat : Int) = time.toInt := by
  rw [Int32.toNat_toUInt32_of_le h]
  exact Int.toNat_of_nonneg (Int32.le_iff_toInt_le.mp h)

/-- Narrowing to a signed time keeps the value of what is below `2³¹`. -/
theorem toInt_toInt32 (x : UInt32) :
    x.toInt32.toInt = if x.toNat < 2147483648 then (x.toNat : Int) else x.toNat - 4294967296 := by
  have hvalue : x.toInt32.toInt = x.toBitVec.toInt := rfl
  have hnat : x.toBitVec.toNat = x.toNat := rfl
  rw [hvalue, BitVec.toInt_eq_toNat_cond, hnat]
  split <;> split <;> omega

/-- The sum of the width and a time, when neither is negative. -/
theorem toInt_width_add (width : UInt32) (time : Int32) (h : 0 ≤ time)
    (hwidth : width.toNat ≤ 2147483648) :
    (width + time.toUInt32).toInt32.toInt
      = if (width.toNat : Int) + time.toInt < 2147483648 then (width.toNat : Int) + time.toInt
        else width.toNat + time.toInt - 4294967296 := by
  have htime := toNat_toUInt32_of_nonneg time h
  have hmax := time.toInt_lt
  rw [toInt_toInt32, UInt32.toNat_add]
  rw [Nat.mod_eq_of_lt (by omega)]
  split <;> split <;> omega

/-- The width is right even where the signed difference overflows. -/
theorem rollupCursor_width (openTime closeTime : Int32) (hopen : 0 ≤ openTime)
    (hle : openTime ≤ closeTime) :
    ((rollupCursor openTime closeTime).width.toNat : Int)
      = closeTime.toInt - openTime.toInt + 1 := by
  have hclose : 0 ≤ closeTime := Int32.le_trans hopen hle
  have hopenNat := toNat_toUInt32_of_nonneg openTime hopen
  have hcloseNat := toNat_toUInt32_of_nonneg closeTime hclose
  have hmax := closeTime.toInt_lt
  have hle' : openTime.toInt ≤ closeTime.toInt := Int32.le_iff_toInt_le.mp hle
  have hsub : openTime.toUInt32 ≤ closeTime.toUInt32 := UInt32.le_iff_toNat_le.mpr (by omega)
  show (((closeTime - openTime + 1).toUInt32).toNat : Int) = _
  rw [Int32.toUInt32_add, Int32.toUInt32_sub, UInt32.toNat_add, UInt32.toNat_sub_of_le _ _ hsub]
  have hone : (1 : Int32).toUInt32.toNat = 1 := rfl
  rw [hone, Nat.mod_eq_of_lt (by omega)]
  omega

/-- The period is the one meant exactly as long as its end is a signed 32-bit time. -/
theorem rollupCursor_exact_iff (openTime closeTime : Int32) (hopen : 0 ≤ openTime)
    (hle : openTime ≤ closeTime) :
    (rollupCursor openTime closeTime).Exact openTime closeTime
      ↔ 2 * closeTime.toInt - openTime.toInt + 1 ≤ 2147483647 := by
  have hwidth := rollupCursor_width openTime closeTime hopen hle
  have hopen' : 0 ≤ openTime.toInt := Int32.le_iff_toInt_le.mp hopen
  have hle' : openTime.toInt ≤ closeTime.toInt := Int32.le_iff_toInt_le.mp hle
  have hmax := closeTime.toInt_lt
  have hlower : (rollupCursor openTime closeTime).lower.toInt = _ :=
    toInt_width_add (rollupCursor openTime closeTime).width openTime hopen (by omega)
  have hupper : (rollupCursor openTime closeTime).upper.toInt = _ :=
    toInt_width_add (rollupCursor openTime closeTime).width closeTime (Int32.le_trans hopen hle)
      (by omega)
  constructor
  · intro hexact
    have hend := hexact.upper_eq
    rw [hupper] at hend
    split at hend <;> omega
  · intro hfits
    rw [if_pos (by omega)] at hlower hupper
    refine ⟨hwidth, by omega, hlower, hupper, ?_⟩
    rw [Int32.le_iff_toInt_le, hlower, hupper]
    omega

/-- **The period of a rollup is the one meant exactly as long as its end is a time.** -/
theorem rollup_period_iff [LinearOrder α] (db : FlexRecords α) (b : RollupBar α) (symbol : Bytes)
    (openTime closeTime : Int32) (hopenTime : b.times.openTime = some openTime)
    (hcloseTime : b.times.closeTime = some closeTime) (hopen : 0 ≤ openTime)
    (hle : openTime ≤ closeTime) :
    b.calculate db symbol = b.iterate (db.rollups symbol (b.cursor db.notADateTime).width
        (b.cursor db.notADateTime).lower (b.cursor db.notADateTime).upper)
      ∧ ((b.cursor db.notADateTime).Exact openTime closeTime
        ↔ 2 * closeTime.toInt - openTime.toInt + 1 ≤ 2147483647) := by
  refine ⟨b.calculate_cursor db symbol, ?_⟩
  have hcursor : b.cursor db.notADateTime = rollupCursor openTime closeTime := by
    simp only [RollupBar.cursor, Times.period, toUnixEpoch, hopenTime, hcloseTime,
      Option.getD_some]
  rw [hcursor]
  exact rollupCursor_exact_iff openTime closeTime hopen hle

section Replay

set_option maxRecDepth 20000

theorem hour_exact : ((RollupBar.mk (α := ℚ) ⟨[], some 0, some 3600⟩ .init .init .init .init 0
    0).cursor (-1)).Exact 0 3600 :=
  (rollup_period_iff noRecords ⟨⟨[], some 0, some 3600⟩, .init, .init, .init, .init, 0, 0⟩ []
    0 3600 rfl rfl (by decide) (by decide)).2.mpr (by decide)

/-- From 1970 to 2017: the period would end in 2065, and ends in 1928. -/
theorem decades_reversed :
    requestedInterval (ascii "u?open=0&close=1500000000#rollup") = some (0, 1500000000)
      ∧ ∃ w' b, freshWorker.prepare noRecords (ascii "u?open=0&close=1500000000#rollup")
          = .calculate w' (.rollupBar b)
        ∧ b.cursor noRecords.notADateTime = ⟨1500000001, 1500000001, -1294967295⟩
        ∧ ¬ (b.cursor noRecords.notADateTime).Exact 0 1500000000 := by
  refine ⟨by decide +kernel, _, _, rfl, rfl, fun hexact => ?_⟩
  have hordered := hexact.ordered
  exact absurd hordered (by decide +kernel)

end Replay

/-! ## The requests -/

/-- A rollup that is calculated for a request has the times that the request asks for. -/
theorem rollup_times (w w' : Worker) (db : FlexRecords ℚ) (itemName : Bytes) (a : Analytic)
    (openTime closeTime : Int32) (hrouted : routedTo itemName = some .rollupBar)
    (hinterval : requestedInterval itemName = some (openTime, closeTime))
    (hcalculate : w.prepare db itemName = .calculate w' a) :
    ∃ b, a = .rollupBar b ∧ b.cursor db.notADateTime = rollupCursor openTime closeTime := by
  obtain ⟨w₁, -, hprepare⟩ := prepare_eq w db itemName .rollupBar hrouted
  have ha := prepareSymbol_calculate w₁ w' db _ _ a (hprepare ▸ hcalculate)
  obtain ⟨b, rfl⟩ : ∃ b, a = .rollupBar b := by
    rw [ha]
    cases (parseStandardURL (ascii "null://localhost/" ++ itemName)).query with
    | none => exact ⟨_, rfl⟩
    | some query => exact ⟨_, rfl⟩
  refine ⟨b, rfl, ?_⟩
  have hvalidated := (intervalValidated_iff w db itemName .rollupBar hrouted (by decide)).mpr
    (by rw [hinterval]; rfl)
  unfold IntervalValidated at hvalidated
  rw [hinterval] at hvalidated
  have hperiod : b.times.period db.notADateTime = (openTime, closeTime) :=
    Option.some.inj (hvalidated w' (.rollupBar b) hcalculate)
  rw [RollupBar.cursor, hperiod]

end Hitsuji
