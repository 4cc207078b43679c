import Hitsuji.Provider.StatusClose
import Hitsuji.Vta.Accumulators
import Hitsuji.Worker.UrlParse
import Mathlib.Data.Rat.Floor

set_option autoImplicit false

/-! # The analytics

`bar_t`, `rollup_bar_t`, `close_t` and `test_t`, each with its request parameters, its accumulators
and the fields it publishes. The accumulating part is generic in the price; the published mantissas
are those of exact rationals.

What the FlexRecord API answers is `FlexRecords`, a function of what it is asked for: one state of
the database. -/

namespace Hitsuji

open ByteBuffer UrlParse Accumulators

/-! ## Rounding -/

namespace Rounding

/-- `rounding::round_half_up` -/
def roundHalfUp (x : ℚ) : Int :=
  ⌊x + 1 / 2⌋

/-- `rounding::mantissa` -/
def mantissa (x : ℚ) : Int64 :=
  Int64.ofInt (roundHalfUp (x * 10000))

/-- `rounding::hint` -/
def hint : RealHint := .exponent_4

end Rounding

/-! ## Request parameters -/

/-- `isspace` in the C locale. -/
def isSpace (ch : UInt8) : Bool :=
  ch = 32 || (9 ≤ ch && ch ≤ 13)

/-- `isdigit` -/
def isDigit (ch : UInt8) : Bool :=
  code '0' ≤ ch && ch ≤ code '9'

/-- The value of a run of digits. -/
def digitsValue (digits : Bytes) : Nat :=
  digits.foldl (fun total ch => 10 * total + (ch.toNat - 48)) 0

/-- `std::atol`, which stops at `LONG_MIN` and `LONG_MAX`; `long` has 32 bits. -/
def atol (s : Bytes) : Int32 :=
  let s := s.dropWhile isSpace
  let negative := decide (s.head? = some (code '-'))
  let digits := if negative ∨ s.head? = some (code '+') then s.tail else s
  let magnitude : Int := digitsValue (digits.takeWhile isDigit)
  if negative then Int32.ofInt (max (-magnitude) (-2147483648))
  else Int32.ofInt (min magnitude 2147483647)

/-- `open_time_` and `close_time_`, and `value_` in which a value gets its terminator. A time comes
    from `from_time_t`; `none` is `not_a_date_time`. -/
structure Times where
  value : Bytes
  openTime : Option Int32
  closeTime : Option Int32

/-- As the constructor leaves them. -/
def Times.init : Times :=
  ⟨[], none, none⟩

/-- The part of `Reset` about the parameters; `value_` stays. -/
def Times.reset (t : Times) : Times :=
  { t with openTime := none, closeTime := none }

/-- `kOpenParameter` -/
def kOpenParameter : Bytes := ascii "open"

/-- `kCloseParameter` -/
def kCloseParameter : Bytes := ascii "close"

/-- One round of the loop in `ParseRequest`. -/
def Times.parsePair (url : Bytes) (t : Times) (pair : Component × Component) : Times :=
  let key := pair.1.text url
  let value := pair.2.text url
  if key = kOpenParameter then { t with value, openTime := some (atol value) }
  else if key = kCloseParameter then { t with value, closeTime := some (atol value) }
  else { t with value }

/-- `ParseRequest` of the three analytics that take parameters; it never fails. -/
def Times.parseRequest (t : Times) (url : Bytes) (query : Component) : Times :=
  (queryPairs url query.len query).foldl (Times.parsePair url) t

/-- `internal::to_unix_epoch`; the seconds of `not_a_date_time` are left to Boost. -/
def toUnixEpoch (notADateTime : Int32) (time : Option Int32) : Int32 :=
  time.getD notADateTime

/-! ## The database -/

/-- A record of `Trade`. -/
structure Tick (α : Type) where
  lastPrice : α
  tickVolume : UInt64

/-- A record of `TradeBarRollupFrom1Minute`. -/
structure BarRecord (α : Type) where
  openPrice : α
  closePrice : α
  highPrice : α
  lowPrice : α
  tickVolume : UInt64
  tickCount : UInt32

/-- What `GetFlexRecords` does for permission data: the `Permission` field it calls back with, if
    there is a record, and whether it raises an exception. -/
structure PermData where
  delivered : Option Bytes
  raises : Bool

/-- The answers of the FlexRecord API and of `TBPrimitives`, by symbol and period. A cursor that
    cannot be opened is `none`. -/
structure FlexRecords (α : Type) where
  isSymbolExists : Bytes → Bool
  permData : Bytes → PermData
  /-- `Trade`, forward, no limit -/
  trades : Bytes → Int32 → Int32 → Option (List (Tick α))
  /-- `Trade`, newest to oldest, limit 1 -/
  newestTrade : Bytes → Int32 → Int32 → Option (List α)
  /-- `TradeBarRollupFrom1Minute` with the property `width`, forward, no limit -/
  rollups : Bytes → UInt32 → Int32 → Int32 → Option (List (BarRecord α))
  /-- the seconds `total_seconds` gives for `not_a_date_time` -/
  notADateTime : Int32

/-! ## Published fields -/

/-- A price field, blank without trades. -/
def priceField (numberTrades : UInt64) (price : ℚ) : Value :=
  if numberTrades = 0 then .blankReal else .real (Rounding.mantissa price) Rounding.hint

/-- `ACVOL_1`: up to seven bytes as they are. -/
def volumeField (accumulatedVolume : UInt64) : Value :=
  if accumulatedVolume ≤ 0xFFFFFFFFFFFFFF then .real accumulatedVolume.toInt64 .exponent0
  else .doubleToReal accumulatedVolume .exponent7

/-- `NUM_MOVES` -/
def countField (numberTrades : UInt64) : Value :=
  .real numberTrades.toInt64 .exponent0

/-- The six fields of a bar: `HIGH_1`, `LOW_1`, `OPEN_PRC`, `HST_CLOSE`, `ACVOL_1`, `NUM_MOVES`. -/
def barFields (highPrice lowPrice openPrice closePrice : ℚ)
    (accumulatedVolume numberTrades : UInt64) : List (Int × Value) :=
  [(12, priceField numberTrades highPrice),
    (13, priceField numberTrades lowPrice),
    (19, priceField numberTrades openPrice),
    (21, priceField numberTrades closePrice),
    (32, volumeField accumulatedVolume),
    (77, countField numberTrades)]

variable {α : Type}

/-! ## `bar_t` -/

/-- `vta::bar_t` -/
structure Bar (α : Type) where
  times : Times
  first : FirstImpl α
  last : LastImpl α
  max : MaxImpl α
  min : MinImpl α
  count : UInt64
  tickVolume : UInt64

/-- As the constructor leaves it. -/
def Bar.init [Zero α] : Bar α :=
  ⟨.init, .init, .init, .init, .init, 0, 0⟩

/-- `bar_t::Reset` -/
def Bar.reset [Zero α] (b : Bar α) : Bar α :=
  { (Bar.init : Bar α) with times := b.times.reset }

/-- `bar_t::ParseRequest` -/
def Bar.parseRequest (b : Bar α) (url : Bytes) (query : Component) : Bar α :=
  { b with times := b.times.parseRequest url query }

/-- `last_price_ (last_price); tick_volume_ (tick_volume);` -/
def Bar.add [LinearOrder α] (b : Bar α) (tick : Tick α) : Bar α where
  times := b.times
  first := b.first.add tick.lastPrice
  last := b.last.add tick.lastPrice
  max := b.max.add tick.lastPrice
  min := b.min.add tick.lastPrice
  count := b.count + 1
  tickVolume := b.tickVolume + tick.tickVolume

/-- `bar_t::Calculate` by symbol name. -/
def Bar.calculate [LinearOrder α] (db : FlexRecords α) (b : Bar α) (symbol : Bytes) :
    Bool × Bar α :=
  let lo := toUnixEpoch db.notADateTime b.times.openTime
  let till := toUnixEpoch db.notADateTime b.times.closeTime
  match db.trades symbol lo till with
  | none => (false, b)
  | some ticks => (true, ticks.foldl Bar.add b)

/-- The fields of `bar_t::WriteRaw`. -/
def Bar.fields (b : Bar ℚ) : List (Int × Value) :=
  barFields (b.max.max.getD 0) (b.min.min.getD 0) b.first.first b.last.last b.tickVolume b.count

/-! ## `rollup_bar_t` -/

/-- `vta::rollup_bar_t` -/
structure RollupBar (α : Type) where
  times : Times
  openPrice : FirstImpl α
  closePrice : LastImpl α
  highPrice : MaxImpl α
  lowPrice : MinImpl α
  tickVolume : UInt64
  numMoves : UInt64

/-- As the constructor leaves it. -/
def RollupBar.init [Zero α] : RollupBar α :=
  ⟨.init, .init, .init, .init, .init, 0, 0⟩

/-- `rollup_bar_t::Reset` -/
def RollupBar.reset [Zero α] (b : RollupBar α) : RollupBar α :=
  { (RollupBar.init : RollupBar α) with times := b.times.reset }

/-- `rollup_bar_t::ParseRequest` -/
def RollupBar.parseRequest (b : RollupBar α) (url : Bytes) (query : Component) : RollupBar α :=
  { b with times := b.times.parseRequest url query }

/-- The accumulators take a one minute bar. -/
def RollupBar.add [LinearOrder α] (b : RollupBar α) (record : BarRecord α) : RollupBar α where
  times := b.times
  openPrice := b.openPrice.add record.openPrice
  closePrice := b.closePrice.add record.closePrice
  highPrice := b.highPrice.add record.highPrice
  lowPrice := b.lowPrice.add record.lowPrice
  tickVolume := b.tickVolume + record.tickVolume
  numMoves := b.numMoves + record.tickCount.toUInt64

/-- `rollup_bar_t::Calculate` by symbol name; the period is moved by the width of the bar. -/
def RollupBar.calculate [LinearOrder α] (db : FlexRecords α) (b : RollupBar α) (symbol : Bytes) :
    Bool × RollupBar α :=
  let lo := toUnixEpoch db.notADateTime b.times.openTime
  let till := toUnixEpoch db.notADateTime b.times.closeTime
  let width := (till - lo + 1).toUInt32
  -- `int` and `unsigned` mixed: the sums are taken modulo 2³² and narrowed again
  match db.rollups symbol width (width + lo.toUInt32).toInt32 (width + till.toUInt32).toInt32 with
  | none => (false, b)
  | some records => (true, records.foldl RollupBar.add b)

/-- The fields of `rollup_bar_t::WriteRaw`. -/
def RollupBar.fields (b : RollupBar ℚ) : List (Int × Value) :=
  barFields (b.highPrice.max.getD 0) (b.lowPrice.min.getD 0) b.openPrice.first b.closePrice.last
    b.tickVolume b.numMoves

/-! ## `close_t` -/

/-- `vta::close_t` -/
structure Close (α : Type) where
  times : Times
  first : FirstImpl α
  count : UInt64

/-- As the constructor leaves it. -/
def Close.init [Zero α] : Close α :=
  ⟨.init, .init, 0⟩

/-- `close_t::Reset` -/
def Close.reset [Zero α] (b : Close α) : Close α :=
  { (Close.init : Close α) with times := b.times.reset }

/-- `close_t::ParseRequest` -/
def Close.parseRequest (b : Close α) (url : Bytes) (query : Component) : Close α :=
  { b with times := b.times.parseRequest url query }

/-- `last_price_ (last_price);` -/
def Close.add (b : Close α) (lastPrice : α) : Close α where
  times := b.times
  first := b.first.add lastPrice
  count := b.count + 1

/-- `close_t::Calculate` by symbol name. -/
def Close.calculate (db : FlexRecords α) (b : Close α) (symbol : Bytes) : Bool × Close α :=
  let lo := toUnixEpoch db.notADateTime b.times.openTime
  let till := toUnixEpoch db.notADateTime b.times.closeTime
  match db.newestTrade symbol lo till with
  | none => (false, b)
  | some prices => (true, prices.foldl Close.add b)

/-- The field of `close_t::WriteRaw`, `HST_CLOSE`. -/
def Close.fields (b : Close ℚ) : List (Int × Value) :=
  [(21, priceField b.count b.first.first)]

/-! ## `test_t` -/

/-- The fields of `test_t::WriteRaw`: `PROD_PERM`, `PREF_DISP`, `BKGD_REF`, `GV1_TEXT`, `GV2_TEXT`,
    `PRIMACT_1`, `SEC_ACT_1`, `CTBTR_1`, `CTB_LOC1`, `CTB_PAGE1`, `DLG_CODE1`. -/
def testFields : List (Int × Value) :=
  [(1, .uint 213),
    (1080, .uint 6205),
    (967, .asciiString (ascii "Japanese Yen")),
    (1000, .rmtesString (ascii "SPOT")),
    (1001, .rmtesString (ascii "USDJPY")),
    (393, .real (Rounding.mantissa (8220 / 100)) Rounding.hint),
    (275, .real (Rounding.mantissa (8222 / 100)) Rounding.hint),
    (831, .rmtesString (ascii "RBS")),
    (836, .rmtesString (ascii "XST")),
    (841, .rmtesString (ascii "1RBS")),
    (826, .rmtesString (ascii "RBSN"))]

/-! ## `intraday_t` -/

/-- The implementations a request can select. -/
inductive Selection where
  | bar
  | test
  | rollupBar
  | close
  deriving DecidableEq

/-- An object behind the `intraday_t` interface. -/
inductive Analytic where
  | bar (b : Bar ℚ)
  | test
  | rollupBar (b : RollupBar ℚ)
  | close (b : Close ℚ)

/-- A newly constructed implementation. -/
def Selection.init : Selection → Analytic
  | .bar => .bar .init
  | .test => .test
  | .rollupBar => .rollupBar .init
  | .close => .close .init

namespace Analytic

/-- Which implementation it is. -/
def selection : Analytic → Selection
  | .bar _ => .bar
  | .test => .test
  | .rollupBar _ => .rollupBar
  | .close _ => .close

/-- `Reset` -/
def reset : Analytic → Analytic
  | .bar b => .bar b.reset
  | .test => .test
  | .rollupBar b => .rollupBar b.reset
  | .close b => .close b.reset

/-- `ParseRequest`, which returns true in every implementation. -/
def parseRequest (url : Bytes) (query : Component) : Analytic → Bool × Analytic
  | .bar b => (true, .bar (b.parseRequest url query))
  | .test => (true, .test)
  | .rollupBar b => (true, .rollupBar (b.parseRequest url query))
  | .close b => (true, .close (b.parseRequest url query))

/-- `Calculate` by symbol name. -/
def calculate (db : FlexRecords ℚ) (symbol : Bytes) : Analytic → Bool × Analytic
  | .bar b => (b.calculate db symbol).map id .bar
  | .test => (true, .test)
  | .rollupBar b => (b.calculate db symbol).map id .rollupBar
  | .close b => (b.calculate db symbol).map id .close

/-- The fields `WriteRaw` publishes. -/
def fields : Analytic → List (Int × Value)
  | .bar b => b.fields
  | .test => testFields
  | .rollupBar b => b.fields
  | .close b => b.fields

/-- `test_t::WriteRaw` ignores the DACS lock. -/
def attachesLock (a : Analytic) : Bool :=
  a.selection ≠ .test

end Analytic

/-! ## What an analytic remembers -/

/-- Without the scratch string. -/
def Times.forget (t : Times) : Times :=
  { t with value := [] }

/-- Parsing overwrites the scratch string before it reads it. -/
theorem forget_parseTimes (t : Times) (url : Bytes) (query : Component) :
    (t.forget.parseRequest url query).forget = (t.parseRequest url query).forget := by
  unfold Times.parseRequest
  cases queryPairs url query.len query with
  | nil => rfl
  | cons pair rest =>
      -- after the first pair nothing is left of the old string
      have hpair : Times.parsePair url t.forget pair = Times.parsePair url t pair := rfl
      rw [List.foldl_cons, List.foldl_cons, hpair]

namespace Analytic

/-- Without the scratch string. -/
def forget : Analytic → Analytic
  | .bar b => .bar { b with times := b.times.forget }
  | .test => .test
  | .rollupBar b => .rollupBar { b with times := b.times.forget }
  | .close b => .close { b with times := b.times.forget }

/-- **`Reset` leaves a newly constructed implementation**, but for the scratch string. -/
theorem forget_reset (a : Analytic) : a.reset.forget = a.selection.init := by
  cases a <;> rfl

/-- Two implementations that differ in their scratch string only. -/
def Alike (a a' : Analytic) : Prop :=
  a.forget = a'.forget

theorem alike_fields (a a' : Analytic) (h : a.Alike a') :
    a.fields = a'.fields ∧ a.attachesLock = a'.attachesLock := by
  have hforget : ∀ a : Analytic,
      a.forget.fields = a.fields ∧ a.forget.attachesLock = a.attachesLock := by
    intro a
    cases a <;> exact ⟨rfl, rfl⟩
  rw [← (hforget a).1, ← (hforget a).2, ← (hforget a').1, ← (hforget a').2, h]
  exact ⟨rfl, rfl⟩

/-- A method that commutes with forgetting keeps implementations alike. -/
theorem alike_of_forget (f : Analytic → Bool × Analytic)
    (hf : ∀ a : Analytic, (f a.forget).1 = (f a).1 ∧ (f a.forget).2.Alike (f a).2)
    (a a' : Analytic) (h : a.Alike a') : (f a).1 = (f a').1 ∧ (f a).2.Alike (f a').2 := by
  obtain ⟨hret, halike⟩ := hf a
  obtain ⟨hret', halike'⟩ := hf a'
  rw [h] at hret halike
  exact ⟨hret.symm.trans hret', halike.symm.trans halike'⟩

theorem alike_parseRequest (a a' : Analytic) (h : a.Alike a') (url : Bytes) (query : Component) :
    (a.parseRequest url query).1 = (a'.parseRequest url query).1
      ∧ (a.parseRequest url query).2.Alike (a'.parseRequest url query).2 := by
  refine alike_of_forget (parseRequest url query) (fun a => ?_) a a' h
  cases a with
  | test => exact ⟨rfl, rfl⟩
  | bar b =>
      refine ⟨rfl, ?_⟩
      simp only [Alike, forget, parseRequest, Bar.parseRequest, forget_parseTimes]
  | rollupBar b =>
      refine ⟨rfl, ?_⟩
      simp only [Alike, forget, parseRequest, RollupBar.parseRequest, forget_parseTimes]
  | close b =>
      refine ⟨rfl, ?_⟩
      simp only [Alike, forget, parseRequest, Close.parseRequest, forget_parseTimes]

theorem alike_ticks (ticks : List (Tick ℚ)) (b : Bar ℚ) :
    (bar (ticks.foldl Bar.add { b with times := b.times.forget })).Alike
      (bar (ticks.foldl Bar.add b)) := by
  induction ticks generalizing b with
  | nil => rfl
  | cons tick rest ih => exact ih (b.add tick)

theorem alike_records (records : List (BarRecord ℚ)) (b : RollupBar ℚ) :
    (rollupBar (records.foldl RollupBar.add { b with times := b.times.forget })).Alike
      (rollupBar (records.foldl RollupBar.add b)) := by
  induction records generalizing b with
  | nil => rfl
  | cons record rest ih => exact ih (b.add record)

theorem alike_prices (prices : List ℚ) (b : Close ℚ) :
    (close (prices.foldl Close.add { b with times := b.times.forget })).Alike
      (close (prices.foldl Close.add b)) := by
  induction prices generalizing b with
  | nil => rfl
  | cons price rest ih => exact ih (b.add price)

theorem alike_calculate (db : FlexRecords ℚ) (a a' : Analytic) (h : a.Alike a') (symbol : Bytes) :
    (a.calculate db symbol).1 = (a'.calculate db symbol).1
      ∧ (a.calculate db symbol).2.Alike (a'.calculate db symbol).2 := by
  refine alike_of_forget (fun a => a.calculate db symbol) (fun a => ?_) a a' h
  cases a with
  | test => exact ⟨rfl, rfl⟩
  | bar b =>
      simp only [forget, calculate, Bar.calculate, Times.forget]
      split
      · exact ⟨rfl, rfl⟩
      · next ticks _ => exact ⟨rfl, alike_ticks ticks b⟩
  | rollupBar b =>
      simp only [forget, calculate, RollupBar.calculate, Times.forget]
      split
      · exact ⟨rfl, rfl⟩
      · next records _ => exact ⟨rfl, alike_records records b⟩
  | close b =>
      simp only [forget, calculate, Close.calculate, Times.forget]
      split
      · exact ⟨rfl, rfl⟩
      · next prices _ => exact ⟨rfl, alike_prices prices b⟩

end Analytic

end Hitsuji
