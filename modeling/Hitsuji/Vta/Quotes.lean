import Hitsuji.Vta.Agreement

set_option autoImplicit false

/-! # What an analytic says

The analytics accumulate sample after sample into members they keep from request to request. What
they say in the end is a function of the samples: first, last, greatest and least price, volume and
number of moves of a period. `quote` is that function, and `calculate_quote` says that an
implementation without anything accumulated computes it. -/

namespace Hitsuji

open ByteBuffer UrlParse Accumulators

/-! ## Summaries -/

/-- A period in numbers; the prices of an empty one are zero. -/
structure Summary where
  openPrice : ℚ
  closePrice : ℚ
  highPrice : ℚ
  lowPrice : ℚ
  accumulatedVolume : UInt64
  numberTrades : UInt64

/-- The summary of trades. -/
def Summary.ofTrades (ticks : List (Tick ℚ)) : Summary where
  openPrice := (ticks.map Tick.lastPrice).head?.getD 0
  closePrice := (ticks.map Tick.lastPrice).getLast?.getD 0
  highPrice := (ticks.map Tick.lastPrice).max?.getD 0
  lowPrice := (ticks.map Tick.lastPrice).min?.getD 0
  accumulatedVolume := (ticks.map Tick.tickVolume).sum
  numberTrades := UInt64.ofNat ticks.length

/-- The summary of bars. -/
def Summary.ofBars (records : List (BarRecord ℚ)) : Summary where
  openPrice := (records.map BarRecord.openPrice).head?.getD 0
  closePrice := (records.map BarRecord.closePrice).getLast?.getD 0
  highPrice := (records.map BarRecord.highPrice).max?.getD 0
  lowPrice := (records.map BarRecord.lowPrice).min?.getD 0
  accumulatedVolume := (records.map BarRecord.tickVolume).sum
  numberTrades := (records.map fun record => record.tickCount.toUInt64).sum

/-- What is published of a summary. -/
def Summary.fields (s : Summary) : List (Int × Value) :=
  barFields s.highPrice s.lowPrice s.openPrice s.closePrice s.accumulatedVolume s.numberTrades

/-- What is published about a symbol from one time till another, if the database has an answer. A
    rollup is taken over the period of the same width that follows. -/
def quote (db : FlexRecords ℚ) (symbol : Bytes) (lo till : Int32) :
    Selection → Option (List (Int × Value))
  | .bar => (db.trades symbol lo till).map fun ticks => (Summary.ofTrades ticks).fields
  | .test => some testFields
  | .rollupBar =>
      (db.rollups symbol (till - lo + 1).toUInt32 (till + 1) (till + (till - lo + 1))).map
        fun records => (Summary.ofBars records).fields
  | .close =>
      (db.newestTrade symbol lo till).map fun prices =>
        [(21, priceField (UInt64.ofNat prices.length) (prices.head?.getD 0))]

/-! ## Accumulating from nothing -/

theorem first_summary (samples : List ℚ) :
    (samples.foldl FirstImpl.add .init).first = samples.head?.getD 0 := by
  cases samples with
  | nil => rfl
  | cons sample rest =>
      rw [first_add_block]
      rfl

theorem last_summary (samples : List ℚ) :
    (samples.foldl LastImpl.add .init).last = samples.getLast?.getD 0 := by
  cases samples with
  | nil => rfl
  | cons sample rest =>
      rw [last_add_block, List.getLast?_cons, List.getLastD_eq_getLast?]
      rfl

theorem max_summary (samples : List ℚ) :
    (samples.foldl MaxImpl.add .init).max = samples.max? := by
  cases samples with
  | nil => rfl
  | cons sample rest =>
      rw [max_add_block, List.max?_cons']
      rfl

theorem min_summary (samples : List ℚ) :
    (samples.foldl MinImpl.add .init).min = samples.min? := by
  cases samples with
  | nil => rfl
  | cons sample rest =>
      rw [min_add_block, List.min?_cons']
      rfl

/-- What `rollup_bar_t` accumulates over bars, one accumulator at a time. -/
theorem foldl_records (b : RollupBar ℚ) (records : List (BarRecord ℚ)) :
    records.foldl RollupBar.add b =
      { times := b.times
        openPrice := (records.map BarRecord.openPrice).foldl FirstImpl.add b.openPrice
        closePrice := (records.map BarRecord.closePrice).foldl LastImpl.add b.closePrice
        highPrice := (records.map BarRecord.highPrice).foldl MaxImpl.add b.highPrice
        lowPrice := (records.map BarRecord.lowPrice).foldl MinImpl.add b.lowPrice
        tickVolume := b.tickVolume + (records.map BarRecord.tickVolume).sum
        numMoves := b.numMoves + (records.map fun record => record.tickCount.toUInt64).sum } := by
  induction records generalizing b with
  | nil => simp
  | cons record rest ih =>
      rw [List.foldl_cons, ih]
      simp only [RollupBar.add, List.map_cons, List.foldl_cons, List.sum_cons, UInt64.add_assoc]

theorem foldl_prices (b : Close ℚ) (prices : List ℚ) :
    prices.foldl Close.add b =
      { times := b.times
        first := prices.foldl FirstImpl.add b.first
        count := b.count + UInt64.ofNat prices.length } := by
  induction prices generalizing b with
  | nil => simp
  | cons price rest ih =>
      rw [List.foldl_cons, ih]
      simp only [Close.add, List.foldl_cons, List.length_cons, UInt64.ofNat_add, UInt64.add_assoc,
        Close.mk.injEq, true_and]
      exact congrArg _ (UInt64.add_comm _ _)

/-! ## Calculating from nothing -/

/-- An implementation with its parameters set and nothing accumulated. -/
def Selection.at (selected : Selection) (t : Times) : Analytic :=
  match selected with
  | .bar => .bar { Bar.init with times := t }
  | .test => .test
  | .rollupBar => .rollupBar { RollupBar.init with times := t }
  | .close => .close { Close.init with times := t }

theorem at_init (selected : Selection) : selected.at .init = selected.init := by
  cases selected <;> rfl

theorem selection_at (selected : Selection) (t : Times) : (selected.at t).selection = selected := by
  cases selected <;> rfl

/-- Parsing a request sets the parameters, and is always successful. -/
theorem parseRequest_at (selected : Selection) (t : Times) (url : Bytes) (query : Component) :
    (selected.at t).parseRequest url query = (true, selected.at (t.parseRequest url query)) := by
  cases selected <;> rfl

/-- Calculating does not make it another implementation. -/
theorem selection_calculate (a : Analytic) (db : FlexRecords ℚ) (symbol : Bytes) :
    (a.calculate db symbol).2.selection = a.selection := by
  cases a <;> rfl

/-- The mixed sums of `rollup_bar_t` are the bounds of the period that follows. -/
theorem shifted_period (lo till : Int32) :
    ((till - lo + 1).toUInt32 + lo.toUInt32).toInt32 = till + 1
      ∧ ((till - lo + 1).toUInt32 + till.toUInt32).toInt32 = till + (till - lo + 1) := by
  rw [← Int32.toUInt32_add, ← Int32.toUInt32_add, Int32.toInt32_toUInt32, Int32.toInt32_toUInt32]
  refine ⟨?_, Int32.add_comm _ _⟩
  rw [Int32.add_assoc, Int32.add_comm 1 lo, ← Int32.add_assoc, Int32.sub_add_cancel]

theorem fields_trades (t : Times) (ticks : List (Tick ℚ)) :
    (ticks.foldl Bar.add { Bar.init with times := t }).fields
      = (Summary.ofTrades ticks).fields := by
  rw [foldl_add]
  simp only [Bar.fields, Summary.fields, Summary.ofTrades, Bar.init, first_summary, last_summary,
    max_summary, min_summary, UInt64.zero_add]

theorem fields_bars (t : Times) (records : List (BarRecord ℚ)) :
    (records.foldl RollupBar.add { RollupBar.init with times := t }).fields
      = (Summary.ofBars records).fields := by
  rw [foldl_records]
  simp only [RollupBar.fields, Summary.fields, Summary.ofBars, RollupBar.init, first_summary,
    last_summary, max_summary, min_summary, UInt64.zero_add]

theorem fields_prices (t : Times) (prices : List ℚ) :
    (prices.foldl Close.add { Close.init with times := t }).fields
      = [(21, priceField (UInt64.ofNat prices.length) (prices.head?.getD 0))] := by
  rw [foldl_prices]
  simp only [Close.fields, Close.init, first_summary, UInt64.zero_add]

/-- **An implementation with nothing accumulated calculates the quote**, and fails only where there
    is none. -/
theorem calculate_quote (selected : Selection) (t : Times) (db : FlexRecords ℚ) (symbol : Bytes) :
    (if ((selected.at t).calculate db symbol).1 then
        some ((selected.at t).calculate db symbol).2.fields else none)
      = quote db symbol (toUnixEpoch db.notADateTime t.openTime)
        (toUnixEpoch db.notADateTime t.closeTime) selected := by
  obtain ⟨lo, hlo⟩ : ∃ lo, toUnixEpoch db.notADateTime t.openTime = lo := ⟨_, rfl⟩
  obtain ⟨till, htill⟩ : ∃ till, toUnixEpoch db.notADateTime t.closeTime = till := ⟨_, rfl⟩
  rw [hlo, htill]
  cases selected with
  | bar =>
      simp only [Selection.at, Analytic.calculate, Bar.calculate, quote, hlo, htill]
      cases db.trades symbol lo till with
      | none => rfl
      | some ticks => exact congrArg some (fields_trades t ticks)
  | test => rfl
  | rollupBar =>
      simp only [Selection.at, Analytic.calculate, RollupBar.calculate, quote, hlo, htill,
        shifted_period]
      cases db.rollups symbol (till - lo + 1).toUInt32 (till + 1) (till + (till - lo + 1)) with
      | none => rfl
      | some records => exact congrArg some (fields_bars t records)
  | close =>
      simp only [Selection.at, Analytic.calculate, Close.calculate, quote, hlo, htill]
      cases db.newestTrade symbol lo till with
      | none => rfl
      | some prices => exact congrArg some (fields_prices t prices)

end Hitsuji
