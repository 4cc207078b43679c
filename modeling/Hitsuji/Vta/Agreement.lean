import Hitsuji.Vta.Analytics
import Mathlib.Data.UInt

set_option autoImplicit false

/-! # The analytics agree

`rollup_bar_t` reads one minute bars, `bar_t` the trades behind them, `close_t` the newest trade
only. Summing up a bar loses nothing the accumulators look at, so however the trades were cut into
bars, the three publish the same. -/

namespace Hitsuji

open Accumulators

variable {α : Type}

/-! ## Bars of trades -/

/-- The trades of one bar: at least one, and fewer than its `TickCount` can tell apart. -/
structure BarTrades (α : Type) where
  first : Tick α
  rest : List (Tick α)
  count_lt : rest.length + 1 < 2 ^ 32

namespace BarTrades

/-- The trades in order. -/
def trades (b : BarTrades α) : List (Tick α) :=
  b.first :: b.rest

/-- Their prices, behind the first. -/
def prices (b : BarTrades α) : List α :=
  b.rest.map Tick.lastPrice

/-- The record kept of a bar. -/
def record [LinearOrder α] (b : BarTrades α) : BarRecord α where
  openPrice := b.first.lastPrice
  closePrice := b.prices.getLastD b.first.lastPrice
  highPrice := b.prices.foldl max b.first.lastPrice
  lowPrice := b.prices.foldl min b.first.lastPrice
  tickVolume := (b.trades.map Tick.tickVolume).sum
  tickCount := UInt32.ofNat b.trades.length

end BarTrades

/-! ## A bar at a time -/

/-- What `bar_t` accumulates over a run of trades, one accumulator at a time. -/
theorem foldl_add [LinearOrder α] (b : Bar α) (ticks : List (Tick α)) :
    ticks.foldl Bar.add b =
      { times := b.times
        first := (ticks.map Tick.lastPrice).foldl FirstImpl.add b.first
        last := (ticks.map Tick.lastPrice).foldl LastImpl.add b.last
        max := (ticks.map Tick.lastPrice).foldl MaxImpl.add b.max
        min := (ticks.map Tick.lastPrice).foldl MinImpl.add b.min
        count := b.count + UInt64.ofNat ticks.length
        tickVolume := b.tickVolume + (ticks.map Tick.tickVolume).sum } := by
  induction ticks generalizing b with
  | nil => simp
  | cons tick rest ih =>
      rw [List.foldl_cons, ih]
      simp only [Bar.add, List.map_cons, List.foldl_cons, List.sum_cons, List.length_cons,
        UInt64.ofNat_add, UInt64.add_assoc, Bar.mk.injEq, true_and, and_true]
      exact congrArg _ (UInt64.add_comm _ _)

/-- A rollup bar that holds what a bar over the trades holds. -/
structure RollupBar.Agrees (r : RollupBar α) (b : Bar α) : Prop where
  openPrice : r.openPrice = b.first
  closePrice : r.closePrice = b.last
  highPrice : r.highPrice = b.max
  lowPrice : r.lowPrice = b.min
  tickVolume : r.tickVolume = b.tickVolume
  numMoves : r.numMoves = b.count

/-- `TickCount` holds the number of trades of a bar. -/
theorem tickCount_toUInt64 [LinearOrder α] (bar : BarTrades α) :
    bar.record.tickCount.toUInt64 = UInt64.ofNat bar.trades.length := by
  have hlt : bar.trades.length < 2 ^ 32 := bar.count_lt
  exact UInt64.toNat_inj.mp (by
    simp only [BarTrades.record, UInt32.toNat_toUInt64, UInt32.toNat_ofNat', UInt64.toNat_ofNat',
      Nat.mod_eq_of_lt hlt]
    exact (Nat.mod_eq_of_lt (hlt.trans (by decide))).symm)

/-- The record of a bar adds what its trades add. -/
theorem agrees_add [LinearOrder α] (r : RollupBar α) (b : Bar α) (bar : BarTrades α)
    (h : r.Agrees b) : (r.add bar.record).Agrees (bar.trades.foldl Bar.add b) := by
  rw [foldl_add]
  constructor
  · change r.openPrice.add _ = (bar.first.lastPrice :: bar.prices).foldl _ _
    rw [first_add_block, h.openPrice]
    rfl
  · change r.closePrice.add _ = (bar.first.lastPrice :: bar.prices).foldl _ _
    rw [last_add_block, h.closePrice]
    rfl
  · change r.highPrice.add _ = (bar.first.lastPrice :: bar.prices).foldl _ _
    rw [max_add_block, h.highPrice]
    rfl
  · change r.lowPrice.add _ = (bar.first.lastPrice :: bar.prices).foldl _ _
    rw [min_add_block, h.lowPrice]
    rfl
  · change r.tickVolume + _ = _
    rw [h.tickVolume]
    rfl
  · change r.numMoves + _ = _
    rw [h.numMoves, tickCount_toUInt64]

theorem agrees_reset [Zero α] (r : RollupBar α) (b : Bar α) : r.reset.Agrees b.reset :=
  ⟨rfl, rfl, rfl, rfl, rfl, rfl⟩

/-- Bar after bar, whatever the cut. -/
theorem agrees_foldl [LinearOrder α] (r : RollupBar α) (b : Bar α) (bars : List (BarTrades α))
    (h : r.Agrees b) :
    ((bars.map BarTrades.record).foldl RollupBar.add r).Agrees
      ((bars.flatMap BarTrades.trades).foldl Bar.add b) := by
  induction bars generalizing r b with
  | nil => exact h
  | cons bar rest ih =>
      rw [List.map_cons, List.foldl_cons, List.flatMap_cons, List.foldl_append]
      exact ih _ _ (agrees_add r b bar h)

/-! ## The newest trade -/

/-- What a reader from newest to oldest, limited to one record, finds among the trades. -/
def newest (trades : List (Tick α)) : List α :=
  (trades.getLast?.map Tick.lastPrice).toList

/-- The newest trade is the last that `bar_t` has seen. -/
theorem close_newest [LinearOrder α] [Zero α] (bar : Bar α) (close : Close α)
    (trades : List (Tick α)) :
    ((newest trades).foldl Close.add close.reset).first.first
        = (trades.foldl Bar.add bar.reset).last.last
      ∧ ((newest trades).foldl Close.add close.reset).count = if trades = [] then 0 else 1 := by
  rw [foldl_add]
  cases trades with
  | nil => exact ⟨rfl, rfl⟩
  | cons tick rest =>
      rw [newest, List.getLast?_cons, List.map_cons, last_add_block]
      refine ⟨?_, rfl⟩
      change (rest.getLast?.getD tick).lastPrice = (rest.map Tick.lastPrice).getLastD tick.lastPrice
      rw [List.getLastD_eq_getLast?, List.getLast?_map, Option.getD_map]

/-! ## What is published -/

/-- The identifiers of the four price fields of a bar. -/
def priceFieldIds : List Int :=
  [12, 13, 19, 21]

/-- Holding the same, the two bars publish the same. -/
theorem agrees_fields (r : RollupBar ℚ) (b : Bar ℚ) (h : r.Agrees b) : r.fields = b.fields := by
  rw [RollupBar.fields, Bar.fields, h.openPrice, h.closePrice, h.highPrice, h.lowPrice,
    h.tickVolume, h.numMoves]

/-- Fewer than 2⁶⁴ trades, and at least one, are counted as such. -/
theorem count_ne_zero (bar : Bar ℚ) (trades : List (Tick ℚ)) (h : trades.length % 2 ^ 64 ≠ 0) :
    (trades.foldl Bar.add bar.reset).count ≠ 0 := by
  rw [foldl_add]
  change 0 + UInt64.ofNat trades.length ≠ 0
  rw [UInt64.zero_add]
  intro hzero
  exact h (by simpa using congrArg UInt64.toNat hzero)

/-- **The three analytics agree on every sequence of trades and every cut of it into bars.** The
    bars hold the same in every accumulator, and `close_t` the same close price; the two bars
    publish the same fields, `close_t` publishes the close price of the bar, and so does the bar
    itself as long as its count of trades has not come round to zero. Without trades all prices are
    blank. -/
theorem analytics_agree :
    (∀ (α : Type) [LinearOrder α] [Zero α] (bar : Bar α) (rollupBar : RollupBar α)
        (close : Close α) (bars : List (BarTrades α)),
      let trades := bars.flatMap BarTrades.trades
      let b := trades.foldl Bar.add bar.reset
      let r := (bars.map BarTrades.record).foldl RollupBar.add rollupBar.reset
      let c := (newest trades).foldl Close.add close.reset
      r.Agrees b ∧ c.first.first = b.last.last ∧ b.count = UInt64.ofNat trades.length)
    ∧ ∀ (bar : Bar ℚ) (rollupBar : RollupBar ℚ) (close : Close ℚ) (bars : List (BarTrades ℚ)),
      let trades := bars.flatMap BarTrades.trades
      let b := trades.foldl Bar.add bar.reset
      let r := (bars.map BarTrades.record).foldl RollupBar.add rollupBar.reset
      let c := (newest trades).foldl Close.add close.reset
      r.fields = b.fields
        ∧ (trades ≠ [] →
          c.fields = [(21, .real (Rounding.mantissa b.last.last) Rounding.hint)])
        ∧ (trades.length % 2 ^ 64 ≠ 0 → b.fields.lookup 21 = c.fields.lookup 21)
        ∧ (trades = [] → c.fields = [(21, .blankReal)]
          ∧ ∀ id ∈ priceFieldIds, b.fields.lookup id = some .blankReal) := by
  constructor
  · intro α _ _ bar rollupBar close bars
    refine ⟨agrees_foldl _ _ bars (agrees_reset rollupBar bar),
      (close_newest bar close _).1, ?_⟩
    rw [foldl_add]
    exact UInt64.zero_add _
  · intro bar rollupBar close bars trades b r c
    obtain ⟨hprice, hcount⟩ := close_newest bar close trades
    refine ⟨agrees_fields r b (agrees_foldl _ _ bars (agrees_reset rollupBar bar)), ?_, ?_, ?_⟩
    · intro hne
      have hone : c.count ≠ 0 := by
        rw [hcount, if_neg hne]
        decide
      rw [Close.fields, priceField, if_neg hone, hprice]
    · intro hlen
      have hne : trades ≠ [] := fun hnil => hlen (by rw [hnil]; rfl)
      have hone : c.count ≠ 0 := by
        rw [hcount, if_neg hne]
        decide
      have hbar : b.count ≠ 0 := count_ne_zero bar trades hlen
      change some (priceField b.count b.last.last) = some (priceField c.count c.first.first)
      rw [priceField, priceField, if_neg hbar, if_neg hone, hprice]
    · intro hnil
      have hb : b.count = 0 := by
        change (trades.foldl Bar.add bar.reset).count = 0
        rw [hnil]
        rfl
      refine ⟨?_, ?_⟩
      · rw [Close.fields, priceField, if_pos (hcount.trans (if_pos hnil))]
      · intro id hid
        simp only [priceFieldIds, List.mem_cons, List.not_mem_nil, or_false] at hid
        simp only [Bar.fields, barFields, priceField, if_pos hb]
        rcases hid with rfl | rfl | rfl | rfl <;> rfl

/-- Two bars, of a price of zero, a negative one, and the newest. -/
def fallAndRise : List (BarTrades ℚ) :=
  [⟨⟨0, 100⟩, [⟨-1, 200⟩], by decide⟩, ⟨⟨2, 300⟩, [], by decide⟩]

theorem fallAndRise_agree :
    ((fallAndRise.map BarTrades.record).foldl RollupBar.add .init).fields
        = ((fallAndRise.flatMap BarTrades.trades).foldl Bar.add .init).fields
      ∧ ((newest (fallAndRise.flatMap BarTrades.trades)).foldl Close.add .init).fields
        = [(21, .real (Rounding.mantissa 2) Rounding.hint)] := by
  obtain ⟨hfields, hclose, -⟩ := analytics_agree.2 .init .init .init fallAndRise
  exact ⟨hfields, hclose (List.cons_ne_nil _ _)⟩

end Hitsuji
