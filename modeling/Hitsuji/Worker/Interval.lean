import Hitsuji.Worker.Task
import Mathlib.Data.List.TakeWhile

set_option autoImplicit false

/-! # The interval of a request

An analytic calculates over the interval that the query gives as `open` and `close`. `OnTask` calls
`ParseRequest` to validate the request, if there is a query at all; it takes whatever `atol` makes
of the values, leaves the times as `Reset` left them where there are none, and never refuses. So the
interval is that of the request exactly where the request is valid. -/

namespace Hitsuji

open ByteBuffer UrlParse

/-! ## How far a request comes -/

/-- Answered with a closed status, or passed on to `Calculate`. -/
inductive Prepared where
  | close (w : Worker) (streamState : StreamState) (statusCode : StatusCode) (statusText : Bytes)
  | calculate (w : Worker) (a : Analytic)

namespace Worker

/-- `OnTask` from the symbol up to `Calculate`, with the selected implementation reset. -/
def prepareSymbol (w : Worker) (db : FlexRecords ℚ) (query : Option Component) (a : Analytic) :
    Prepared :=
  if db.isSymbolExists (cString w.underlyingSymbol) = false then
    .close (w.put a) .closed .notFound kErrorNotFound
  else
    let validated := query.elim (true, a) fun query => a.parseRequest w.url query
    let w := w.put validated.2
    if validated.1 = false then .close w .closed .notFound kErrorMalformedRequest
    else
      let entitled := getDacsLock (db.permData (cString w.underlyingSymbol)) w.dacsLock
      let w := { w with dacsLock := entitled.2 }
      if entitled.1 = false then .close w .closed .notEntitled kErrorPermData
      else .calculate w validated.2

/-- `OnTask` from the reset of the message buffer up to `Calculate`. -/
def prepare (w : Worker) (db : FlexRecords ℚ) (itemName : Bytes) : Prepared :=
  let url := ascii "null://localhost/" ++ itemName
  let w := { w with rssl := w.rssl.resetLength, url }
  let parsed := parseStandardURL url
  match extractFileName url parsed.path with
  | none => .close w .closed .notFound kErrorMalformedRequest
  | some fileName =>
      let a := (w.analytic (selection url parsed.ref)).reset
      prepareSymbol { w with underlyingSymbol := fileName.text url } db parsed.query a

end Worker

/-- `OnTask` from there on. -/
def Prepared.resume (env : TaskEnv) (view : RequestView) (itemName : Bytes) :
    Prepared → Option TaskDone
  | .close w streamState statusCode statusText =>
      w.sendClose env view itemName streamState statusCode statusText
  | .calculate w a =>
      let calculated := a.calculate env.db w.underlyingSymbol
      let w := w.put calculated.2
      if calculated.1 = false then
        w.sendClose env view itemName .closedRecover .error Worker.kErrorInternal
      else w.respond env view itemName calculated.2

namespace Worker

variable (w : Worker) (env : TaskEnv) (view : RequestView) (itemName : Bytes)

theorem onSymbol_prepare (query : Option Component) (a : Analytic) :
    w.onSymbol env view itemName query a
      = (w.prepareSymbol env.db query a).resume env view itemName := by
  unfold onSymbol prepareSymbol
  by_cases hexists : env.db.isSymbolExists (cString w.underlyingSymbol) = false
  · rw [if_pos hexists, if_pos hexists]
    rfl
  rw [if_neg hexists, if_neg hexists]
  generalize (query.elim (true, a) fun query => a.parseRequest w.url query) = validated
  dsimp only
  by_cases hvalid : validated.1 = false
  · rw [if_pos hvalid, if_pos hvalid]
    rfl
  rw [if_neg hvalid, if_neg hvalid, onValidated]
  generalize getDacsLock (env.db.permData (cString (w.put validated.2).underlyingSymbol))
    (w.put validated.2).dacsLock = entitled
  dsimp only
  by_cases hentitled : entitled.1 = false
  · rw [if_pos hentitled, if_pos hentitled]
    rfl
  · rw [if_neg hentitled, if_neg hentitled]
    rfl

/-- **A task is prepared**, and then calculated or closed. -/
theorem onView_prepare :
    w.onView env view itemName = (w.prepare env.db itemName).resume env view itemName := by
  unfold onView prepare
  dsimp only
  cases extractFileName (ascii "null://localhost/" ++ itemName)
      (parseStandardURL (ascii "null://localhost/" ++ itemName)).path with
  | none => rfl
  | some fileName => exact onSymbol_prepare _ env view itemName _ _

end Worker

/-! ## Valid requests -/

/-- Whether a number is written with a minus sign, and what follows its sign. -/
def splitSign : Bytes → Bool × Bytes
  | [] => (false, [])
  | c :: rest =>
      if c = code '-' then (true, rest)
      else if c = code '+' then (false, rest)
      else (false, c :: rest)

/-- The integer that a sign and digits denote. -/
def decimalValue (s : Bytes) : Int :=
  if (splitSign s).1 then -digitsValue (splitSign s).2 else digitsValue (splitSign s).2

/-- A decimal integer in the signed 32-bit range, with an optional sign. -/
def decimal? (s : Bytes) : Option Int32 :=
  if (splitSign s).2 ≠ [] ∧ (splitSign s).2.all isDigit
      ∧ -2147483648 ≤ decimalValue s ∧ decimalValue s ≤ 2147483647 then
    some (Int32.ofInt (decimalValue s))
  else none

/-- The value a pair gives for a key. -/
def pairValue (url key : Bytes) (pair : Component × Component) : Option Bytes :=
  if pair.1.text url = key then some (pair.2.text url) else none

/-- The value a query gives for a key, the last one if there are several. -/
def queryValue (url key : Bytes) (query : Component) : Option Bytes :=
  ((queryPairs url query.len query).filterMap (pairValue url key)).getLast?

/-- The interval a valid request asks for. -/
def requestedInterval (itemName : Bytes) : Option (Int32 × Int32) := do
  let url := ascii "null://localhost/" ++ itemName
  let query ← (parseStandardURL url).query
  let openValue ← queryValue url kOpenParameter query
  let closeValue ← queryValue url kCloseParameter query
  let openTime ← decimal? openValue
  let closeTime ← decimal? closeValue
  return (openTime, closeTime)

/-- The implementation an item name is routed to, if it names a symbol. -/
def routedTo (itemName : Bytes) : Option Selection :=
  let url := ascii "null://localhost/" ++ itemName
  let parsed := parseStandardURL url
  (extractFileName url parsed.path).map fun _ => Worker.selection url parsed.ref

/-- The parameters of an implementation that has any. -/
def Analytic.times : Analytic → Option Times
  | .bar b => some b.times
  | .test => none
  | .rollupBar b => some b.times
  | .close b => some b.times

/-- The seconds from and till that `Calculate` derives from them. -/
def Times.period (t : Times) (notADateTime : Int32) : Int32 × Int32 :=
  (toUnixEpoch notADateTime t.openTime, toUnixEpoch notADateTime t.closeTime)

/-- A valid request is calculated over its interval, if at all, and any other is refused as
    malformed. -/
def IntervalValidated (w : Worker) (db : FlexRecords ℚ) (itemName : Bytes) : Prop :=
  match requestedInterval itemName with
  | some interval => ∀ w' a, w.prepare db itemName = .calculate w' a →
      a.times.map (Times.period · db.notADateTime) = some interval
  | none => ∃ w', w.prepare db itemName
      = .close w' .closed .notFound Worker.kErrorMalformedRequest

/-! ## What `ParseRequest` makes of a query -/

/-- A fold that assigns what it finds ends with what it found last. -/
theorem foldl_assign {τ β γ : Type} (step : τ → β → τ) (get : τ → Option γ) (found : β → Option γ)
    (hstep : ∀ t b, get (step t b) = (found b).or (get t)) (l : List β) (t : τ) :
    get (l.foldl step t) = (l.filterMap found).getLast?.or (get t) := by
  induction l generalizing t with
  | nil => rfl
  | cons b rest ih =>
      rw [List.foldl_cons, ih, hstep]
      cases hb : found b with
      | none => rw [List.filterMap_cons_none hb, Option.none_or]
      | some v =>
          rw [List.filterMap_cons_some hb, List.getLast?_cons]
          cases (rest.filterMap found).getLast? <;> rfl

/-- The times are those of the last values, where there are any. -/
theorem parseRequest_times (t : Times) (url : Bytes) (query : Component) :
    (t.parseRequest url query).openTime
        = ((queryValue url kOpenParameter query).map atol).or t.openTime
      ∧ (t.parseRequest url query).closeTime
        = ((queryValue url kCloseParameter query).map atol).or t.closeTime := by
  have hkeys : kOpenParameter ≠ kCloseParameter := by decide
  have hvalues : ∀ key, (queryValue url key query).map atol
      = ((queryPairs url query.len query).filterMap
        fun pair => (pairValue url key pair).map atol).getLast? := by
    intro key
    rw [queryValue, ← List.getLast?_map, List.map_filterMap]
  rw [hvalues, hvalues]
  constructor
  · refine foldl_assign (Times.parsePair url) Times.openTime _ (fun t pair => ?_) _ t
    unfold Times.parsePair pairValue
    by_cases hopen : pair.1.text url = kOpenParameter
    · simp [hopen]
    · by_cases hclose : pair.1.text url = kCloseParameter
      · simp [hclose, hkeys.symm]
      · simp [hopen, hclose]
  · refine foldl_assign (Times.parsePair url) Times.closeTime _ (fun t pair => ?_) _ t
    unfold Times.parsePair pairValue
    by_cases hopen : pair.1.text url = kOpenParameter
    · simp [hopen, hkeys]
    · by_cases hclose : pair.1.text url = kCloseParameter
      · simp [hclose, hkeys.symm]
      · simp [hopen, hclose]

/-- What `atol` skips is neither a sign nor a digit. -/
theorem isSpace_eq_false (c : UInt8) (h : c = code '-' ∨ c = code '+' ∨ isDigit c = true) :
    isSpace c = false := by
  rcases h with rfl | rfl | hdigit
  · rfl
  · rfl
  · have hlow : code '0' ≤ c := by
      simp only [isDigit, Bool.and_eq_true, decide_eq_true_eq] at hdigit
      exact hdigit.1
    have hnat : 48 ≤ c.toNat := UInt8.le_iff_toNat_le.mp hlow
    have h32 : c ≠ 32 := by
      rintro rfl
      exact absurd hnat (by decide)
    have h13 : ¬ c ≤ 13 := fun hle => by
      have hle' : c.toNat ≤ 13 := UInt8.le_iff_toNat_le.mp hle
      omega
    simp [isSpace, h32, h13]

/-- `atol` of a number without space before it. -/
theorem atol_splitSign (s : Bytes) (h : s.dropWhile isSpace = s) :
    atol s =
      let magnitude : Int := digitsValue ((splitSign s).2.takeWhile isDigit)
      if (splitSign s).1 then Int32.ofInt (max (-magnitude) (-2147483648))
      else Int32.ofInt (min magnitude 2147483647) := by
  unfold atol
  rw [h]
  cases s with
  | nil => rfl
  | cons c rest =>
      by_cases hminus : c = code '-'
      · simp [splitSign, hminus]
      by_cases hplus : c = code '+'
      · simp [splitSign, hplus, show code '+' ≠ code '-' by decide]
      · simp [splitSign, hminus, hplus]

/-- `atol` reads a decimal integer that fits. -/
theorem atol_decimal (s : Bytes) (v : Int32) (h : decimal? s = some v) : atol s = v := by
  obtain ⟨⟨-, hdigits, hlow, hhigh⟩, hvalue⟩ := Option.ite_none_right_eq_some.mp h
  have hskip : s.dropWhile isSpace = s := by
    cases s with
    | nil => rfl
    | cons c rest =>
        refine List.dropWhile_cons_of_neg (Bool.eq_false_iff.mp (isSpace_eq_false c ?_))
        by_cases hminus : c = code '-'
        · exact .inl hminus
        by_cases hplus : c = code '+'
        · exact .inr (.inl hplus)
        · simp only [splitSign, if_neg hminus, if_neg hplus, List.all_cons,
            Bool.and_eq_true] at hdigits
          exact .inr (.inr hdigits.1)
  have hall : (splitSign s).2.takeWhile isDigit = (splitSign s).2 := by
    rw [List.takeWhile_eq_self_iff]
    exact List.all_eq_true.mp hdigits
  rw [atol_splitSign s hskip, hall, ← Option.some.inj hvalue]
  unfold decimalValue at hlow hhigh ⊢
  cases hminus : (splitSign s).1 with
  | true =>
      rw [hminus, if_pos rfl] at hlow
      simp only [if_true, max_eq_left hlow]
  | false =>
      rw [hminus, if_neg Bool.false_ne_true] at hhigh
      simp only [Bool.false_eq_true, if_false, min_eq_left hhigh]

/-! ## The interval -/

/-- A request that reaches `Calculate` does so with the implementation parsed anew. -/
theorem prepareSymbol_calculate (w w' : Worker) (db : FlexRecords ℚ) (query : Option Component)
    (a a' : Analytic) (h : w.prepareSymbol db query a = .calculate w' a') :
    a' = (query.elim (true, a) fun query => a.parseRequest w.url query).2 := by
  unfold Worker.prepareSymbol at h
  dsimp only at h
  split at h
  · cases h
  split at h
  · cases h
  split at h
  · cases h
  · exact (Prepared.calculate.inj h).2.symm

/-- No implementation refuses a request, so that none is closed as malformed. -/
theorem prepareSymbol_malformed (w w' : Worker) (db : FlexRecords ℚ) (query : Option Component)
    (a : Analytic) (streamState : StreamState) :
    w.prepareSymbol db query a
      ≠ .close w' streamState .notFound Worker.kErrorMalformedRequest := by
  have hvalid : (query.elim (true, a) fun query => a.parseRequest w.url query).1 = true := by
    cases query with
    | none => rfl
    | some query => cases a <;> rfl
  unfold Worker.prepareSymbol
  dsimp only
  rw [hvalid]
  intro h
  split at h
  · exact absurd (Prepared.close.inj h).2.2.2 (by decide)
  rw [if_neg (by decide)] at h
  split at h
  · exact absurd (Prepared.close.inj h).2.2.1 (by decide)
  · cases h

theorem prepare_eq (w : Worker) (db : FlexRecords ℚ) (itemName : Bytes) (selected : Selection)
    (h : routedTo itemName = some selected) :
    ∃ w₁ : Worker, w₁.url = ascii "null://localhost/" ++ itemName
      ∧ w.prepare db itemName = w₁.prepareSymbol db
        (parseStandardURL (ascii "null://localhost/" ++ itemName)).query
        (w.analytic selected).reset := by
  obtain ⟨fileName, hfile, rfl⟩ := Option.map_eq_some_iff.mp h
  refine ⟨{ w with
    rssl := w.rssl.resetLength
    url := ascii "null://localhost/" ++ itemName
    underlyingSymbol := fileName.text (ascii "null://localhost/" ++ itemName) }, rfl, ?_⟩
  unfold Worker.prepare
  dsimp only
  rw [hfile]
  generalize Worker.selection _ _ = selected
  cases selected <;> rfl

/-- A member that takes parameters has none after its reset. -/
theorem reset_times (w : Worker) (selected : Selection) (h : selected ≠ .test) :
    ∃ t, (w.analytic selected).reset.times = some t ∧ t.openTime = none ∧ t.closeTime = none := by
  cases selected with
  | bar => exact ⟨w.bar.times.reset, rfl, rfl, rfl⟩
  | test => exact absurd rfl h
  | rollupBar => exact ⟨w.rollupBar.times.reset, rfl, rfl, rfl⟩
  | close => exact ⟨w.close.times.reset, rfl, rfl, rfl⟩

theorem parseRequest_times_map (a : Analytic) (url : Bytes) (query : Component) :
    (a.parseRequest url query).2.times = a.times.map (Times.parseRequest · url query) := by
  cases a <;> rfl

/-- **The interval is validated exactly for the requests that are valid**: nothing is refused. -/
theorem intervalValidated_iff (w : Worker) (db : FlexRecords ℚ) (itemName : Bytes)
    (selected : Selection) (hrouted : routedTo itemName = some selected)
    (htest : selected ≠ .test) :
    IntervalValidated w db itemName ↔ (requestedInterval itemName).isSome := by
  obtain ⟨w₁, hurl, hprepare⟩ := prepare_eq w db itemName selected hrouted
  unfold IntervalValidated
  rw [hprepare]
  cases hinterval : requestedInterval itemName with
  | none =>
      refine iff_of_false ?_ (by simp)
      rintro ⟨w', hclose⟩
      exact prepareSymbol_malformed w₁ w' db _ _ _ hclose
  | some interval =>
      refine iff_of_true (fun w' a hcalculate => ?_) rfl
      obtain ⟨t, htimes, hopen, hclose⟩ := reset_times w selected htest
      unfold requestedInterval at hinterval
      simp only [Option.bind_eq_bind, Option.bind_eq_some_iff, Option.pure_def,
        Option.some.injEq] at hinterval
      obtain ⟨query, hquery, openValue, hopenValue, closeValue, hcloseValue, openTime, hopenTime,
        closeTime, hcloseTime, rfl⟩ := hinterval
      obtain ⟨hparsedOpen, hparsedClose⟩ :=
        parseRequest_times t (ascii "null://localhost/" ++ itemName) query
      have ha := prepareSymbol_calculate w₁ w' db _ _ _ hcalculate
      rw [hquery, hurl] at ha
      rw [ha, Option.elim_some, parseRequest_times_map, htimes]
      simp only [Option.map_some, Times.period, hparsedOpen, hparsedClose, hopenValue, hcloseValue,
        Option.some_or, toUnixEpoch, Option.getD_some, atol_decimal _ _ hopenTime,
        atol_decimal _ _ hcloseTime]

/-- Known symbols without trades or permission records. -/
def noRecords : FlexRecords ℚ where
  isSymbolExists _ := true
  permData _ := ⟨none, false⟩
  trades _ _ _ := some []
  newestTrade _ _ _ := some []
  rollups _ _ _ _ := some []
  notADateTime := -1

section Replay

set_option maxRecDepth 20000

/-- A worker that was not used before. -/
def freshWorker : Worker :=
  .initial (.zeros 0 (by decide))

theorem hour_validated : IntervalValidated freshWorker noRecords (ascii "u?open=0&close=3600")
    ∧ requestedInterval (ascii "u?open=0&close=3600") = some (0, 3600) :=
  ⟨(intervalValidated_iff freshWorker noRecords (ascii "u?open=0&close=3600") .bar
    (by decide +kernel) (by decide)).mpr (by decide +kernel), by decide +kernel⟩

/-- Without a query, and with words for numbers, an item is calculated all the same. -/
theorem wordsTaken_unvalidated :
    (routedTo (ascii "u") = some .bar ∧ requestedInterval (ascii "u") = none
      ∧ (∃ w' a, freshWorker.prepare noRecords (ascii "u") = .calculate w' a
        ∧ a.times.map (Times.period · noRecords.notADateTime) = some (-1, -1))
      ∧ ¬ IntervalValidated freshWorker noRecords (ascii "u"))
    ∧ routedTo (ascii "u?open=ten&close=1e3") = some .bar
      ∧ requestedInterval (ascii "u?open=ten&close=1e3") = none
      ∧ (∃ w' a, freshWorker.prepare noRecords (ascii "u?open=ten&close=1e3") = .calculate w' a
        ∧ a.times.map (Times.period · noRecords.notADateTime) = some (0, 1))
      ∧ ¬ IntervalValidated freshWorker noRecords (ascii "u?open=ten&close=1e3") := by
  have hnone : requestedInterval (ascii "u") = none := by decide +kernel
  have hwords : requestedInterval (ascii "u?open=ten&close=1e3") = none := by decide +kernel
  refine ⟨⟨by decide +kernel, hnone, ⟨_, _, rfl, by decide +kernel⟩, ?_⟩, by decide +kernel, hwords,
    ⟨_, _, rfl, by decide +kernel⟩, ?_⟩
  · unfold IntervalValidated
    rw [hnone]
    rintro ⟨w', hclose⟩
    cases hclose
  · unfold IntervalValidated
    rw [hwords]
    rintro ⟨w', hclose⟩
    cases hclose

end Replay

end Hitsuji
