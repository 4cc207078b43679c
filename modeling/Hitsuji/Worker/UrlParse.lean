import Hitsuji.Lib.ByteBuffer

set_option autoImplicit false

/-! # URL components

An item name is read as the tail of a URL: the last path segment names the symbol, the query gives
the parameters and the fragment picks the analytic. These are the functions of googleurl that
`worker_t::OnTask` and the analytics use, on the parts they read: scheme, path, query and fragment
of a standard URL, the file name of a path, and the pairs of a query. -/

namespace Hitsuji

open ByteBuffer

namespace UrlParse

/-! ## Components -/

/-- `Component`: a range of the URL. The invalid one, of length -1, is `none` in an `Option`. -/
structure Component where
  begin : Nat
  len : Nat
  deriving DecidableEq

/-- `Component::end`. -/
def Component.stop (c : Component) : Nat :=
  c.begin + c.len

/-- `MakeRange`; the end is not included. -/
def makeRange (begin stop : Nat) : Component :=
  ⟨begin, stop - begin⟩

/-- The characters of a component. -/
def Component.text (c : Component) (spec : Bytes) : Bytes :=
  peek spec c.begin c.len

/-- `Parsed`, without the parts of the authority. -/
structure Parsed where
  scheme : Option Component
  path : Option Component
  query : Option Component
  ref : Option Component
  deriving DecidableEq

/-! ## Loops -/

/-- The code of an ASCII character. -/
def code (c : Char) : UInt8 :=
  UInt8.ofNat c.toNat

/-- `while (i < n && p (spec[i])) i++;` -/
def scan (p : UInt8 → Bool) (spec : Bytes) (i n : Nat) : Nat :=
  i + (((spec.take n).drop i).takeWhile p).length

/-- `for (int i = hi - 1; i >= lo; i--) if (p (spec[i])) break;` -/
def scanBack (p : UInt8 → Bool) (spec : Bytes) (lo : Nat) : Nat → Option Nat
  | 0 => none
  | hi + 1 =>
      if hi < lo then none
      else if p (spec.getD hi 0) then some hi
      else scanBack p spec lo hi

/-- `IsURLSlash` -/
def isURLSlash (ch : UInt8) : Bool :=
  ch = code '/' || ch = code '\\'

/-- `ShouldTrimFromURL`; `char` is signed. -/
def shouldTrimFromURL (ch : UInt8) : Bool :=
  ch.toInt8 ≤ 32

/-- `IsAuthorityTerminator` -/
def isAuthorityTerminator (ch : UInt8) : Bool :=
  isURLSlash ch || ch = code '?' || ch = code '#'

/-- The trailing half of `TrimURL`. -/
def trimEnd (spec : Bytes) (begin : Nat) : Nat → Nat
  | 0 => 0
  | len + 1 =>
      if begin < len + 1 ∧ shouldTrimFromURL (spec.getD len 0) then trimEnd spec begin len
      else len + 1

/-- `TrimURL`: where the URL begins and ends without spaces and control characters around it. -/
def trimURL (spec : Bytes) (len : Nat) : Nat × Nat :=
  let begin := scan shouldTrimFromURL spec 0 len
  (begin, trimEnd spec begin len)

/-! ## Standard URLs -/

/-- `ExtractScheme` -/
def extractScheme (spec : Bytes) (len : Nat) : Option Component :=
  let begin := scan shouldTrimFromURL spec 0 len
  if begin = len then none
  else
    let colon := scan (· ≠ code ':') spec begin len
    if colon < len then some (makeRange begin colon) else none

/-- One round of the loop in `ParsePath`: the first `?` before any `#`, and the first `#`. -/
def separatorStep (spec : Bytes) (found : Option Nat × Option Nat) (i : Nat) :
    Option Nat × Option Nat :=
  match found with
  | (query, ref) =>
      if spec.getD i 0 = code '?' then
        if ref.isNone && query.isNone then (some i, ref) else found
      else if spec.getD i 0 = code '#' then
        if ref.isNone then (query, some i) else found
      else found

/-- `ParsePath`: the file path, the query and the fragment. -/
def parsePath (spec : Bytes) (path : Option Component) :
    Option Component × Option Component × Option Component :=
  match path with
  | none => (none, none, none)
  | some path =>
      let (querySeparator, refSeparator) :=
        (List.range' path.begin path.len).foldl (separatorStep spec) (none, none)
      let queryEnd := refSeparator.getD path.stop
      let fileEnd := querySeparator.getD queryEnd
      let filepath := if fileEnd ≠ path.begin then some (makeRange path.begin fileEnd) else none
      (filepath, querySeparator.map fun i => makeRange (i + 1) queryEnd,
        refSeparator.map fun i => makeRange (i + 1) path.stop)

/-- `ParseAfterScheme`: everything up to the next terminator is the authority, the rest the path. -/
def parseAfterScheme (spec : Bytes) (specLen afterScheme : Nat) (scheme : Option Component) :
    Parsed :=
  -- any number of slashes, backslashes included
  let afterSlashes := scan isURLSlash spec afterScheme specLen
  let endAuth := scan (fun ch => !isAuthorityTerminator ch) spec afterSlashes specLen
  let fullPath := if endAuth = specLen then none else some (makeRange endAuth specLen)
  match parsePath spec fullPath with
  | (path, query, ref) => ⟨scheme, path, query, ref⟩

/-- `ParseStandardURL` -/
def parseStandardURL (spec : Bytes) : Parsed :=
  let (begin, specLen) := trimURL spec spec.length
  match extractScheme spec specLen with
  | some scheme => parseAfterScheme spec specLen (scheme.stop + 1) (some scheme)
  | none => parseAfterScheme spec specLen begin none

/-- `ExtractFileName`: the last segment of the path, without its parameter. -/
def extractFileName (spec : Bytes) (path : Option Component) : Option Component :=
  match path with
  | none => none
  | some path =>
      if path.len = 0 then none
      else
        -- the last parameter of the last segment is not part of the file name
        let fileEnd := (scanBack (· = code ';') spec (path.begin + 1) path.stop).getD path.stop
        match scanBack isURLSlash spec path.begin fileEnd with
        | some i => some (makeRange (i + 1) fileEnd)
        | none => some (makeRange path.begin fileEnd)

/-! ## Queries -/

/-- `ExtractQueryKeyValue`: the first key and value, and the rest of the query. -/
def extractQueryKeyValue (spec : Bytes) (query : Component) :
    Option (Component × Component × Component) :=
  if query.len = 0 then none
  else
    let keyEnd := scan (fun ch => ch ≠ code '&' && ch ≠ code '=') spec query.begin query.stop
    let valueBegin :=
      if keyEnd < query.stop ∧ spec.getD keyEnd 0 = code '=' then keyEnd + 1 else keyEnd
    let valueEnd := scan (· ≠ code '&') spec valueBegin query.stop
    let rest :=
      if valueEnd < query.stop ∧ spec.getD valueEnd 0 = code '&' then valueEnd + 1 else valueEnd
    some (makeRange query.begin keyEnd, makeRange valueBegin valueEnd,
      makeRange rest query.stop)

/-- The pairs that `while (ExtractQueryKeyValue (…))` goes through. -/
def queryPairs (spec : Bytes) : Nat → Component → List (Component × Component)
  | 0, _ => []
  | fuel + 1, query =>
      match extractQueryKeyValue spec query with
      | none => []
      | some (key, value, rest) => (key, value) :: queryPairs spec fuel rest

/-! ## Termination of the query loop -/

theorem le_scan (p : UInt8 → Bool) (spec : Bytes) (i n : Nat) : i ≤ scan p spec i n :=
  Nat.le_add_right _ _

theorem scan_le (p : UInt8 → Bool) (spec : Bytes) (i n : Nat) (h : i ≤ n) :
    scan p spec i n ≤ n := by
  have hbegins := (List.takeWhile_prefix p (l := (spec.take n).drop i)).length_le
  rw [List.length_drop, List.length_take] at hbegins
  unfold scan
  omega

theorem takeWhile_stop (p : UInt8 → Bool) (l : Bytes) (h : (l.takeWhile p).length < l.length) :
    p (l.getD (l.takeWhile p).length 0) = false := by
  induction l with
  | nil => exact absurd h (Nat.lt_irrefl _)
  | cons ch rest ih =>
      cases hch : p ch with
      | false =>
          rw [List.takeWhile_cons_of_neg (by simp [hch])]
          exact hch
      | true =>
          rw [List.takeWhile_cons_of_pos hch] at h ⊢
          simp only [List.length_cons, List.getD_cons_succ, Nat.add_lt_add_iff_right] at h ⊢
          exact ih h

/-- A scan that stops before its end has met a character to stop at. -/
theorem scan_stop (p : UInt8 → Bool) (spec : Bytes) (i n : Nat) (hn : n ≤ spec.length)
    (h : scan p spec i n < n) : p (spec.getD (scan p spec i n) 0) = false := by
  have hlen : ((spec.take n).drop i).length = n - i := by
    rw [List.length_drop, List.length_take, Nat.min_eq_left hn]
  have hstop := takeWhile_stop p ((spec.take n).drop i) (by
    rw [hlen]
    unfold scan at h
    omega)
  rw [List.getD_eq_getElem?_getD, List.getElem?_drop] at hstop
  change p (((spec.take n)[scan p spec i n]?).getD 0) = false at hstop
  rw [List.getElem?_take_of_lt h, ← List.getD_eq_getElem?_getD] at hstop
  exact hstop

/-- A round of the query loop leaves less of the query. -/
theorem extractQueryKeyValue_shrinks (spec : Bytes) (query key value rest : Component)
    (hspec : query.stop ≤ spec.length)
    (h : extractQueryKeyValue spec query = some (key, value, rest)) :
    rest.len < query.len ∧ rest.stop = query.stop := by
  unfold extractQueryKeyValue at h
  split at h
  · exact absurd h (by simp)
  next hne =>
  simp only [Option.some.injEq, Prod.mk.injEq] at h
  obtain ⟨-, -, rfl⟩ := h
  obtain ⟨keyEnd, hkey⟩ : ∃ k, scan (fun ch => ch ≠ code '&' && ch ≠ code '=') spec query.begin
      query.stop = k := ⟨_, rfl⟩
  have hkeyLo : query.begin ≤ keyEnd := hkey ▸ le_scan _ _ _ _
  have hkeyHi : keyEnd ≤ query.stop := hkey ▸ scan_le _ _ _ _ (Nat.le_add_right _ _)
  have hkeyStop : keyEnd < query.stop →
      spec.getD keyEnd 0 = code '&' ∨ spec.getD keyEnd 0 = code '=' := by
    intro hlt
    have hstop := scan_stop _ spec query.begin query.stop hspec (hkey ▸ hlt)
    rw [hkey] at hstop
    by_contra hneither
    simp_all
  rw [hkey]
  obtain ⟨valueBegin, hvalue⟩ : ∃ v, (if keyEnd < query.stop ∧ spec.getD keyEnd 0 = code '='
      then keyEnd + 1 else keyEnd) = v := ⟨_, rfl⟩
  have hvalueHi : valueBegin ≤ query.stop := by
    rw [← hvalue]
    split <;> omega
  rw [hvalue]
  obtain ⟨valueEnd, hend⟩ : ∃ v, scan (· ≠ code '&') spec valueBegin query.stop = v := ⟨_, rfl⟩
  have hendLo : valueBegin ≤ valueEnd := hend ▸ le_scan _ _ _ _
  have hendHi : valueEnd ≤ query.stop := hend ▸ scan_le _ _ _ _ hvalueHi
  rw [hend]
  obtain ⟨restBegin, hrest⟩ : ∃ r, (if valueEnd < query.stop ∧ spec.getD valueEnd 0 = code '&'
      then valueEnd + 1 else valueEnd) = r := ⟨_, rfl⟩
  rw [hrest]
  have hprogress : query.begin < restBegin ∧ restBegin ≤ query.stop := by
    have hpos : query.begin < query.stop := by
      unfold Component.stop
      omega
    have hvalueLo : keyEnd ≤ valueBegin := by
      rw [← hvalue]
      split <;> omega
    rw [← hrest]
    split
    · omega
    next hno =>
    refine ⟨?_, hendHi⟩
    by_cases hlt : keyEnd < query.stop
    · rcases hkeyStop hlt with hamp | heq
      · -- the key ends at an ampersand, which the rest would have skipped
        by_contra hstuck
        obtain rfl : valueEnd = keyEnd := by omega
        exact hno ⟨hlt, hamp⟩
      · rw [if_pos ⟨hlt, heq⟩] at hvalue
        omega
    · rw [if_neg (fun hboth => hlt hboth.1)] at hvalue
      omega
  simp only [makeRange, Component.stop] at hprogress ⊢
  omega

/-- Enough fuel is one round for each character of the query. -/
theorem queryPairs_of_le (spec : Bytes) (query : Component) (hspec : query.stop ≤ spec.length)
    (fuel : Nat) (h : query.len ≤ fuel) :
    queryPairs spec fuel query = queryPairs spec query.len query := by
  induction hlen : query.len using Nat.strong_induction_on generalizing query fuel with
  | _ len ih =>
      subst hlen
      cases hfirst : extractQueryKeyValue spec query with
      | none =>
          have hnil : ∀ n, queryPairs spec n query = [] := by
            intro n
            cases n with
            | zero => rfl
            | succ n => simp only [queryPairs, hfirst]
          rw [hnil, hnil]
      | some found =>
          obtain ⟨key, value, rest⟩ := found
          obtain ⟨hless, hstop⟩ :=
            extractQueryKeyValue_shrinks spec query key value rest hspec hfirst
          obtain ⟨fuel, rfl⟩ := Nat.exists_eq_succ_of_ne_zero (n := fuel) (by omega)
          obtain ⟨len, hl⟩ := Nat.exists_eq_succ_of_ne_zero (n := query.len) (by omega)
          rw [hl]
          simp only [queryPairs, hfirst]
          rw [ih rest.len hless rest (hstop ▸ hspec) fuel (by omega) rfl,
            ih rest.len hless rest (hstop ▸ hspec) len (by omega) rfl]

end UrlParse

end Hitsuji
