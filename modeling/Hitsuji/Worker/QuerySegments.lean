import Hitsuji.Worker.Interval
import Hitsuji.Worker.UrlName
import Mathlib.Data.List.TakeWhile

set_option autoImplicit false

/-! # The segments of a query

`ParseRequest` takes the pairs of a query off its front one by one, in the same loop in three places.
What the loop goes through are the segments between ampersands, each cut at its first `=`; so the
times are those of the last segments for `open` and for `close`, and no other segment matters. -/

namespace Hitsuji

open ByteBuffer UrlParse

/-! ## The meaning of a query -/

/-- The key of a segment. -/
def segmentKey (segment : Bytes) : Bytes :=
  (cutAt '=' segment).1

/-- Its value, empty if there is no `=`. -/
def segmentText (segment : Bytes) : Bytes :=
  (cutAt '=' segment).2.getD []

/-- The value a segment gives for a key. -/
def segmentValue (key segment : Bytes) : Option Bytes :=
  if segmentKey segment = key then some (segmentText segment) else none

/-- The value of the last segment for a key. -/
def lastValue (key : Bytes) (segments : List Bytes) : Option Bytes :=
  (segments.filterMap (segmentValue key)).getLast?

/-- The times that segments ask for. -/
def segmentTimes (segments : List Bytes) : Option Int32 × Option Int32 :=
  ((lastValue kOpenParameter segments).map atol, (lastValue kCloseParameter segments).map atol)

/-- A segment for another key changes nothing. -/
theorem lastValue_other (key segment : Bytes) (xs ys : List Bytes)
    (h : segmentKey segment ≠ key) :
    lastValue key (xs ++ segment :: ys) = lastValue key (xs ++ ys) := by
  have hnone : segmentValue key segment = none := if_neg h
  unfold lastValue
  rw [List.filterMap_append, List.filterMap_append, List.filterMap_cons_none hnone]

/-- Nor does its place among those for the key. -/
theorem lastValue_swap (key s s' : Bytes) (xs ys : List Bytes)
    (h : segmentKey s ≠ key ∨ segmentKey s' ≠ key) :
    lastValue key (xs ++ s :: s' :: ys) = lastValue key (xs ++ s' :: s :: ys) := by
  rcases h with hs | hs'
  · rw [lastValue_other key s xs (s' :: ys) hs]
    have hmoved := lastValue_other key s (xs ++ [s']) ys hs
    rw [List.append_assoc, List.append_assoc] at hmoved
    exact hmoved.symm
  · rw [lastValue_other key s' xs (s :: ys) hs']
    have hmoved := lastValue_other key s' (xs ++ [s]) ys hs'
    rw [List.append_assoc, List.append_assoc] at hmoved
    exact hmoved

/-! ## The loop -/

/-- The rounds of `while (ExtractQueryKeyValue (…))` from a query on, up to its end. -/
inductive QueryLoop (spec : Bytes) : Component → List (Component × Component) → Prop where
  | done (query : Component) (h : extractQueryKeyValue spec query = none) : QueryLoop spec query []
  | round (query key value rest : Component) (pairs : List (Component × Component))
      (h : extractQueryKeyValue spec query = some (key, value, rest))
      (hrest : QueryLoop spec rest pairs) : QueryLoop spec query ((key, value) :: pairs)

/-- The loop ends, since every round leaves less of the query. -/
theorem queryLoop_ends (spec : Bytes) (query : Component) (hspec : query.stop ≤ spec.length) :
    QueryLoop spec query (queryPairs spec query.len query) := by
  induction hlen : query.len using Nat.strong_induction_on generalizing query with
  | _ len ih =>
      subst hlen
      cases hfirst : extractQueryKeyValue spec query with
      | none =>
          have hnil : queryPairs spec query.len query = [] := by
            cases query.len with
            | zero => rfl
            | succ n => simp only [queryPairs, hfirst]
          rw [hnil]
          exact .done query hfirst
      | some found =>
          obtain ⟨key, value, rest⟩ := found
          obtain ⟨hless, hstop⟩ :=
            extractQueryKeyValue_shrinks spec query key value rest hspec hfirst
          obtain ⟨fuel, hfuel⟩ := Nat.exists_eq_succ_of_ne_zero (n := query.len) (by omega)
          have hrest := ih rest.len hless rest (hstop ▸ hspec) rfl
          rw [← queryPairs_of_le spec rest (hstop ▸ hspec) fuel (by omega)] at hrest
          rw [hfuel]
          simp only [queryPairs, hfirst]
          exact .round query key value rest _ hfirst hrest

theorem queryLoop_unique (spec : Bytes) (query : Component)
    (pairs pairs' : List (Component × Component)) (h : QueryLoop spec query pairs)
    (h' : QueryLoop spec query pairs') : pairs = pairs' := by
  induction h generalizing pairs' with
  | done query hnone =>
      cases h' with
      | done => rfl
      | round _ key value rest pairs hsome => exact absurd (hnone.symm.trans hsome) (by simp)
  | round query key value rest pairs hsome _ ih =>
      cases h' with
      | done _ hnone => exact absurd (hnone.symm.trans hsome) (by simp)
      | round _ key' value' rest' pairs' hsome' hrest' =>
          obtain ⟨rfl, rfl, rfl⟩ : key = key' ∧ value = value' ∧ rest = rest' := by
            simpa using hsome.symm.trans hsome'
          rw [ih pairs' hrest']

/-! ## A round -/

/-- A scan of a middle part. -/
theorem scan_middle (p : UInt8 → Bool) (before middle after : Bytes) :
    scan p (before ++ middle ++ after) before.length (before.length + middle.length)
      = before.length + (middle.takeWhile p).length := by
  have htake : (before ++ middle ++ after).take (before.length + middle.length)
      = before ++ middle := by
    rw [← List.length_append, List.take_left]
  unfold scan
  rw [htake, List.drop_left]

theorem takeWhile_run (p : UInt8 → Bool) (run rest : Bytes) (hrun : ∀ c ∈ run, p c = true)
    (hrest : ∀ c ∈ rest.head?, p c = false) : (run ++ rest).takeWhile p = run := by
  rw [List.takeWhile_append_of_pos hrun]
  cases rest with
  | nil => simp
  | cons c rest =>
      rw [List.takeWhile_cons_of_neg (by simp [hrest c rfl]), List.append_nil]

/-- A scan that is stopped by the first character after a run. -/
theorem scan_run (p : UInt8 → Bool) (before run more after : Bytes) (hrun : ∀ c ∈ run, p c = true)
    (hmore : ∀ c ∈ more.head?, p c = false) :
    scan p (before ++ (run ++ more) ++ after) before.length (before.length + (run ++ more).length)
      = (before ++ run).length := by
  rw [scan_middle, takeWhile_run p run more hrun hmore, List.length_append]

/-- What a separated part begins with. -/
theorem head_separated (separator : Char) (part : Option Bytes) (more : Bytes) (c : UInt8)
    (hc : c ∈ (separated separator part ++ more).head?) :
    c = code separator ∨ c ∈ more.head? := by
  cases part with
  | none => exact .inr hc
  | some text => exact .inl (Option.some.inj hc).symm

/-- The separator of a part that is there. -/
def mark (separator : Char) (part : Option Bytes) : Bytes :=
  part.elim [] fun _ => [code separator]

theorem separated_mark (separator : Char) (part : Option Bytes) :
    separated separator part = mark separator part ++ part.getD [] := by
  cases part <;> rfl

/-- `if (cur < end && spec[cur] == separator) cur++;` -/
theorem skip_mark (separator : Char) (part : Option Bytes) (before more after : Bytes)
    (hmore : part = none → ∀ c ∈ more.head?, c ≠ code separator) :
    (if before.length < before.length + (mark separator part ++ more).length
        ∧ (before ++ (mark separator part ++ more) ++ after).getD before.length 0 = code separator
      then before.length + 1 else before.length)
      = before.length + (mark separator part).length := by
  have hat : (before ++ (mark separator part ++ more) ++ after).getD before.length 0
      = ((mark separator part ++ more) ++ after).getD 0 0 := by
    rw [List.append_assoc, List.getD_append_right _ _ _ _ (Nat.le_refl _), Nat.sub_self]
  rw [hat]
  cases part with
  | some text => exact if_pos ⟨Nat.lt_add_of_pos_right (Nat.succ_pos _), rfl⟩
  | none =>
      refine if_neg ?_
      rintro ⟨hlt, hc⟩
      cases more with
      | nil => exact absurd hlt (Nat.lt_irrefl _)
      | cons c more => exact hmore rfl c rfl hc

/-- **A round takes the first segment**, and cuts it at its first `=`. -/
theorem extractQueryKeyValue_round (before key after : Bytes) (value rest : Option Bytes)
    (hkey : ∀ c ∈ key, c ≠ code '&' ∧ c ≠ code '=') (hvalue : ∀ text ∈ value, code '&' ∉ text)
    (hne : key ++ separated '=' value ++ separated '&' rest ≠ []) :
    extractQueryKeyValue (before ++ (key ++ separated '=' value ++ separated '&' rest) ++ after)
        ⟨before.length, (key ++ separated '=' value ++ separated '&' rest).length⟩
      = some (⟨before.length, key.length⟩,
          ⟨(before ++ key ++ mark '=' value).length, (value.getD []).length⟩,
          ⟨(before ++ key ++ mark '=' value ++ value.getD [] ++ mark '&' rest).length,
            (rest.getD []).length⟩) := by
  obtain ⟨spec, hspec⟩ : ∃ spec,
      before ++ (key ++ separated '=' value ++ separated '&' rest) ++ after = spec := ⟨_, rfl⟩
  obtain ⟨stop, hstop⟩ : ∃ stop,
      before.length + (key ++ separated '=' value ++ separated '&' rest).length = stop := ⟨_, rfl⟩
  have hrestHead : ∀ c ∈ (separated '&' rest).head?, c = code '&' := by
    intro c hc
    rw [← List.append_nil (separated '&' rest)] at hc
    exact (head_separated '&' rest [] c hc).resolve_right (by simp)
  -- the key ends at a separator or with the query
  have hkeyEnd : scan (fun ch => ch ≠ code '&' && ch ≠ code '=') spec before.length stop
      = (before ++ key).length := by
    rw [← hspec, ← hstop, List.append_assoc key]
    refine scan_run _ before key _ after (fun c hc => by simp [hkey c hc]) fun c hc => ?_
    rcases head_separated '=' value _ c hc with rfl | hrest
    · rfl
    · rw [hrestHead c hrest]
      rfl
  have hvalueBegin : (if (before ++ key).length < stop
        ∧ spec.getD (before ++ key).length 0 = code '=' then (before ++ key).length + 1
      else (before ++ key).length) = (before ++ key ++ mark '=' value).length := by
    have hskip := skip_mark '=' value (before ++ key) (value.getD [] ++ separated '&' rest) after
      (by
        rintro rfl c hc
        rw [hrestHead c hc]
        decide)
    rw [← List.append_assoc (mark '=' value), ← separated_mark] at hskip
    rw [← hspec, ← hstop, @List.length_append _ _ (mark '=' value), ← hskip]
    simp only [List.append_assoc, List.length_append, Nat.add_assoc]
  have hvalueEnd : scan (· ≠ code '&') spec (before ++ key ++ mark '=' value).length stop
      = (before ++ key ++ mark '=' value ++ value.getD []).length := by
    have hsplit : spec = (before ++ key ++ mark '=' value) ++ (value.getD [] ++ separated '&' rest)
        ++ after := by
      rw [← hspec, separated_mark '=']
      simp only [List.append_assoc]
    have hlength : stop = (before ++ key ++ mark '=' value).length
        + (value.getD [] ++ separated '&' rest).length := by
      rw [← hstop, separated_mark '=']
      simp only [List.length_append]
      omega
    rw [hsplit, hlength]
    refine scan_run _ _ _ _ after ?_ ?_
    · intro c hc
      refine decide_eq_true ?_
      rintro rfl
      cases value with
      | none => exact absurd hc List.not_mem_nil
      | some text => exact hvalue text rfl hc
    · intro c hc
      rw [hrestHead c hc]
      rfl
  have hrestBegin : (if (before ++ key ++ mark '=' value ++ value.getD []).length < stop
        ∧ spec.getD (before ++ key ++ mark '=' value ++ value.getD []).length 0 = code '&'
      then (before ++ key ++ mark '=' value ++ value.getD []).length + 1
      else (before ++ key ++ mark '=' value ++ value.getD []).length)
      = (before ++ key ++ mark '=' value ++ value.getD [] ++ mark '&' rest).length := by
    have hskip := skip_mark '&' rest (before ++ key ++ mark '=' value ++ value.getD [])
      (rest.getD []) after (by
        rintro rfl c hc
        exact absurd hc (by simp))
    rw [@List.length_append _ _ (mark '&' rest), ← hskip, ← hspec, ← hstop, separated_mark '=',
      separated_mark '&']
    simp only [List.append_assoc, List.length_append, Nat.add_assoc]
  have hpos : (key ++ separated '=' value ++ separated '&' rest).length ≠ 0 :=
    fun hzero => hne (List.length_eq_zero_iff.mp hzero)
  unfold extractQueryKeyValue
  rw [if_neg hpos, hspec]
  simp only [Component.stop, hstop, hkeyEnd, hvalueBegin, hvalueEnd, hrestBegin, makeRange,
    Option.some.injEq, Prod.mk.injEq, Component.mk.injEq, true_and]
  rw [← hstop, separated_mark '=', separated_mark '&']
  simp only [List.length_append]
  omega

/-! ## All rounds -/

theorem segmentValue_nil (key : Bytes) (h : key ≠ []) : segmentValue key [] = none :=
  if_neg fun hnil => h hnil.symm

/-- The segments of a query, taken one by one. -/
theorem splitOn_cutAt (text : Bytes) (key : Bytes) (h : key ≠ []) :
    (text.splitOn (code '&')).filterMap (segmentValue key)
      = ((segmentValue key (cutAt '&' text).1).toList
        ++ (((cutAt '&' text).2.getD []).splitOn (code '&')).filterMap (segmentValue key)) := by
  have hnil : ([] : Bytes).splitOn (code '&') = [[]] := List.splitOn_nil _
  have hnotMem := notMem_cutAt '&' text
  have hsplit := cutAt_append '&' text
  cases hrest : (cutAt '&' text).2 with
  | none =>
      rw [hrest] at hsplit
      have htext : (cutAt '&' text).1 = text := (List.append_nil _).symm.trans hsplit
      rw [htext] at hnotMem ⊢
      rw [List.splitOn_eq_singleton hnotMem, Option.getD_none, hnil,
        List.filterMap_cons_none (segmentValue_nil key h), List.filterMap_nil, List.append_nil]
      cases hvalue : segmentValue key text <;> simp [hvalue]
  | some rest =>
      rw [hrest] at hsplit
      have htext : (cutAt '&' text).1 ++ code '&' :: rest = text := hsplit
      rw [← htext, List.splitOn_append_cons_self_of_not_mem hnotMem, htext, Option.getD_some]
      cases hvalue : segmentValue key (cutAt '&' text).1 <;> simp [hvalue]

/-- A round reads the first segment of a query that is not empty, and leaves the others. -/
theorem queryRound_segment (key before text after : Bytes) (hne : text ≠ []) :
    ∃ pair before',
      extractQueryKeyValue (before ++ text ++ after) ⟨before.length, text.length⟩
          = some (pair.1, pair.2, ⟨before'.length, ((cutAt '&' text).2.getD []).length⟩)
        ∧ pairValue (before ++ text ++ after) key pair = segmentValue key (cutAt '&' text).1
        ∧ before ++ text ++ after = before' ++ (cutAt '&' text).2.getD [] ++ after
        ∧ ((cutAt '&' text).2.getD []).length < text.length := by
  obtain ⟨rest, hrest⟩ : ∃ rest, (cutAt '&' text).2 = rest := ⟨_, rfl⟩
  obtain ⟨segment, hsegment⟩ : ∃ segment, (cutAt '&' text).1 = segment := ⟨_, rfl⟩
  obtain ⟨value, hvalue⟩ : ∃ value, (cutAt '=' segment).2 = value := ⟨_, rfl⟩
  obtain ⟨name, hname⟩ : ∃ name, (cutAt '=' segment).1 = name := ⟨_, rfl⟩
  have hcut : name ++ separated '=' value = segment := by
    rw [← hname, ← hvalue, cutAt_append]
  have htext : name ++ separated '=' value ++ separated '&' rest = text := by
    rw [hcut, ← hsegment, ← hrest, cutAt_append]
  have hplain : code '&' ∉ segment := hsegment ▸ notMem_cutAt '&' text
  have hround := extractQueryKeyValue_round before name after value rest
    (by
      intro c hc
      refine ⟨?_, ?_⟩
      · rintro rfl
        exact hplain (hcut ▸ List.mem_append_left _ hc)
      · rintro rfl
        exact notMem_cutAt '=' segment (hname ▸ hc))
    (fun text htext hmem => hplain (mem_of_mem_cutAt_rest '=' segment text _
      (hvalue ▸ htext) hmem))
    (htext ▸ hne)
  rw [htext] at hround
  rw [hrest, hsegment]
  refine ⟨⟨_, _⟩, _, hround, ?_, ?_, ?_⟩
  · have hkeyText : Component.text ⟨before.length, name.length⟩ (before ++ text ++ after)
        = name := by
      rw [Component.text, ← htext, List.append_assoc name, ← List.append_assoc before,
        List.append_assoc (before ++ name)]
      exact peek_append_middle before name _ _ _ rfl rfl
    have hvalueText : Component.text
        ⟨(before ++ name ++ mark '=' value).length, (value.getD []).length⟩
        (before ++ text ++ after) = value.getD [] := by
      have hsplit : before ++ text ++ after = (before ++ name ++ mark '=' value) ++ value.getD []
          ++ (separated '&' rest ++ after) := by
        rw [← htext, separated_mark '=']
        simp only [List.append_assoc]
      rw [Component.text, hsplit]
      exact peek_append_middle _ _ _ _ _ rfl rfl
    unfold pairValue segmentValue segmentKey segmentText
    rw [hkeyText, hvalueText, hname, hvalue]
  · rw [← htext, separated_mark '=', separated_mark '&']
    simp only [List.append_assoc]
  · have hlength : text.length = (name ++ separated '=' value).length
        + (separated '&' rest).length := by
      rw [← htext, List.length_append]
    cases rest with
    | none => exact List.length_pos_iff.mpr hne
    | some rest =>
        have hpart : (separated '&' (some rest)).length = rest.length + 1 := rfl
        rw [Option.getD_some]
        omega

/-- **The pairs that the loop finds are the segments of the query.** -/
theorem queryPairs_segments (key : Bytes) (hkey : key ≠ []) (fuel : Nat)
    (before text after : Bytes) (hfuel : text.length ≤ fuel) :
    (queryPairs (before ++ text ++ after) fuel ⟨before.length, text.length⟩).filterMap
        (pairValue (before ++ text ++ after) key)
      = (text.splitOn (code '&')).filterMap (segmentValue key) := by
  have hnil : (([] : Bytes).splitOn (code '&')).filterMap (segmentValue key) = [] := by
    rw [List.splitOn_nil, List.filterMap_cons_none (segmentValue_nil key hkey), List.filterMap_nil]
  induction fuel generalizing before text with
  | zero =>
      obtain rfl := List.length_eq_zero_iff.mp (Nat.le_zero.mp hfuel)
      exact hnil.symm
  | succ fuel ih =>
      by_cases hne : text = []
      · subst hne
        exact hnil.symm
      · obtain ⟨pair, before', hround, hfirst, hspec, hless⟩ :=
          queryRound_segment key before text after hne
        have hih := ih before' ((cutAt '&' text).2.getD []) (by omega)
        rw [← hspec] at hih
        rw [splitOn_cutAt text key hkey, ← hih, ← hfirst]
        simp only [queryPairs, hround]
        cases hpair : pairValue (before ++ text ++ after) key pair with
        | none => rw [List.filterMap_cons_none hpair, Option.toList_none, List.nil_append]
        | some found =>
            rw [List.filterMap_cons_some hpair, Option.toList_some, List.singleton_append]

/-- The values of a query are those of its segments. -/
theorem queryValue_segments (key : Bytes) (hkey : key ≠ []) (before text after : Bytes) :
    queryValue (before ++ text ++ after) key ⟨before.length, text.length⟩
      = lastValue key (text.splitOn (code '&')) := by
  unfold queryValue lastValue
  rw [queryPairs_segments key hkey text.length before text after (Nat.le_refl _)]

/-! ## The analytics -/

/-- The two times. -/
def Times.pair (t : Times) : Option Int32 × Option Int32 :=
  (t.openTime, t.closeTime)

/-- After its reset, a member has the times of the segments. -/
theorem parseRequest_segments (t : Times) (before text after : Bytes) :
    (t.reset.parseRequest (before ++ text ++ after) ⟨before.length, text.length⟩).pair
      = segmentTimes (text.splitOn (code '&')) := by
  obtain ⟨hopen, hclose⟩ :=
    parseRequest_times t.reset (before ++ text ++ after) ⟨before.length, text.length⟩
  rw [queryValue_segments _ (by decide)] at hopen hclose
  have hunset : t.reset.openTime = none ∧ t.reset.closeTime = none := ⟨rfl, rfl⟩
  rw [hunset.1, Option.or_none] at hopen
  rw [hunset.2, Option.or_none] at hclose
  exact Prod.ext hopen hclose

/-- What a query comes to, wherever it stands in a URL: the loop has an end, which the model's count
    of rounds reaches; the three members have the times of its segments; a segment for another key
    makes no difference, and neither does the order of two neighbours for the two keys. -/
structure QueryParsed (α : Type) [Zero α] (before text after : Bytes) : Prop where
  terminates : QueryLoop (before ++ text ++ after) ⟨before.length, text.length⟩
    (queryPairs (before ++ text ++ after) text.length ⟨before.length, text.length⟩)
  deterministic : ∀ pairs, QueryLoop (before ++ text ++ after) ⟨before.length, text.length⟩ pairs →
    pairs = queryPairs (before ++ text ++ after) text.length ⟨before.length, text.length⟩
  bar : ∀ b : Bar α, (b.reset.parseRequest (before ++ text ++ after)
    ⟨before.length, text.length⟩).times.pair = segmentTimes (text.splitOn (code '&'))
  rollupBar : ∀ b : RollupBar α, (b.reset.parseRequest (before ++ text ++ after)
    ⟨before.length, text.length⟩).times.pair = segmentTimes (text.splitOn (code '&'))
  close : ∀ b : Close α, (b.reset.parseRequest (before ++ text ++ after)
    ⟨before.length, text.length⟩).times.pair = segmentTimes (text.splitOn (code '&'))
  other : ∀ xs segment ys text', text.splitOn (code '&') = xs ++ segment :: ys →
    text'.splitOn (code '&') = xs ++ ys → segmentKey segment ≠ kOpenParameter →
    segmentKey segment ≠ kCloseParameter → ∀ t : Times,
    (t.reset.parseRequest (before ++ text' ++ after) ⟨before.length, text'.length⟩).pair
      = (t.reset.parseRequest (before ++ text ++ after) ⟨before.length, text.length⟩).pair
  swap : ∀ xs segment segment' ys text', text.splitOn (code '&') = xs ++ segment :: segment' :: ys →
    text'.splitOn (code '&') = xs ++ segment' :: segment :: ys →
    segmentKey segment = kOpenParameter → segmentKey segment' = kCloseParameter → ∀ t : Times,
    (t.reset.parseRequest (before ++ text' ++ after) ⟨before.length, text'.length⟩).pair
      = (t.reset.parseRequest (before ++ text ++ after) ⟨before.length, text.length⟩).pair

/-- **A query is parsed by its segments.** -/
theorem query_parsed (α : Type) [Zero α] (before text after : Bytes) :
    QueryParsed α before text after := by
  have hspec : Component.stop ⟨before.length, text.length⟩ ≤ (before ++ text ++ after).length := by
    rw [List.length_append, List.length_append]
    exact Nat.le_add_right _ _
  have hkeys : kOpenParameter ≠ kCloseParameter := by decide
  have hloop := queryLoop_ends (before ++ text ++ after) ⟨before.length, text.length⟩ hspec
  exact {
    terminates := hloop
    deterministic := fun pairs hpairs => queryLoop_unique _ _ pairs _ hpairs hloop
    bar := fun b => parseRequest_segments b.times before text after
    rollupBar := fun b => parseRequest_segments b.times before text after
    close := fun b => parseRequest_segments b.times before text after
    other := by
      intro xs segment ys text' htext htext' hopen hclose t
      rw [parseRequest_segments, parseRequest_segments, htext, htext']
      unfold segmentTimes
      rw [lastValue_other _ segment xs ys hopen, lastValue_other _ segment xs ys hclose]
    swap := by
      intro xs segment segment' ys text' htext htext' hopen hclose t
      rw [parseRequest_segments, parseRequest_segments, htext, htext']
      unfold segmentTimes
      rw [lastValue_swap kOpenParameter segment segment' xs ys (.inr (hclose ▸ hkeys.symm)),
        lastValue_swap kCloseParameter segment segment' xs ys (.inl (hopen ▸ hkeys))] }

example : segmentTimes ((ascii "open=1&&x=2&open=3=4&").splitOn (code '&')) = (some 3, none) := by
  decide +kernel

end Hitsuji
