import Hitsuji.Worker.UrlParse
import Hitsuji.Provider.StatusClose
import Mathlib.Data.List.DropRight
import Mathlib.Data.List.GetD

set_option autoImplicit false

/-! # The URL of an item name

`OnTask` puts an item name behind `null://localhost/` and parses the whole as a URL. The base fixes
the scheme and the authority, so that the path always begins at its last slash; what is left of the
name after the trailing blanks are trimmed is a path up to the first `?` or `#`, a query up to the
first `#`, and a fragment. The symbol is the last segment of the path. -/

namespace Hitsuji

open ByteBuffer UrlParse

/-! ## Composed names -/

/-- A part behind its separator, if it is there at all. -/
def separated (separator : Char) (part : Option Bytes) : Bytes :=
  part.elim [] fun text => code separator :: text

/-- `path[?query][#ref]` -/
def composeName (path : Bytes) (query ref : Option Bytes) : Bytes :=
  path ++ separated '?' query ++ separated '#' ref

/-- What an item name is appended to. -/
def urlBase : Bytes :=
  ascii "null://localhost/"

/-- A name in parts, and the blanks and control characters behind it. -/
structure NameParts where
  path : Bytes
  query : Option Bytes
  ref : Option Bytes
  tail : Bytes
  path_plain : ∀ c ∈ path, c ≠ code '?' ∧ c ≠ code '#'
  query_plain : ∀ text ∈ query, code '#' ∉ text
  tail_trimmed : ∀ c ∈ tail, shouldTrimFromURL c = true
  last_kept : ∀ c ∈ (composeName path query ref).getLast?, shouldTrimFromURL c = false

namespace NameParts

variable (n : NameParts)

/-- The name without what is trimmed. -/
def name : Bytes :=
  composeName n.path n.query n.ref

/-- The name as it is requested. -/
def itemName : Bytes :=
  n.name ++ n.tail

end NameParts

/-- A text up to its first separator, and what follows it. -/
def cutAt (separator : Char) (text : Bytes) : Bytes × Option Bytes :=
  (text.takeWhile (· ≠ code separator), match text.dropWhile (· ≠ code separator) with
    | [] => none
    | _ :: rest => some rest)

theorem cutAt_append (separator : Char) (text : Bytes) :
    (cutAt separator text).1 ++ separated separator (cutAt separator text).2 = text := by
  have hparts := List.takeWhile_append_dropWhile (p := (· ≠ code separator)) (l := text)
  unfold cutAt
  dsimp only
  cases hrest : text.dropWhile (· ≠ code separator) with
  | nil =>
      rw [hrest] at hparts
      exact hparts
  | cons c rest =>
      have hc := List.head?_dropWhile_not (· ≠ code separator) text
      rw [hrest] at hc hparts
      obtain rfl : c = code separator := by simpa using hc
      exact hparts

theorem notMem_cutAt (separator : Char) (text : Bytes) :
    code separator ∉ (cutAt separator text).1 := by
  intro hmem
  have hne := List.mem_takeWhile_imp hmem
  simp at hne

theorem mem_of_mem_cutAt (separator : Char) (text : Bytes) (c : UInt8)
    (h : c ∈ (cutAt separator text).1) : c ∈ text :=
  (List.takeWhile_prefix _).subset h

theorem mem_of_mem_cutAt_rest (separator : Char) (text rest : Bytes) (c : UInt8)
    (hrest : rest ∈ (cutAt separator text).2) (h : c ∈ rest) : c ∈ text := by
  rw [← cutAt_append separator text, Option.mem_def.mp hrest]
  exact List.mem_append_right _ (List.mem_cons_of_mem _ h)

/-- A name cut at its first `#`, and what is before that at its first `?`. -/
theorem composeName_cutAt (name : Bytes) :
    composeName (cutAt '?' (cutAt '#' name).1).1 (cutAt '?' (cutAt '#' name).1).2
      (cutAt '#' name).2 = name := by
  rw [composeName, cutAt_append, cutAt_append]

/-- The parts of any name. -/
def NameParts.of (itemName : Bytes) : NameParts where
  path := (cutAt '?' (cutAt '#' (itemName.rdropWhile shouldTrimFromURL)).1).1
  query := (cutAt '?' (cutAt '#' (itemName.rdropWhile shouldTrimFromURL)).1).2
  ref := (cutAt '#' (itemName.rdropWhile shouldTrimFromURL)).2
  tail := itemName.rtakeWhile shouldTrimFromURL
  path_plain := by
    intro c hc
    refine ⟨?_, ?_⟩
    · rintro rfl
      exact notMem_cutAt '?' _ hc
    · rintro rfl
      exact notMem_cutAt '#' _ (mem_of_mem_cutAt '?' _ _ hc)
  query_plain := by
    intro text htext hmem
    exact notMem_cutAt '#' _ (mem_of_mem_cutAt_rest '?' _ text _ htext hmem)
  tail_trimmed := fun _ hc => List.mem_rtakeWhile_imp hc
  last_kept := by
    intro c hc
    rw [composeName_cutAt] at hc
    obtain ⟨hne, rfl⟩ := List.mem_getLast?_eq_getLast hc
    exact Bool.eq_false_iff.mpr (List.rdropWhile_last_not _ _ hne)

theorem NameParts.of_itemName (itemName : Bytes) : (NameParts.of itemName).itemName = itemName := by
  show composeName _ _ _ ++ _ = itemName
  rw [NameParts.of, composeName_cutAt]
  exact List.rdropWhile_append_rtakeWhile

/-! ## Separators -/

/-- A character that leaves what `ParsePath` has found as it is. -/
def Passes (found : Option Nat × Option Nat) (c : UInt8) : Prop :=
  found.2.isSome ∨ c ≠ code '#' ∧ (c = code '?' → found.1.isSome)

theorem separatorStep_passes (spec : Bytes) (found : Option Nat × Option Nat) (i : Nat)
    (h : Passes found (spec.getD i 0)) : separatorStep spec found i = found := by
  obtain ⟨query, ref⟩ := found
  unfold separatorStep
  generalize spec.getD i 0 = c at h
  dsimp only
  rcases h with href | ⟨hhash, hmark⟩
  · obtain ⟨j, rfl⟩ : ∃ j, ref = some j := Option.isSome_iff_exists.mp href
    simp
  · by_cases hc : c = code '?'
    · obtain ⟨j, rfl⟩ : ∃ j, query = some j := Option.isSome_iff_exists.mp (hmark hc)
      simp [hc]
    · simp [hc, hhash]

/-- A stretch of such characters is passed over. -/
theorem separators_passed (spec text rest : Bytes) (found : Option Nat × Option Nat) (b : Nat)
    (hspec : spec.drop b = text ++ rest) (htext : ∀ c ∈ text, Passes found c) :
    (List.range' b text.length).foldl (separatorStep spec) found = found := by
  induction text generalizing b with
  | nil => rfl
  | cons c text ih =>
      have hc : spec.getD b 0 = c := by
        rw [List.getD_eq_getElem?_getD, ← List.head?_drop, hspec]
        rfl
      have hrest : spec.drop (b + 1) = text ++ rest := by
        rw [← List.drop_drop, hspec]
        rfl
      rw [List.length_cons, List.range'_succ, List.foldl_cons,
        separatorStep_passes spec found b (hc ▸ htext c (List.mem_cons_self ..))]
      exact ih (b + 1) hrest fun c' hc' => htext c' (List.mem_cons_of_mem _ hc')

/-- `?` is found after the path, -/
theorem separators_query (spec text rest : Bytes) (b : Nat)
    (hspec : spec.drop b = code '?' :: text ++ rest) (htext : code '#' ∉ text) :
    (List.range' b (text.length + 1)).foldl (separatorStep spec) (none, none)
      = (some b, none) := by
  have hc : spec.getD b 0 = code '?' := by
    rw [List.getD_eq_getElem?_getD, ← List.head?_drop, hspec]
    rfl
  have hrest : spec.drop (b + 1) = text ++ rest := by
    rw [← List.drop_drop, hspec]
    rfl
  have hstep : separatorStep spec (none, none) b = (some b, none) := by
    simp only [separatorStep, hc, if_true, Option.isNone_none, Bool.and_true]
  rw [List.range'_succ, List.foldl_cons, hstep]
  refine separators_passed spec text rest _ (b + 1) hrest fun c hmem => .inr ⟨?_, fun _ => rfl⟩
  rintro rfl
  exact htext hmem

/-- and `#` after the query. -/
theorem separators_ref (spec text rest : Bytes) (query : Option Nat) (b : Nat)
    (hspec : spec.drop b = code '#' :: text ++ rest) :
    (List.range' b (text.length + 1)).foldl (separatorStep spec) (query, none)
      = (query, some b) := by
  have hc : spec.getD b 0 = code '#' := by
    rw [List.getD_eq_getElem?_getD, ← List.head?_drop, hspec]
    rfl
  have hrest : spec.drop (b + 1) = text ++ rest := by
    rw [← List.drop_drop, hspec]
    rfl
  have hmark : code '#' ≠ code '?' := by decide
  have hstep : separatorStep spec (query, none) b = (query, some b) := by
    simp only [separatorStep, hc, if_neg hmark, if_true, Option.isNone_none]
  rw [List.range'_succ, List.foldl_cons, hstep]
  exact separators_passed spec text rest _ (b + 1) hrest fun _ _ => .inl rfl

/-- What the loop of `ParsePath` finds in a composed name. -/
theorem separators_compose (spec path tail : Bytes) (query ref : Option Bytes) (b : Nat)
    (hspec : spec.drop b = composeName path query ref ++ tail)
    (hpath : ∀ c ∈ path, c ≠ code '?' ∧ c ≠ code '#') (hquery : ∀ text ∈ query, code '#' ∉ text) :
    (List.range' b (composeName path query ref).length).foldl (separatorStep spec) (none, none)
      = (query.map fun _ => b + path.length,
        ref.map fun _ => b + path.length + (separated '?' query).length) := by
  have hlength : (composeName path query ref).length
      = path.length + ((separated '?' query).length + (separated '#' ref).length) := by
    simp only [composeName, List.length_append]
    omega
  have hdrop : spec.drop (b + path.length)
      = separated '?' query ++ (separated '#' ref ++ tail) := by
    rw [← List.drop_drop, hspec, composeName, List.append_assoc, List.append_assoc, List.drop_left]
  have hdrop' : spec.drop (b + path.length + (separated '?' query).length)
      = separated '#' ref ++ tail := by
    rw [← List.drop_drop, hdrop, List.drop_left]
  have hpassed : (List.range' b path.length).foldl (separatorStep spec) (none, none)
      = (none, none) := by
    refine separators_passed spec path (separated '?' query ++ (separated '#' ref ++ tail)) _ b ?_
      fun c hc => .inr ⟨(hpath c hc).2, fun hmark => absurd hmark (hpath c hc).1⟩
    rw [hspec, composeName, List.append_assoc, List.append_assoc]
  have hfound : (List.range' (b + path.length) (separated '?' query).length).foldl
      (separatorStep spec) (none, none) = (query.map fun _ => b + path.length, none) := by
    cases query with
    | none => rfl
    | some text => exact separators_query spec text _ _ hdrop (hquery text rfl)
  rw [hlength, ← List.range'_append_1, ← List.range'_append_1, List.foldl_append,
    List.foldl_append, hpassed, hfound]
  cases ref with
  | none => rfl
  | some text => exact separators_ref spec text tail _ _ hdrop'

/-! ## The URL -/

/-- Trimming stops at the last character that is kept. -/
theorem trimEnd_eq (spec : Bytes) (n m : Nat) (hle : n ≤ m)
    (htail : ∀ i, n ≤ i → i < m → shouldTrimFromURL (spec.getD i 0) = true)
    (hlast : 0 < n ∧ shouldTrimFromURL (spec.getD (n - 1) 0) = false) : trimEnd spec 0 m = n := by
  induction m with
  | zero => exact absurd hlast.1 (by omega)
  | succ m ih =>
      unfold trimEnd
      rcases Nat.lt_or_ge m n with hlt | hge
      · obtain rfl : n = m + 1 := by omega
        rw [Nat.add_sub_cancel] at hlast
        rw [if_neg fun htrim => Bool.false_ne_true (hlast.2.symm.trans htrim.2)]
      · rw [if_pos ⟨Nat.succ_pos m, htail m hge (Nat.lt_succ_self m)⟩]
        exact ih hge fun i hlo hhi => htail i hlo (Nat.lt_succ_of_lt hhi)

namespace NameParts

variable (n : NameParts)

/-- The URL of the name. -/
def url : Bytes :=
  urlBase ++ n.itemName

theorem last_urlBase_name :
    shouldTrimFromURL ((urlBase ++ n.name).getD ((urlBase ++ n.name).length - 1) 0) = false := by
  rw [List.getD_eq_getElem?_getD, ← List.getLast?_eq_getElem?, List.getLast?_append]
  cases hlast : n.name.getLast? with
  | none => rfl
  | some c => exact n.last_kept c hlast

/-- Nothing is trimmed before the URL, and the tail of the name behind it. -/
theorem trimURL_url : trimURL n.url n.url.length = (0, 17 + n.name.length) := by
  have hurl : n.url = (urlBase ++ n.name) ++ n.tail := (List.append_assoc ..).symm
  have hlength : (urlBase ++ n.name).length = 17 + n.name.length := List.length_append
  have hbegin : scan shouldTrimFromURL n.url 0 n.url.length = 0 := by
    unfold scan
    rw [List.take_length]
    rfl
  have hend : trimEnd n.url 0 n.url.length = 17 + n.name.length := by
    refine trimEnd_eq n.url _ _ ?_ (fun i hlo hhi => ?_) ⟨by omega, ?_⟩
    · rw [hurl, List.length_append, hlength]
      omega
    · rw [hurl, List.length_append, hlength] at hhi
      rw [hurl, List.getD_append_right _ _ _ _ (by omega), hlength]
      rw [List.getD_eq_getElem _ _ (by omega)]
      exact n.tail_trimmed _ (List.getElem_mem _)
    · rw [hurl, List.getD_append _ _ _ _ (by omega), ← hlength]
      exact n.last_urlBase_name
  unfold trimURL
  rw [hbegin]
  dsimp only
  rw [hend]

theorem take_url : n.url.take (17 + n.name.length) = urlBase ++ n.name := by
  have hlength : (urlBase ++ n.name).length = 17 + n.name.length := List.length_append
  have hurl : n.url = (urlBase ++ n.name) ++ n.tail := (List.append_assoc ..).symm
  rw [hurl, ← hlength, List.take_left]

theorem extractScheme_url : extractScheme n.url (17 + n.name.length) = some ⟨0, 4⟩ := by
  have hbegin : scan shouldTrimFromURL n.url 0 (17 + n.name.length) = 0 := by
    unfold scan
    rw [take_url]
    rfl
  have hcolon : scan (· ≠ code ':') n.url 0 (17 + n.name.length) = 4 := by
    unfold scan
    rw [take_url]
    rfl
  unfold extractScheme
  rw [hbegin]
  dsimp only
  rw [hcolon, if_neg (by omega), if_pos (by omega)]
  rfl

/-- The authority ends at the last slash of the base, and the path begins with it. -/
theorem parseStandardURL_path :
    parseStandardURL n.url
      = match parsePath n.url (some ⟨16, n.name.length + 1⟩) with
        | (path, query, ref) => ⟨some ⟨0, 4⟩, path, query, ref⟩ := by
  have hslashes : scan isURLSlash n.url 5 (17 + n.name.length) = 7 := by
    unfold scan
    rw [take_url]
    rfl
  have hauthority : scan (fun ch => !isAuthorityTerminator ch) n.url 7 (17 + n.name.length)
      = 16 := by
    unfold scan
    rw [take_url]
    rfl
  have hrange : makeRange 16 (17 + n.name.length) = ⟨16, n.name.length + 1⟩ := by
    simp only [makeRange, Component.mk.injEq, true_and]
    omega
  unfold parseStandardURL
  rw [trimURL_url]
  dsimp only
  rw [extractScheme_url]
  dsimp only [Component.stop]
  unfold parseAfterScheme
  dsimp only
  rw [hslashes, hauthority, if_neg (by omega), hrange]

/-- Where the parts of a name are in its URL. -/
def parsed : Parsed where
  scheme := some ⟨0, 4⟩
  path := some ⟨16, n.path.length + 1⟩
  query := n.query.map fun text => ⟨n.path.length + 18, text.length⟩
  ref := n.ref.map fun text =>
    ⟨n.path.length + (separated '?' n.query).length + 18, text.length⟩

/-- The path is cut at the separators that its loop finds. -/
theorem parsePath_url :
    parsePath n.url (some ⟨16, n.name.length + 1⟩)
      = (n.parsed.path, n.parsed.query, n.parsed.ref) := by
  have hdrop : n.url.drop 17 = composeName n.path n.query n.ref ++ n.tail := rfl
  have hlength : n.name.length
      = n.path.length + ((separated '?' n.query).length + (separated '#' n.ref).length) := by
    simp only [name, composeName, List.length_append]
    omega
  have hfound : (List.range' (16 + 1) n.name.length).foldl (separatorStep n.url) (none, none) = _ :=
    separators_compose n.url n.path n.tail n.query n.ref 17 hdrop n.path_plain n.query_plain
  have hchar : n.url.getD 16 0 = code '/' := rfl
  have hslash : separatorStep n.url (none, none) 16 = (none, none) :=
    separatorStep_passes n.url _ 16 (.inr (by rw [hchar]; decide))
  unfold parsePath
  dsimp only
  rw [List.range'_succ, List.foldl_cons, hslash, hfound, hlength]
  unfold parsed
  cases n.query with
  | none =>
      cases n.ref with
      | none => simp [makeRange, Component.stop, separated]
      | some ref => simp [makeRange, Component.stop, separated]; omega
  | some query =>
      cases n.ref with
      | none => simp [makeRange, Component.stop, separated]; omega
      | some ref => simp [makeRange, Component.stop, separated]; omega

/-- **The URL of a name is parsed into the parts of the name.** -/
theorem parseStandardURL_url : parseStandardURL n.url = n.parsed := by
  rw [parseStandardURL_path, parsePath_url]
  rfl

end NameParts

/-! ## The file name -/

/-- A path as directories that end in a slash, the last segment, and its last parameter. -/
structure PathParts where
  front : Bytes
  symbol : Bytes
  param : Option Bytes
  front_ends : ∀ c ∈ front.getLast?, isURLSlash c = true
  symbol_plain : ∀ c ∈ symbol, isURLSlash c = false
  param_last : ∀ c ∈ param.getD (front ++ symbol), c ≠ code ';'

/-- The path in one. -/
def PathParts.path (q : PathParts) : Bytes :=
  q.front ++ q.symbol ++ separated ';' q.param

theorem scanBack_none (p : UInt8 → Bool) (spec : Bytes) (lo hi : Nat)
    (h : ∀ i, lo ≤ i → i < hi → p (spec.getD i 0) = false) : scanBack p spec lo hi = none := by
  induction hi with
  | zero => rfl
  | succ hi ih =>
      unfold scanBack
      by_cases hlt : hi < lo
      · rw [if_pos hlt]
      · rw [if_neg hlt, h hi (Nat.le_of_not_lt hlt) (Nat.lt_succ_self hi),
          if_neg Bool.false_ne_true]
        exact ih fun i hlo hhi => h i hlo (Nat.lt_succ_of_lt hhi)

theorem scanBack_some (p : UInt8 → Bool) (spec : Bytes) (lo hi i : Nat) (hlo : lo ≤ i)
    (hhi : i < hi) (hi' : p (spec.getD i 0) = true)
    (h : ∀ j, i < j → j < hi → p (spec.getD j 0) = false) : scanBack p spec lo hi = some i := by
  induction hi with
  | zero => exact absurd hhi (Nat.not_lt_zero i)
  | succ hi ih =>
      unfold scanBack
      rw [if_neg (by omega)]
      by_cases heq : i = hi
      · subst heq
        rw [if_pos hi']
      · rw [h hi (by omega) (Nat.lt_succ_self hi), if_neg Bool.false_ne_true]
        exact ih (by omega) fun j hj hj' => h j hj (Nat.lt_succ_of_lt hj')

/-- What is read between the ends of a middle part is in it. -/
theorem getD_middle_mem (before middle after : Bytes) (i : Nat) (hlo : before.length ≤ i)
    (hhi : i < before.length + middle.length) :
    (before ++ middle ++ after).getD i 0 ∈ middle := by
  rw [List.append_assoc, List.getD_append_right _ _ _ _ hlo,
    List.getD_append _ _ _ _ (by omega), List.getD_eq_getElem _ _ (by omega)]
  exact List.getElem_mem _

namespace NameParts

variable (n : NameParts)

theorem url_parts (q : PathParts) (hpath : n.path = q.path) :
    ∃ rest, n.url = urlBase ++ q.front ++ q.symbol ++ separated ';' q.param ++ rest := by
  refine ⟨separated '?' n.query ++ separated '#' n.ref ++ n.tail, ?_⟩
  simp only [url, itemName, name, composeName, hpath, PathParts.path, List.append_assoc]

/-- The last semicolon of the path begins its parameter. -/
theorem scanBack_param (q : PathParts) (hpath : n.path = q.path) :
    (scanBack (· = code ';') n.url 17 (17 + n.path.length)).getD (17 + n.path.length)
      = 17 + q.front.length + q.symbol.length := by
  obtain ⟨rest, hurl⟩ := n.url_parts q hpath
  have hlength : n.path.length
      = q.front.length + q.symbol.length + (separated ';' q.param).length := by
    simp only [hpath, PathParts.path, List.length_append]
  have hbase : urlBase.length = 17 := rfl
  have hlast := q.param_last
  rw [hlength]
  cases hparam : q.param with
  | none =>
      rw [hparam] at hlast hurl
      rw [scanBack_none]
      · simp only [separated, Option.elim_none, List.length_nil, Option.getD_none]
        omega
      · intro i hlo hhi
        have hmem : n.url.getD i 0 ∈ q.front ++ q.symbol := by
          rw [hurl]
          simp only [separated, Option.elim_none, List.length_nil] at hhi ⊢
          rw [List.append_nil, List.append_assoc urlBase]
          exact getD_middle_mem urlBase _ rest i (by omega) (by rw [List.length_append]; omega)
        exact decide_eq_false (hlast _ hmem)
  | some text =>
      rw [hparam] at hlast hurl
      have hsplit : n.url = (urlBase ++ q.front ++ q.symbol) ++ code ';' :: (text ++ rest) := by
        rw [hurl]
        simp [separated]
      have hbefore : (urlBase ++ q.front ++ q.symbol).length
          = 17 + q.front.length + q.symbol.length := by
        simp only [List.length_append, hbase]
      rw [scanBack_some (i := 17 + q.front.length + q.symbol.length)]
      · rfl
      · omega
      · simp only [separated, Option.elim_some, List.length_cons]
        omega
      · rw [hsplit, ← hbefore, List.getD_append_right _ _ _ _ (Nat.le_refl _), Nat.sub_self]
        rfl
      · intro j hlo hhi
        have hmem : n.url.getD j 0 ∈ text := by
          have hsplit' : n.url = (urlBase ++ q.front ++ q.symbol ++ [code ';']) ++ text ++ rest := by
            rw [hsplit]
            simp
          have hbefore' : (urlBase ++ q.front ++ q.symbol ++ [code ';']).length
              = 17 + q.front.length + q.symbol.length + 1 := by
            rw [List.length_append, hbefore]
            rfl
          simp only [separated, Option.elim_some, List.length_cons] at hhi
          rw [hsplit']
          exact getD_middle_mem _ text rest j (by omega) (by omega)
        exact decide_eq_false (hlast _ hmem)

/-- The slash before the last segment, the one of the base if there is no other. -/
theorem scanBack_slash (q : PathParts) (hpath : n.path = q.path) :
    scanBack isURLSlash n.url 16 (17 + q.front.length + q.symbol.length)
      = some (16 + q.front.length) := by
  obtain ⟨rest, hurl⟩ := n.url_parts q hpath
  have hbase : urlBase.length = 17 := rfl
  refine scanBack_some _ _ _ _ _ (by omega) (by omega) ?_ fun j hlo hhi => ?_
  · have hlast : isURLSlash ((urlBase ++ q.front).getD ((urlBase ++ q.front).length - 1) 0)
        = true := by
      rw [List.getD_eq_getElem?_getD, ← List.getLast?_eq_getElem?, List.getLast?_append]
      cases hfront : q.front.getLast? with
      | none => rfl
      | some c => exact q.front_ends c hfront
    have hindex : (urlBase ++ q.front).length - 1 = 16 + q.front.length := by
      rw [List.length_append, hbase]
      omega
    rw [hindex] at hlast
    rw [hurl, List.append_assoc (urlBase ++ q.front), List.append_assoc (urlBase ++ q.front),
      List.getD_append _ _ _ _ (by rw [List.length_append, hbase]; omega)]
    exact hlast
  · refine q.symbol_plain _ ?_
    rw [hurl, List.append_assoc (urlBase ++ q.front ++ q.symbol)]
    exact getD_middle_mem (urlBase ++ q.front) _ _ j (by rw [List.length_append, hbase]; omega)
      (by rw [List.length_append, hbase]; omega)

/-- **The file name is the last segment of the path, without its parameter.** -/
theorem extractFileName_url (q : PathParts) (hpath : n.path = q.path) :
    extractFileName n.url n.parsed.path = some ⟨17 + q.front.length, q.symbol.length⟩ := by
  have hstop : Component.stop ⟨16, n.path.length + 1⟩ = 17 + n.path.length := by
    simp only [Component.stop]
    omega
  unfold extractFileName parsed
  dsimp only
  rw [if_neg (Nat.succ_ne_zero _), hstop, n.scanBack_param q hpath, n.scanBack_slash q hpath]
  simp only [makeRange, Option.some.injEq, Component.mk.injEq]
  omega

/-- Its text. -/
theorem text_symbol (q : PathParts) (hpath : n.path = q.path) :
    Component.text ⟨17 + q.front.length, q.symbol.length⟩ n.url = q.symbol := by
  obtain ⟨rest, hurl⟩ := n.url_parts q hpath
  rw [Component.text, hurl, List.append_assoc (urlBase ++ q.front ++ q.symbol)]
  exact peek_append_middle _ _ _ _ _ (by rw [List.length_append]; rfl) rfl

/-- The query is the one of the name, -/
theorem text_query : n.parsed.query.map (·.text n.url) = n.query := by
  unfold parsed
  dsimp only
  rw [Option.map_map]
  cases hquery : n.query with
  | none => rfl
  | some text =>
      have hurl : n.url = (urlBase ++ n.path ++ [code '?']) ++ text
          ++ (separated '#' n.ref ++ n.tail) := by
        simp [url, itemName, name, composeName, hquery, separated]
      rw [Option.map_some, Function.comp_apply, Component.text, hurl]
      congr 1
      refine peek_append_middle _ _ _ _ _ ?_ rfl
      rw [List.length_append, List.length_append]
      show n.path.length + 18 = 17 + n.path.length + 1
      omega

/-- and so is the fragment. -/
theorem text_ref : n.parsed.ref.map (·.text n.url) = n.ref := by
  unfold parsed
  dsimp only
  rw [Option.map_map]
  cases href : n.ref with
  | none => rfl
  | some text =>
      have hurl : n.url = (urlBase ++ n.path ++ separated '?' n.query ++ [code '#']) ++ text
          ++ n.tail := by
        simp [url, itemName, name, composeName, href, separated]
      rw [Option.map_some, Function.comp_apply, Component.text, hurl]
      congr 1
      refine peek_append_middle _ _ _ _ _ ?_ rfl
      rw [List.length_append, List.length_append, List.length_append]
      show n.path.length + (separated '?' n.query).length + 18
        = 17 + n.path.length + (separated '?' n.query).length + 1
      omega

end NameParts

end Hitsuji
