import Hitsuji.Vta.Quotes
import Hitsuji.Worker.History
import Hitsuji.Worker.ItemName
import Hitsuji.Worker.QuerySegments

set_option autoImplicit false

/-! # What an item name means

Every item name asks for something, `Item`: the symbol is the last segment of its path, the times
are those of its query, the analytic is that of its fragment. What there is to say about it is
a function of the database, its `verdict`.

`task_meant` says that a worker computes that function, whatever it did before: it refuses what is
refused, publishes what is quoted, and remembers nothing but a permission record. -/

namespace Hitsuji

open ByteBuffer UrlParse

/-! ## Items -/

/-- A path without its last parameter. -/
def withoutParam (path : Bytes) : Bytes :=
  (cutAt ';' path.reverse).2.elim path List.reverse

/-- The parts of any path. -/
def PathParts.of (path : Bytes) : PathParts where
  front := (withoutParam path).rdropWhile fun c => !isURLSlash c
  symbol := (withoutParam path).rtakeWhile fun c => !isURLSlash c
  param := (cutAt ';' path.reverse).2.map fun _ => (cutAt ';' path.reverse).1.reverse
  front_ends := by
    intro c hc
    obtain ⟨hne, rfl⟩ := List.mem_getLast?_eq_getLast hc
    have hlast := List.rdropWhile_last_not (fun c => !isURLSlash c) (withoutParam path) hne
    simpa using hlast
  symbol_plain := by
    intro c hc
    have hplain := List.mem_rtakeWhile_imp hc
    simpa using hplain
  param_last := by
    have hplain := notMem_cutAt ';' path.reverse
    have hsplit := cutAt_append ';' path.reverse
    intro c hc
    rintro rfl
    cases hcut : (cutAt ';' path.reverse).2 with
    | none =>
        have hwhole : withoutParam path = path := by
          simp only [withoutParam, hcut, Option.elim_none]
        rw [hcut, Option.map_none, Option.getD_none, List.rdropWhile_append_rtakeWhile,
          hwhole] at hc
        rw [hcut] at hsplit
        have hpath : (cutAt ';' path.reverse).1 = path.reverse :=
          (List.append_nil _).symm.trans hsplit
        rw [hpath] at hplain
        exact hplain (List.mem_reverse.mpr hc)
    | some rest =>
        rw [hcut, Option.map_some, Option.getD_some] at hc
        exact hplain (List.mem_reverse.mp hc)

theorem PathParts.of_path (path : Bytes) : (PathParts.of path).path = path := by
  have hsplit := cutAt_append ';' path.reverse
  show _ ++ _ ++ separated ';' ((cutAt ';' path.reverse).2.map _) = path
  rw [PathParts.of, List.rdropWhile_append_rtakeWhile]
  unfold withoutParam
  cases hcut : (cutAt ';' path.reverse).2 with
  | none => exact List.append_nil path
  | some rest =>
      rw [hcut] at hsplit
      have hback := congrArg List.reverse hsplit
      simpa [separated] using hback

/-- What a name asks for. -/
structure Item where
  symbol : Bytes
  analytic : Selection
  openTime : Option Int32
  closeTime : Option Int32
  deriving DecidableEq

/-- The item of a name. -/
def Item.of (itemName : Bytes) : Item :=
  let n := NameParts.of itemName
  let times := segmentTimes ((n.query.getD []).splitOn (code '&'))
  { symbol := (PathParts.of n.path).symbol
    analytic := fragmentSelection n.ref
    openTime := times.1
    closeTime := times.2 }

example : Item.of (ascii "a/u;p;q?close=2&open=0&open=-1#close ")
    = ⟨ascii "u;p", .close, some (-1), some 2⟩ := by
  decide +kernel

/-! ## Verdicts -/

/-- The reason to refuse an item, or what is published about it. -/
inductive Verdict where
  | refused (streamState : StreamState) (statusCode : StatusCode) (statusText : Bytes)
  | quoted (fields : List (Int × Value))

namespace Item

/-- What there is to say about an item. -/
def verdict (db : FlexRecords ℚ) (i : Item) : Verdict :=
  if db.isSymbolExists (Worker.cString i.symbol) = false then
    .refused .closed .notFound Worker.kErrorNotFound
  else if (db.permData (Worker.cString i.symbol)).raises = true then
    .refused .closed .notEntitled Worker.kErrorPermData
  else
    match quote db i.symbol (toUnixEpoch db.notADateTime i.openTime)
      (toUnixEpoch db.notADateTime i.closeTime) i.analytic with
    | none => .refused .closedRecover .error Worker.kErrorInternal
    | some fields => .quoted fields

/-- The permission record that comes with it. -/
def delivered (db : FlexRecords ℚ) (i : Item) : Option Bytes :=
  if db.isSymbolExists (Worker.cString i.symbol) = false then none
  else (db.permData (Worker.cString i.symbol)).delivered

end Item

/-- The encoding of what is published under a lock; `test_t` attaches none. -/
def quoteWrite (env : TaskEnv) (view : RequestView) (itemName : Bytes) (analytic : Selection)
    (fields : List (Int × Value)) (lock : Bytes) : Encoded :=
  encodeWith env.codec (refreshSteps env.dcheckIsOn view.rwfVersion
    (refreshResponse view.token view.serviceId itemName (if analytic = .test then [] else lock))
    fields maxMsgSize)

/-- The answer to a verdict; what cannot be encoded is refused. -/
def Verdict.answer (env : TaskEnv) (view : RequestView) (itemName : Bytes) (analytic : Selection)
    (lock : Bytes) : Verdict → Option Answer
  | .refused streamState statusCode statusText =>
      closeAnswer env view itemName streamState statusCode statusText
  | .quoted fields =>
      match quoteWrite env view itemName analytic fields lock with
      | .complete calls => some (sent env view (env.codec.image calls))
      | .failed _ => closeAnswer env view itemName .closedRecover .error Worker.kErrorInternal
      | .checkFailed => none

/-- The answer to a request for an item, and the lock from then on. -/
def Item.effect (env : TaskEnv) (view : RequestView) (itemName lock : Bytes) (i : Item) :
    Option (Answer × Bytes) :=
  let lock := (i.delivered env.db).getD lock
  ((i.verdict env.db).answer env view itemName i.analytic lock).map fun answer => (answer, lock)

/-! ## What a task comes to -/

/-- A name is taken apart at its separators. -/
theorem outcome_parts (db : FlexRecords ℚ) (n : NameParts) :
    outcome db n.itemName = symbolOutcome db n.url (PathParts.of n.path).symbol n.parsed.query
      (fragmentSelection n.ref).init := by
  have hpath := (PathParts.of_path n.path).symm
  have hparse : parseStandardURL (ascii "null://localhost/" ++ n.itemName) = n.parsed :=
    n.parseStandardURL_url
  have hfile : extractFileName (ascii "null://localhost/" ++ n.itemName) n.parsed.path = _ :=
    n.extractFileName_url (PathParts.of n.path) hpath
  have hsymbol := n.text_symbol (PathParts.of n.path) hpath
  have href : n.parsed.ref.map (·.text (ascii "null://localhost/" ++ n.itemName)) = n.ref :=
    n.text_ref
  unfold outcome
  dsimp only
  rw [hparse, hfile]
  dsimp only
  rw [selection_fragment, href]
  exact congrArg (symbolOutcome db n.url · n.parsed.query _) hsymbol

/-- The query sets the times of its segments, and no query leaves none. -/
theorem parsed_times (n : NameParts) (selected : Selection) :
    ∃ t : Times, (n.parsed.query.elim (true, selected.init) fun query =>
        selected.init.parseRequest n.url query) = (true, selected.at t)
      ∧ t.pair = segmentTimes ((n.query.getD []).splitOn (code '&')) := by
  rw [← at_init]
  cases hquery : n.query with
  | none =>
      refine ⟨.init, ?_, by decide⟩
      rw [NameParts.parsed, hquery]
      rfl
  | some text =>
      have hurl : n.url = (urlBase ++ n.path ++ [code '?']) ++ text
          ++ (separated '#' n.ref ++ n.tail) := by
        simp [NameParts.url, NameParts.itemName, NameParts.name, composeName, hquery, separated]
      have hcomponent : n.parsed.query
          = some ⟨(urlBase ++ n.path ++ [code '?']).length, text.length⟩ := by
        have hlength : (urlBase ++ n.path ++ [code '?']).length = n.path.length + 18 := by
          rw [List.length_append, List.length_append]
          show 17 + n.path.length + 1 = n.path.length + 18
          omega
        rw [NameParts.parsed, hquery, hlength, Option.map_some]
      refine ⟨_, by rw [hcomponent, Option.elim_some, parseRequest_at], ?_⟩
      rw [hurl]
      exact parseRequest_segments .init _ text _

/-- A refresh is encoded as the quote of its fields. -/
theorem refreshAnswer_quoted (env : TaskEnv) (view : RequestView) (itemName lock : Bytes)
    (a : Analytic) : refreshAnswer env view itemName a lock
      = (Verdict.quoted a.fields).answer env view itemName a.selection lock := by
  have hlock : (if a.attachesLock then lock else [])
      = if a.selection = .test then [] else lock := by
    unfold Analytic.attachesLock
    by_cases htest : a.selection = .test
    · simp [htest]
    · simp [htest]
  unfold refreshAnswer refreshWrite Verdict.answer quoteWrite Analytic.writeRaw
  generalize (if a.attachesLock then lock else []) = attached at hlock ⊢
  subst hlock
  rfl

/-- What comes of the symbol, an analytic without anything accumulated and the query of a name. -/
theorem symbolOutcome_meant (env : TaskEnv) (view : RequestView) (itemName lock : Bytes)
    (n : NameParts) (i : Item) (hsymbol : i.symbol = (PathParts.of n.path).symbol)
    (hanalytic : i.analytic = fragmentSelection n.ref)
    (htimes : (i.openTime, i.closeTime)
      = segmentTimes ((n.query.getD []).splitOn (code '&'))) :
    (symbolOutcome env.db n.url (PathParts.of n.path).symbol n.parsed.query
        (fragmentSelection n.ref).init).effect env view itemName lock
      = i.effect env view itemName lock := by
  obtain ⟨t, hparsed, hpair⟩ := parsed_times n (fragmentSelection n.ref)
  obtain ⟨hopen, hclose⟩ := Prod.mk.inj (hpair.trans htimes.symm)
  have hquote := calculate_quote i.analytic t env.db i.symbol
  rw [hopen, hclose] at hquote
  rw [← hanalytic] at hparsed ⊢
  rw [← hsymbol]
  unfold symbolOutcome Item.effect Item.delivered Item.verdict
  dsimp only
  rw [hparsed]
  by_cases hexists : env.db.isSymbolExists (Worker.cString i.symbol) = false
  · rw [if_pos hexists, if_pos hexists, if_pos hexists]
    rfl
  rw [if_neg hexists, if_neg hexists, if_neg hexists, if_neg (by simp)]
  unfold validatedOutcome Outcome.effect
  dsimp only
  by_cases hraises : (env.db.permData (Worker.cString i.symbol)).raises = true
  · rw [if_pos hraises, if_pos hraises]
    rfl
  rw [if_neg hraises, if_neg hraises, ← hquote]
  cases hcalculated : ((i.analytic.at t).calculate env.db i.symbol).1 with
  | false => rfl
  | true =>
      have hselected : ((i.analytic.at t).calculate env.db i.symbol).2.selection = i.analytic := by
        rw [selection_calculate, selection_at]
      have hanswer := refreshAnswer_quoted env view itemName
        ((env.db.permData (Worker.cString i.symbol)).delivered.getD lock)
        ((i.analytic.at t).calculate env.db i.symbol).2
      rw [hselected] at hanswer
      exact congrArg (Option.map _) hanswer

/-- The name that a worker is given: it is cut to its length byte. -/
def ItemRequest.heard (r : ItemRequest) : Bytes :=
  r.itemName.take (r.itemName.length % 256)

/-- The request as a worker reads it. -/
def ItemRequest.view (r : ItemRequest) : RequestView :=
  ⟨r.handle, r.rwfVersion, r.token, r.serviceId, r.useAttribInfoInUpdates, 26,
    r.itemName.length % 256⟩

/-- What a task comes to with the message of a request. -/
theorem onTask_image (w : Worker) (env : TaskEnv) (r : ItemRequest) :
    (w.onTask env (requestImage r)).map TaskDone.effect
      = (Item.of r.heard).effect env r.view r.heard w.dacsLock := by
  have hname : RequestView.name r.view (requestImage r) = r.heard := name_image r r.view rfl
  have houtcome := outcome_parts env.db (NameParts.of r.heard)
  rw [NameParts.of_itemName] at houtcome
  have hdecode : decodeRequest .lengthFirst (requestImage r) = .ok (some r.view) :=
    decodeRequest_image r
  rw [w.onTask_effect, serve, hdecode]
  dsimp only
  rw [hname, houtcome]
  exact symbolOutcome_meant env r.view r.heard w.dacsLock (NameParts.of r.heard) (Item.of r.heard)
    rfl rfl rfl

end Hitsuji
