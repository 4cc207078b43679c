import Hitsuji.Worker.OneReply
import Hitsuji.Worker.UrlName

set_option autoImplicit false

/-! # How an item name is taken apart

The parts of a name are what `OnTask` goes by: the last segment of the path is the symbol, the query
goes to `ParseRequest` and the fragment picks the implementation. There is a guard for a name without
a symbol, which asks whether the file name is valid; but the path of a name always begins with the
last slash of the base, and an empty file name is a valid one. -/

namespace Hitsuji

open ByteBuffer UrlParse

/-! ## What a task makes of a name -/

/-- The implementation for a fragment. -/
def fragmentSelection (ref : Option Bytes) : Selection :=
  if ref = some (ascii "test") then .test
  else if ref = some (ascii "rollup") then .rollupBar
  else if ref = some (ascii "close") then .close
  else .bar

theorem selection_fragment (url : Bytes) (ref : Option Component) :
    Worker.selection url ref = fragmentSelection (ref.map (·.text url)) := by
  unfold Worker.selection fragmentSelection
  cases ref with
  | none => rfl
  | some ref => simp only [Option.map_some, Option.some.injEq]

/-- What is printed is not trimmed. -/
theorem shouldTrim_printable (c : UInt8) (h : 32 < c ∧ c < 127) : shouldTrimFromURL c = false := by
  have hlo : 32 < c.toNat := UInt8.lt_iff_toNat_lt.mp h.1
  have hhi : c.toNat < 127 := UInt8.lt_iff_toNat_lt.mp h.2
  have hvalue : c.toInt8.toInt = c.toBitVec.toInt := rfl
  have hnat : c.toBitVec.toNat = c.toNat := rfl
  refine decide_eq_false fun hle => ?_
  have hle' : c.toInt8.toInt ≤ 32 := Int8.le_iff_toInt_le.mp hle
  rw [hvalue, BitVec.toInt_eq_toNat_cond, hnat, if_pos (by omega)] at hle'
  omega

namespace Worker

variable (w : Worker) (env : TaskEnv) (view : RequestView) (n : NameParts)

/-- A task with a name in parts. -/
theorem onView_parts (q : PathParts) (hpath : n.path = q.path) :
    w.onView env view n.itemName
      = onSymbol { w with
          rssl := w.rssl.resetLength
          url := urlBase ++ n.itemName
          underlyingSymbol := q.symbol } env view n.itemName n.parsed.query
        (w.analytic (fragmentSelection n.ref)).reset := by
  have hparse : parseStandardURL (ascii "null://localhost/" ++ n.itemName) = n.parsed :=
    n.parseStandardURL_url
  have hfile : extractFileName (ascii "null://localhost/" ++ n.itemName) n.parsed.path = _ :=
    n.extractFileName_url q hpath
  have hsymbol : Component.text ⟨17 + q.front.length, q.symbol.length⟩
      (ascii "null://localhost/" ++ n.itemName) = q.symbol := n.text_symbol q hpath
  have href : n.parsed.ref.map (·.text (ascii "null://localhost/" ++ n.itemName)) = n.ref :=
    n.text_ref
  unfold onView
  dsimp only
  rw [hparse, hfile]
  dsimp only
  rw [hsymbol, selection_fragment, href]
  cases fragmentSelection n.ref <;> rfl

end Worker

/-- **A composed name is taken apart into what it was composed of**: the symbol, the query and the
    implementation for the fragment. -/
theorem onTask_itemName (w : Worker) (env : TaskEnv) (buffer : Bytes) (view : RequestView)
    (symbol : Bytes) (query ref : Option Bytes)
    (hview : decodeRequest .lengthFirst buffer = .ok (some view))
    (hname : view.name buffer = composeName symbol query ref)
    (hsymbol : ∀ c ∈ symbol, c ≠ code '/' ∧ c ≠ code '\\' ∧ c ≠ code ';' ∧ c ≠ code '?'
      ∧ c ≠ code '#')
    (hquery : ∀ text ∈ query, code '#' ∉ text)
    (hlast : ∀ c ∈ (composeName symbol query ref).getLast?, 32 < c ∧ c < 127) :
    ∃ component : Option Component,
      component.map (·.text (urlBase ++ composeName symbol query ref)) = query
        ∧ w.onTask env buffer
          = Worker.onSymbol { w with
              rssl := w.rssl.resetLength
              url := urlBase ++ composeName symbol query ref
              underlyingSymbol := symbol } env view (composeName symbol query ref) component
            (w.analytic (fragmentSelection ref)).reset := by
  obtain ⟨n, hn, hpath, hq, hr⟩ : ∃ n : NameParts, n.itemName = composeName symbol query ref
      ∧ n.path = symbol ∧ n.query = query ∧ n.ref = ref :=
    ⟨⟨symbol, query, ref, [], fun c hc => ⟨(hsymbol c hc).2.2.2.1, (hsymbol c hc).2.2.2.2⟩, hquery,
      fun c hc => absurd hc List.not_mem_nil, fun c hc => shouldTrim_printable c (hlast c hc)⟩,
      List.append_nil _, rfl, rfl, rfl⟩
  let q : PathParts := {
    front := []
    symbol := symbol
    param := none
    front_ends := fun c hc => by simp at hc
    symbol_plain := fun c hc => by simp [isURLSlash, (hsymbol c hc).1, (hsymbol c hc).2.1]
    param_last := fun c hc => (hsymbol c hc).2.2.1 }
  have hparts : n.path = q.path := by
    rw [hpath]
    exact (List.append_nil _).symm
  refine ⟨n.parsed.query, ?_, ?_⟩
  · rw [← hn]
    exact n.text_query.trans hq
  · have htask := w.onView_parts env view n q hparts
    rw [hn, hr] at htask
    unfold Worker.onTask
    rw [hview]
    dsimp only
    rw [hname]
    exact htask

/-! ## Names without a symbol -/

/-- What is extracted as the symbol of a name. -/
def symbolOf (itemName : Bytes) : Option Bytes :=
  let url := urlBase ++ itemName
  (extractFileName url (parseStandardURL url).path).map (·.text url)

/-- No symbol but an empty one can be extracted. -/
def Nameless (itemName : Bytes) : Prop :=
  ∀ symbol ∈ symbolOf itemName, symbol = []

theorem symbolOf_parts (itemName : Bytes) (q : PathParts)
    (hpath : (NameParts.of itemName).path = q.path) : symbolOf itemName = some q.symbol := by
  have hurl : urlBase ++ itemName = (NameParts.of itemName).url := by
    rw [NameParts.url, NameParts.of_itemName]
  unfold symbolOf
  dsimp only
  rw [hurl, NameParts.parseStandardURL_url, NameParts.extractFileName_url _ q hpath,
    Option.map_some, NameParts.text_symbol _ q hpath]

/-- So is a name whose path has nothing, or only a parameter, after its last slash: an empty one, a
    query or a fragment alone among them. -/
theorem nameless_of_path (itemName front : Bytes) (param : Option Bytes)
    (hfront : ∀ c ∈ front.getLast?, isURLSlash c = true)
    (hparam : ∀ c ∈ param.getD front, c ≠ code ';')
    (hpath : (NameParts.of itemName).path = front ++ separated ';' param) : Nameless itemName := by
  intro symbol hmem
  let q : PathParts := {
    front := front
    symbol := []
    param := param
    front_ends := hfront
    symbol_plain := fun c hc => absurd hc List.not_mem_nil
    param_last := by rw [List.append_nil]; exact hparam }
  have hq : (NameParts.of itemName).path = q.path := by
    rw [hpath, PathParts.path, List.append_nil]
  rw [symbolOf_parts itemName q hq] at hmem
  exact (Option.some.inj hmem).symm

/-- A request without a symbol is answered as malformed. -/
def NamelessRejected (w : Worker) (db : FlexRecords ℚ) (itemName : Bytes) : Prop :=
  ∃ w', w.prepare db itemName = .close w' .closed .notFound Worker.kErrorMalformedRequest

/-- The path always begins with a slash of the base, so that there always is a file name. -/
theorem symbolOf_isSome (itemName : Bytes) : (symbolOf itemName).isSome = true := by
  have hurl : urlBase ++ itemName = (NameParts.of itemName).url := by
    rw [NameParts.url, NameParts.of_itemName]
  unfold symbolOf
  dsimp only
  rw [hurl, NameParts.parseStandardURL_url, Option.isSome_map]
  unfold NameParts.parsed extractFileName
  dsimp only
  rw [if_neg (Nat.succ_ne_zero _)]
  split <;> rfl

/-- **No request is rejected for want of a symbol**: the empty symbol is looked up, and calculated
    where it is found. -/
theorem nameless_lookedUp (w : Worker) (db : FlexRecords ℚ) (itemName : Bytes)
    (h : Nameless itemName) :
    ¬ NamelessRejected w db itemName
      ∧ ∃ (w₁ : Worker) (query : Option Component) (a : Analytic), w₁.underlyingSymbol = []
        ∧ w.prepare db itemName = w₁.prepareSymbol db query a := by
  obtain ⟨symbol, hsymbol⟩ := Option.isSome_iff_exists.mp (symbolOf_isSome itemName)
  obtain rfl := h symbol hsymbol
  obtain ⟨fileName, hfile, htext⟩ := Option.map_eq_some_iff.mp hsymbol
  have hprepare : ∃ (w₁ : Worker) (query : Option Component) (a : Analytic),
      w₁.underlyingSymbol = [] ∧ w.prepare db itemName = w₁.prepareSymbol db query a := by
    unfold urlBase at hfile htext
    unfold Worker.prepare
    dsimp only
    rw [hfile]
    exact ⟨_, _, _, htext, rfl⟩
  refine ⟨?_, hprepare⟩
  obtain ⟨w₁, query, a, -, hw₁⟩ := hprepare
  rintro ⟨w', hclose⟩
  rw [hw₁] at hclose
  exact prepareSymbol_malformed w₁ w' db query a _ hclose

section Replay

set_option maxRecDepth 20000

/-- Separators again in the query and in the fragment. -/
theorem separatorsAgain_parsed :
    ∃ component : Option Component,
      component.map (·.text (urlBase ++ ascii "u?open=0&a/b;c?d#close")) = some
          (ascii "open=0&a/b;c?d")
        ∧ freshWorker.onTask (taskEnv noSymbols false)
            (requestImage (requestFor (ascii "u?open=0&a/b;c?d#close") true))
          = Worker.onSymbol { freshWorker with
              rssl := freshWorker.rssl.resetLength
              url := urlBase ++ ascii "u?open=0&a/b;c?d#close"
              underlyingSymbol := ascii "u" } (taskEnv noSymbols false)
            (viewFor (ascii "u?open=0&a/b;c?d#close") true)
            (ascii "u?open=0&a/b;c?d#close") component (freshWorker.analytic .close).reset :=
  onTask_itemName freshWorker (taskEnv noSymbols false)
    (requestImage (requestFor (ascii "u?open=0&a/b;c?d#close") true))
    (viewFor (ascii "u?open=0&a/b;c?d#close") true) (ascii "u") (some (ascii "open=0&a/b;c?d"))
    (some (ascii "close")) (decodeRequest_image _) (by decide +kernel) (by decide) (by decide)
    (by decide)

theorem emptyName_lookedUp : ¬ NamelessRejected freshWorker noSymbols []
    ∧ ∃ (w₁ : Worker) (query : Option Component) (a : Analytic), w₁.underlyingSymbol = []
      ∧ freshWorker.prepare noSymbols [] = w₁.prepareSymbol noSymbols query a :=
  nameless_lookedUp freshWorker noSymbols [] (by unfold Nameless; decide +kernel)

/-- A name without a symbol is not found, or calculated where every symbol is. -/
theorem namelessTaken_unrejected :
    Nameless (ascii "a/;b?open=0")
      ∧ ¬ NamelessRejected freshWorker noSymbols (ascii "a/;b?open=0")
      ∧ (∃ w', freshWorker.prepare noSymbols (ascii "a/;b?open=0")
        = .close w' .closed .notFound Worker.kErrorNotFound)
      ∧ ∃ w' a, freshWorker.prepare noRecords (ascii "a/;b?open=0") = .calculate w' a
        ∧ w'.underlyingSymbol = [] := by
  have hclose : ∃ w', freshWorker.prepare noSymbols (ascii "a/;b?open=0")
      = .close w' .closed .notFound Worker.kErrorNotFound := ⟨_, rfl⟩
  refine ⟨by unfold Nameless; decide +kernel, ?_, hclose, _, _, rfl, by decide +kernel⟩
  rintro ⟨w', hmalformed⟩
  obtain ⟨w'', hnotFound⟩ := hclose
  exact absurd (Prepared.close.inj (hmalformed.symm.trans hnotFound)).2.2.2 (by decide)

end Replay

end Hitsuji
