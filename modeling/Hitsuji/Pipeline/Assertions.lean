import Hitsuji.Client.ServiceName
import Hitsuji.Client.Watchlist
import Hitsuji.Worker.OneReply

set_option autoImplicit false

/-! # Assertions on a peer's message

`WriteRawClose` and `WriteRaw` assert that the item they write about has a name. Nothing between the
decoder and these encoders makes sure of it: a message class or a domain that is not served is
closed with the attributes of the message as they came, and an item request is dispatched with
whatever name it has, of which the worker sees the length modulo 256. -/

namespace Hitsuji

open ByteBuffer Transition

/-! ## The session -/

/-- The message is closed with its attributes. -/
def Session.ClosesWithKey (s : Session) (m : InMsg) : Prop :=
  (m.msgClass ≠ .request ∧ m.msgClass ≠ .close)
    ∨ (m.msgClass = .request ∧ m.domainType ≠ .login ∧ m.domainType ≠ .source
      ∧ (m.domainType = .marketPrice → s.client.isLoggedIn = false)
      ∧ m.flags.msgKeyInUpdates = true)

/-- The message is an item request that is passed on. -/
def Session.Dispatches (s : Session) (m : InMsg) : Prop :=
  m.msgClass = .request ∧ m.domainType = .marketPrice ∧ s.client.isLoggedIn = true
    ∧ m.streamId ∉ s.client.tokens

theorem sendEncoded_eq_none (env : Env) (s : Session) (response : RsslMsg)
    (steps : List EncodeStep) :
    s.sendEncoded env response steps = none
      ↔ env.getBuffer = true ∧ encodeWith env.codec steps = .checkFailed := by
  unfold Session.sendEncoded
  cases env.getBuffer with
  | false => simp
  | true =>
      rw [if_pos rfl]
      generalize encodeWith env.codec steps = encoded
      rcases encoded with calls | (_ | _) | _ <;> simp

/-- Steps without an assertion are sent or given up. -/
theorem sendEncoded_unasserted (env : Env) (s : Session) (response : RsslMsg)
    (steps : List EncodeStep) (h : ∀ ok, .dcheck ok ∉ steps) :
    s.sendEncoded env response steps ≠ none := by
  intro hnone
  exact runSteps_unasserted env.codec [] steps h
    ((sendEncoded_eq_none env s response steps).mp hnone).2

/-- `WriteRawClose` asserts that there is an item name where it is to be told. -/
theorem writeRawClose_asserted (codec : Codec) (dcheckIsOn : Bool) (rwfVersion : UInt16)
    (a : CloseArgs) (length : Nat) :
    encodeWith codec (writeRawClose dcheckIsOn rwfVersion a length) = .checkFailed
      ↔ (dcheckIsOn && a.useAttribInfoInUpdates && a.itemName.isEmpty) = true := by
  refine (runSteps_asserted codec [] _
    (!(dcheckIsOn && a.useAttribInfoInUpdates && a.itemName.isEmpty)) ?_).trans (by simp)
  cases dcheckIsOn <;> simp [EncodeStep.rssl]

theorem sendClose_eq_none (env : Env) (s : Session) (a : CloseArgs)
    (hdcheck : env.dcheckIsOn = true) :
    s.sendClose env a = none
      ↔ env.getBuffer = true ∧ a.useAttribInfoInUpdates = true ∧ a.itemName = [] := by
  unfold Session.sendClose
  rw [sendEncoded_eq_none, writeRawClose_asserted, hdcheck, Bool.true_and, Bool.and_eq_true,
    List.isEmpty_iff]

theorem onLoginRequest_unasserted (env : Env) (s : Session) (m : InMsg) :
    s.onLoginRequest env m ≠ none := by
  have haccept : s.acceptLogin env m m.streamId ≠ none := by
    refine sendEncoded_unasserted env s _ _ fun ok hmem => ?_
    simp [acceptLoginSteps, acceptLoginPrologue, acceptLoginEpilogue, EncodeStep.rssl] at hmem
  have hreject : s.rejectLogin env m.streamId ≠ none := by
    refine sendEncoded_unasserted env s _ _ fun ok hmem => ?_
    simp [rejectLoginSteps, EncodeStep.rssl] at hmem
  unfold Session.onLoginRequest
  cases isValidLogin m with
  | false => exact hreject
  | true =>
      rw [if_pos rfl]
      generalize s.acceptLogin env m m.streamId = sent at haccept
      cases sent with
      | none => exact absurd rfl haccept
      | some d =>
          dsimp only
          split <;> simp

theorem onDirectoryRequest_unasserted (env : Env) (s : Session) (m : InMsg) :
    s.onDirectoryRequest env m ≠ none := by
  have hsend : ∀ (s : Session) serviceName,
      s.sendDirectoryRefresh env m.streamId serviceName m.msgKey.filter ≠ none := by
    intro s serviceName
    exact sendEncoded_unasserted env s _ _
      (directorySteps_unasserted m.msgKey.filter s.channel s.provider _ serviceName .addEntry)
  unfold Session.onDirectoryRequest
  dsimp only
  split
  · exact hsend _ _
  split
  · split
    · exact hsend _ _
    · exact hsend _ _
  · exact hsend _ _

/-- The domain is checked twice, and the second time it is the one it was dispatched by. -/
theorem onItemRequest_eq_none (env : Env) (s : Session) (m : InMsg)
    (hdomain : m.domainType = .marketPrice) :
    s.onItemRequest env m = none
      ↔ s.client.isLoggedIn = false
        ∧ s.sendClose env (usageError m m.flags.msgKeyInUpdates kErrorLoginRequired) = none := by
  unfold Session.onItemRequest
  by_cases hout : s.client.isLoggedIn = false
  · rw [if_pos hout]
    exact (and_iff_right hout).symm
  · rw [if_neg hout, if_neg (not_not.mpr hdomain)]
    refine iff_of_false ?_ fun h => hout h.1
    split
    · simp
    · dsimp only
      split <;> simp

/-- **A message ends the process if it is closed with its attributes and has no name.** -/
theorem onMsg_eq_none (env : Env) (s : Session) (m : InMsg) (hdcheck : env.dcheckIsOn = true) :
    s.onMsg env m = none
      ↔ env.getBuffer = true ∧ s.ClosesWithKey m ∧ m.msgKey.name = [] := by
  have hclose : ∀ use text, s.sendClose env (usageError m use text) = none
      ↔ env.getBuffer = true ∧ use = true ∧ m.msgKey.name = [] :=
    fun use text => sendClose_eq_none env s _ hdcheck
  unfold Session.onMsg Session.ClosesWithKey
  cases hclass : m.msgClass with
  | request =>
      unfold Session.onRequestMsg
      cases hdomain : m.domainType with
      | login =>
          refine iff_of_false (onLoginRequest_unasserted env s m) ?_
          simp
      | source =>
          refine iff_of_false (onDirectoryRequest_unasserted env s m) ?_
          simp
      | marketPrice =>
          dsimp only
          rw [onItemRequest_eq_none env s m hdomain, hclose]
          simp
          tauto
      | dictionary =>
          unfold Session.onDictionaryRequest
          dsimp only
          rw [hclose]
          simp
      | marketByOrder | marketByPrice | marketMaker | symbolList | yieldCurve | other _ =>
          dsimp only
          rw [hclose]
          simp
  | close => simp
  | refresh | status | update | ack | generic | post | other _ =>
      dsimp only
      rw [hclose]
      simp

/-! ## The task -/

section Task

variable (w : Worker) (env : TaskEnv) (view : RequestView) (itemName : Bytes)

theorem Ending.finish_isSome (ending : Ending) : ending.finish env ≠ none := by
  cases ending with
  | returnFalse w => simp [Ending.finish]
  | sendReply w handle token =>
      show w.sendReply env handle token ≠ none
      unfold Worker.sendReply
      rw [encodeReply_eq]
      split <;> simp

namespace Worker

theorem closing_eq_none (streamState : StreamState) (statusCode : StatusCode)
    (statusText : Bytes) :
    w.closing env view itemName streamState statusCode statusText = none
      ↔ (env.dcheckIsOn && view.useAttribInfoInUpdates && itemName.isEmpty) = true := by
  have hasserted := writeRawClose_asserted env.codec env.dcheckIsOn view.rwfVersion
    (closeArgs view itemName streamState statusCode statusText) w.rssl.length
  refine Iff.trans ?_ hasserted
  unfold closing encode
  generalize encodeWith env.codec _ = encoded
  cases encoded <;> simp

theorem closing_named (streamState : StreamState) (statusCode : StatusCode) (statusText : Bytes)
    (h : itemName ≠ []) : w.closing env view itemName streamState statusCode statusText ≠ none := by
  rw [Ne, closing_eq_none]
  simp [h]

theorem responding_named (a : Analytic) (h : itemName ≠ []) :
    w.responding env view itemName a ≠ none := by
  have hasserted := writeRaw_asserted itemName a w.dacsLock env.codec env.dcheckIsOn
    view.rwfVersion view.token view.serviceId w.rssl.length
  unfold responding encode
  generalize encodeWith env.codec _ = encoded at hasserted
  cases encoded with
  | complete calls => simp
  | failed exit => exact closing_named _ env view itemName _ _ _ h
  | checkFailed => simp [h] at hasserted

theorem responding_unnamed (a : Analytic) (h : env.dcheckIsOn = true) :
    w.responding env view [] a = none := by
  have hasserted := (writeRaw_asserted [] a w.dacsLock env.codec env.dcheckIsOn
    view.rwfVersion view.token view.serviceId w.rssl.length).mpr (by rw [h]; rfl)
  unfold responding encode
  rw [hasserted]

end Worker

/-- A task for an item with a name is finished. -/
theorem onTask_named (buffer : Bytes)
    (hview : decodeRequest .lengthFirst buffer = .ok (some view))
    (h : view.name buffer ≠ []) : w.onTask env buffer ≠ none := by
  rw [w.onTask_ending]
  unfold Worker.onTaskEnding
  rw [hview]
  dsimp only
  have hending : (w.prepare env.db (view.name buffer)).ending env view (view.name buffer)
      ≠ none := by
    cases w.prepare env.db (view.name buffer) with
    | close w' streamState statusCode statusText =>
        exact w'.closing_named env view _ _ _ _ h
    | calculate w' a =>
        unfold Prepared.ending
        dsimp only
        split
        · exact Worker.closing_named _ env view _ _ _ _ h
        · exact Worker.responding_named _ env view _ _ h
  generalize (w.prepare env.db (view.name buffer)).ending env view (view.name buffer) = ending
    at hending
  cases ending with
  | none => exact absurd rfl hending
  | some ending => exact ending.finish_isSome env

end Task

/-- One without is not, when every symbol is known, the empty one included. -/
theorem onTask_unnamed (buffer : Bytes) (view : RequestView)
    (hview : decodeRequest .lengthFirst buffer = .ok (some view)) (h : view.name buffer = []) :
    freshWorker.onTask (taskEnv noRecords true) buffer = none := by
  obtain ⟨w', a, hprepare⟩ : ∃ w' a, freshWorker.prepare noRecords [] = .calculate w' a :=
    ⟨_, _, rfl⟩
  have hcalculated : (a.calculate noRecords w'.underlyingSymbol).1 = true := by
    cases a <;> rfl
  have hdb : (taskEnv noRecords true).db = noRecords := rfl
  rw [freshWorker.onTask_ending]
  unfold Worker.onTaskEnding
  rw [hview]
  dsimp only
  rw [h, hdb, hprepare]
  unfold Prepared.ending
  dsimp only
  rw [hdb, hcalculated, if_neg (by decide), Worker.responding_unnamed _ _ _ _ rfl]
  rfl

/-- The worker sees of a name what its length modulo 256 leaves. -/
theorem name_image_eq_nil (r : ItemRequest) (view : RequestView)
    (hview : decodeRequest .lengthFirst (requestImage r) = .ok (some view)) :
    view.name (requestImage r) = [] ↔ r.itemName.length % 256 = 0 := by
  rw [decodeRequest_image] at hview
  obtain rfl := Option.some.inj (Except.ok.inj hview)
  rw [name_image r _ rfl, List.take_eq_nil_iff]
  refine ⟨fun h => h.elim id fun hnil => ?_, .inl⟩
  rw [hnil, List.length_nil, Nat.zero_mod]

/-! ## Both -/

/-- No assertion fails, neither in `OnMsg` nor in a task for the request it dispatches, whatever
    RSSL, the database and ZeroMQ answer. -/
structure Session.Unasserted (s : Session) (m : InMsg) : Prop where
  onMsg : ∀ env : Env, env.dcheckIsOn = true → s.onMsg env m ≠ none
  onTask : ∀ (env : Env) (d : Done) (request : ItemRequest), env.dcheckIsOn = true →
    s.onMsg env m = some d → .onRequest request ∈ d.events →
    ∀ (w : Worker) (task : TaskEnv) (mem : Nat → UInt8) (buffer : Bytes), task.dcheckIsOn = true →
      encodeRequest mem request = .ok buffer → w.onTask task buffer ≠ none

/-- What is closed with its attributes has a name, and what is dispatched one that is still there
    when its length is taken modulo 256. -/
structure Session.NamesItem (s : Session) (m : InMsg) : Prop where
  closed : s.ClosesWithKey m → m.msgKey.name ≠ []
  dispatched : s.Dispatches m → m.msgKey.name.length % 256 ≠ 0

/-- What a message dispatches is its own request. -/
theorem onMsg_onRequest (env : Env) (s : Session) (m : InMsg) (d : Done) (request : ItemRequest)
    (h : s.onMsg env m = some d) (hmem : .onRequest request ∈ d.events) :
    s.Dispatches m ∧ ∃ viewByFid, request = itemRequest s m viewByFid := by
  have hrequest : request ∈ requests d.events :=
    List.mem_filterMap.mpr ⟨.onRequest request, hmem, rfl⟩
  have hquiet : Quiet d.events → False := by
    intro hquiet
    rw [hquiet.1] at hrequest
    exact List.not_mem_nil hrequest
  rcases onMsg_cases env s m d h with ⟨-, -, hd⟩ | ⟨-, -, hd⟩ | ⟨hclass, hdomain, hd⟩
    | ⟨-, -, -, text, hd⟩ | ⟨-, rfl⟩ | ⟨-, -, hd⟩
  · exact (hquiet (onLoginRequest_quiet env s m d hd)).elim
  · exact (hquiet (onDirectoryRequest_quiet env s m d hd)).elim
  · have hevents := onItemRequest_events env s m d hd
    split at hevents
    · next haccepted =>
        obtain ⟨viewByFid, hevents⟩ := hevents
        rw [hevents, List.mem_singleton] at hmem
        exact ⟨⟨hclass, hdomain, haccepted⟩, viewByFid, Event.onRequest.inj hmem⟩
    · exact (hquiet hevents).elim
  · exact (hquiet (sendEncoded_quiet _ _ _ _ d hd)).elim
  · exact (hquiet (onCloseMsg_quiet s m)).elim
  · exact (hquiet (sendEncoded_quiet _ _ _ _ d hd)).elim

theorem dispatches_onRequest (env : Env) (s : Session) (m : InMsg) (h : s.Dispatches m) :
    ∃ d viewByFid, s.onMsg env m = some d
      ∧ .onRequest (itemRequest s m viewByFid) ∈ d.events := by
  obtain ⟨hclass, hdomain, hin, hnew⟩ := h
  have hmsg : s.onMsg env m = s.onItemRequest env m := by
    simp only [Session.onMsg, hclass, Session.onRequestMsg, hdomain]
  cases hitem : s.onItemRequest env m with
  | none =>
      have hout := ((onItemRequest_eq_none env s m hdomain).mp hitem).1
      exact absurd (hin.symm.trans hout) (by decide)
  | some d =>
      have hevents := onItemRequest_events env s m d hitem
      rw [if_pos ⟨hin, hnew⟩] at hevents
      obtain ⟨viewByFid, hevents⟩ := hevents
      refine ⟨d, viewByFid, hmsg.trans hitem, ?_⟩
      rw [hevents]
      exact List.mem_singleton_self _

theorem unasserted_iff (s : Session) (m : InMsg) : s.Unasserted m ↔ s.NamesItem m := by
  constructor
  · rintro ⟨honMsg, honTask⟩
    constructor
    · intro hcloses hname
      exact honMsg { willingEnv with dcheckIsOn := true } rfl
        ((onMsg_eq_none _ s m rfl).mpr ⟨rfl, hcloses, hname⟩)
    · intro hdispatches hlength
      obtain ⟨d, viewByFid, hd, hmem⟩ :=
        dispatches_onRequest { willingEnv with dcheckIsOn := true } s m hdispatches
      have hview := decodeRequest_image (itemRequest s m viewByFid)
      refine honTask _ d _ rfl hd hmem freshWorker (taskEnv noRecords true) (fun _ => 0) _ rfl
        (encodeRequest_eq _ _) (onTask_unnamed _ _ hview ?_)
      exact (name_image_eq_nil _ _ hview).mpr hlength
  · rintro ⟨hclosed, hdispatched⟩
    constructor
    · intro env hdcheck hnone
      obtain ⟨-, hcloses, hname⟩ := (onMsg_eq_none env s m hdcheck).mp hnone
      exact hclosed hcloses hname
    · intro env d request hdcheck hd hmem w task mem buffer _ hbuffer
      obtain ⟨hdispatches, viewByFid, rfl⟩ := onMsg_onRequest env s m d request hd hmem
      rw [encodeRequest_eq] at hbuffer
      obtain rfl := Except.ok.inj hbuffer
      have hview := decodeRequest_image (itemRequest s m viewByFid)
      refine onTask_named w task _ _ hview fun hnil => ?_
      exact hdispatched hdispatches ((name_image_eq_nil _ _ hview).mp hnil)

/-! ## Runs of a client -/

/-- The message of the call, if it has one, fails no assertion. -/
def Call.Unasserted (c : Client) (e : Call) : Prop :=
  ∀ m, e.input = .msg m → (e.session c).Unasserted m

/-- The message of the call, if it has one, names its item. -/
def Call.NamesItem (c : Client) (e : Call) : Prop :=
  ∀ m, e.input = .msg m → (e.session c).NamesItem m

theorem call_unasserted_iff (c : Client) (e : Call) : e.Unasserted c ↔ e.NamesItem c :=
  forall_congr' fun m => imp_congr_right fun _ => unasserted_iff (e.session c) m

/-- **In every state a client can reach, a peer's message fails no assertion exactly if it names its
    item**, and so it is with all the messages of a run. -/
theorem assertions_hold_iff (c₀ : Client) (p : Steps Client Call)
    (hrun : clientSystem.Run c₀ p) :
    (∀ e : Call, e.Unasserted (last c₀ p) ↔ e.NamesItem (last c₀ p))
      ∧ (Along (fun c e _ => e.Unasserted c) c₀ p ↔ Along (fun c e _ => e.NamesItem c) c₀ p) :=
  ⟨call_unasserted_iff _, along_congr _ _ _ (fun c e _ _ => call_unasserted_iff c e) c₀ p hrun.2⟩

/-- A login, and a request for an item with a name. -/
def namedRequest : List Call :=
  [willingCall (.msg (loginByName 1)), willingCall (.msg (.plain .request .marketPrice 5))]

theorem namedRequest_unasserted :
    ∃ p, replay Call.next clearSession.client namedRequest = some p
      ∧ Along (fun c e _ => e.Unasserted c) clearSession.client p := by
  refine ⟨_, rfl, ?_⟩
  refine (assertions_hold_iff clearSession.client _
    (run_replay _ Call.next clearSession.client namedRequest _ clearSession_init rfl)).2.mpr ?_
  refine ⟨?_, ?_, trivial⟩
  · rintro m ⟨⟩
    exact ⟨fun _ => by decide, fun h => absurd h.2.1 (by decide)⟩
  · rintro m ⟨⟩
    exact ⟨fun _ => by decide, fun _ => by decide⟩

/-- The message with another name. -/
def InMsg.named (m : InMsg) (name : Bytes) : InMsg :=
  { m with msgKey := { m.msgKey with name := name } }

/-- A refresh without a name ends the process in `OnMsg` of a new session. Once logged in, a request
    without a name is dispatched and ends it in `OnTask`, and so does one with a name of 256
    bytes. -/
theorem unnamed_asserted :
    clearSession.onMsg { willingEnv with dcheckIsOn := true }
        ((InMsg.plain .refresh .marketPrice 5).named []) = none
      ∧ ∃ p, replay Call.next clearSession.client [willingCall (.msg (loginByName 1))] = some p
        ∧ ∀ name ∈ [[], List.replicate 256 117],
          ¬ (willingCall (.msg ((InMsg.plain .request .marketPrice 5).named name))).Unasserted
            (last clearSession.client p) := by
  refine ⟨rfl, _, rfl, ?_⟩
  intro name hname hunasserted
  have hnames := ((unasserted_iff _ _).mp (hunasserted _ rfl)).dispatched
  have hlength : name.length % 256 = 0 := by
    rcases List.mem_pair.mp hname with rfl | rfl
    · rfl
    · rw [List.length_replicate]
  refine hnames ⟨rfl, rfl, rfl, ?_⟩ hlength
  exact Finset.notMem_empty 5

end Hitsuji
