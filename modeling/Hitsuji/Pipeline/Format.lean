import Hitsuji.Client.Sent
import Hitsuji.Provider.Announced
import Hitsuji.Provider.Sessions
import Hitsuji.Rssl.WellFormed
import Hitsuji.Worker.OneReply

set_option autoImplicit false

/-! # Everything encoded is well-formed

The functions that encode messages open and close containers in calls spread over several functions,
some of them behind a filter mask. For every service, mask, login, request and set of fields the
calls come out as a well-formed message, and with them every message the provider encodes for a
channel and every message a worker encodes for a reply. -/

namespace Hitsuji

open ByteBuffer Transition

theorem callsOf_append (steps steps' : List EncodeStep) :
    callsOf (steps ++ steps') = callsOf steps ++ callsOf steps' :=
  List.filterMap_append

/-! ## Directory -/

/-- An entry of the filter list, if it is asked for, is one of those announced. -/
theorem reads_filterEntry (frames : List Frame) (use : Bool) (id : FilterId)
    (content : List EncodeStep) (t : DataType) (ahead : Nat)
    (hcontent : ∀ frames, Reads (.filterEntry (some t) :: frames) (callsOf content)
      (.filterEntry none :: frames)) :
    Reads (.filterList t (use.toNat + ahead) :: frames) (callsOf (filterEntry use id content))
      (.filterList t ahead :: frames) := by
  cases use with
  | false =>
      rw [Bool.toNat_false, Nat.zero_add]
      exact reads_nil _
  | true =>
      rw [Bool.toNat_true, Nat.add_comm, filterEntry, if_pos rfl, callsOf_append, callsOf_append]
      refine reads_append _ (.filterEntry none :: .filterList t ahead :: frames) _ _ _ ?_ rfl
      exact reads_append _ (.filterEntry (some t) :: .filterList t ahead :: frames) _ _ _ rfl
        (hcontent _)

theorem reads_getServiceInformation (p : ProviderView) (frames : List Frame) :
    Reads (.filterEntry (some .elementList) :: frames) (callsOf (getServiceInformation p))
      (.filterEntry none :: frames) :=
  rfl

theorem reads_getServiceState (p : ProviderView) (frames : List Frame) :
    Reads (.filterEntry (some .elementList) :: frames) (callsOf (getServiceState p))
      (.filterEntry none :: frames) :=
  rfl

theorem reads_getServiceLoad (frames : List Frame) :
    Reads (.filterEntry (some .elementList) :: frames) (callsOf getServiceLoad)
      (.filterEntry none :: frames) :=
  rfl

/-- The filter list has as many entries as it announces, whatever the mask asks for. -/
theorem reads_getServiceFilterList (p : ProviderView) (filterMask : FilterMask)
    (frames : List Frame) :
    Reads (.mapEntry (some .filterList) :: frames) (callsOf (getServiceFilterList p filterMask))
      (.mapEntry none :: frames) := by
  let below : List Frame := .mapEntry none :: frames
  let load := filterMask.load.toNat
  let state := filterMask.state.toNat + load
  have hinfo := reads_filterEntry below filterMask.info .info (getServiceInformation p)
    .elementList state (reads_getServiceInformation p)
  have hstate := reads_filterEntry below filterMask.state .state (getServiceState p)
    .elementList load (reads_getServiceState p)
  have hload := reads_filterEntry below filterMask.load .load getServiceLoad .elementList 0
    reads_getServiceLoad
  have hcount : filterMask.info.toNat + filterMask.state.toNat + filterMask.load.toNat
      = filterMask.info.toNat + state := Nat.add_assoc _ _ _
  simp only [getServiceFilterList, callsOf_append, hcount]
  refine reads_append _ (.filterList .elementList 0 :: below) _ _ _ ?_ rfl
  refine reads_append _ (.filterList .elementList load :: below) _ _ _ ?_ hload
  refine reads_append _ (.filterList .elementList state :: below) _ _ _ ?_ hstate
  exact reads_append _ (.filterList .elementList (filterMask.info.toNat + state) :: below) _ _ _
    rfl hinfo

theorem reads_getDirectoryMap (p : ProviderView) (serviceName : Option CString)
    (filterMask : FilterMask) (mapAction : MapAction) (m : RsslMsg) :
    Reads [.payload m (some .map)]
      (callsOf (getDirectoryMap p serviceName filterMask mapAction)) [.payload m none] := by
  have hfilter := reads_getServiceFilterList p filterMask [.map .filterList, .payload m none]
  simp only [getDirectoryMap, callsOf_append]
  refine reads_append _ [.mapEntry none, .map .filterList, .payload m none] _ _ _ ?_ rfl
  exact reads_append _ [.mapEntry (some .filterList), .map .filterList, .payload m none] _ _ _ rfl
    hfilter

theorem wellFormed_directory (c : Channel) (p : ProviderView) (m : RsslMsg)
    (serviceName : Option CString) (filterMask : FilterMask) (mapAction : MapAction)
    (hcontainer : m.containerType = .map) (hattrib : m.msgKey.flags.hasAttrib = false) :
    WellFormed m (callsOf (directorySteps c p m serviceName filterMask mapAction)) := by
  have hwell := wellFormed_payload m maxMsgSize c.majorVersion c.minorVersion maxMsgSize .map
    (callsOf (getDirectoryMap p serviceName filterMask mapAction)) [.validateMsg m] hcontainer
    (by simp) hattrib (reads_getDirectoryMap p serviceName filterMask mapAction m) (.inr rfl)
  rw [List.append_assoc] at hwell
  simp only [directorySteps, callsOf_append]
  exact hwell

/-! ## Login, status and refresh -/

theorem wellFormed_acceptLogin (c : Channel) (loginMsg : InMsg) (loginToken : Int32) :
    WellFormed (acceptLoginResponse loginMsg loginToken)
      (callsOf (acceptLoginSteps c (acceptLoginResponse loginMsg loginToken))) :=
  rfl

theorem wellFormed_rejectLogin (c : Channel) (loginToken : Int32) :
    WellFormed (rejectLoginResponse loginToken) (callsOf (rejectLoginSteps c loginToken)) :=
  wellFormed_msg _ maxMsgSize c.majorVersion c.minorVersion [.validateMsg _] rfl rfl (.inr rfl)

theorem wellFormed_writeRawClose (dcheckIsOn : Bool) (rwfVersion : UInt16) (a : CloseArgs)
    (length : Nat) :
    WellFormed a.response (callsOf (writeRawClose dcheckIsOn rwfVersion a length)) := by
  have hattrib : a.response.msgKey.flags.hasAttrib = false := by
    change a.msgKey.flags.hasAttrib = false
    unfold CloseArgs.msgKey
    split <;> rfl
  have hlast : callsOf (if dcheckIsOn then [.rssl (.validateMsg a.response)] else []) = []
      ∨ callsOf (if dcheckIsOn then [.rssl (.validateMsg a.response)] else [])
        = [.validateMsg a.response] := by
    cases dcheckIsOn with
    | false => exact .inl rfl
    | true => exact .inr rfl
  exact wellFormed_msg a.response length _ _ _ rfl hattrib hlast

theorem callsOf_fields (fields : List (Int × Value)) :
    callsOf (fields.map fun field => .orReturn (.fieldEntry field.1 field.2))
      = fields.map fun field => .fieldEntry field.1 field.2 := by
  rw [callsOf, List.filterMap_map, ← List.filterMap_eq_map]
  rfl

theorem reads_fields (fields : List (Int × Value)) (m : RsslMsg) :
    Reads [.payload m (some .fieldList)]
      ([.fieldListInit] ++ fields.map (fun field => .fieldEntry field.1 field.2)
        ++ [.fieldListComplete])
      [.payload m none] := by
  have hentries := reads_entries [.fieldList, .payload m none]
    (fun field : Int × Value => .fieldEntry field.1 field.2) fields fun _ _ => rfl
  exact reads_append _ [.fieldList, .payload m none] _ _ _
    (reads_append _ [.fieldList, .payload m none] _ _ _ rfl hentries) rfl

/-- Whatever fields an analytic publishes. -/
theorem wellFormed_writeRaw (a : Analytic) (dcheckIsOn : Bool) (rwfVersion : UInt16)
    (token : Int32) (serviceId : UInt16) (itemName dacsLock : Bytes) (length : Nat) :
    WellFormed (refreshResponse token serviceId itemName (if a.attachesLock then dacsLock else []))
      (callsOf (a.writeRaw dcheckIsOn rwfVersion token serviceId itemName dacsLock length)) := by
  let m := refreshResponse token serviceId itemName (if a.attachesLock then dacsLock else [])
  have hlast : callsOf (if dcheckIsOn then [.orReturn (.validateMsg m)] else []) = []
      ∨ callsOf (if dcheckIsOn then [.orReturn (.validateMsg m)] else []) = [.validateMsg m] := by
    cases dcheckIsOn with
    | false => exact .inl rfl
    | true => exact .inr rfl
  have hwell := wellFormed_payload m length (rwfMajorVersion rwfVersion)
    (rwfMajorVersion rwfVersion) 0 .fieldList _ _ rfl (by simp) rfl (reads_fields a.fields m) hlast
  simp only [List.append_assoc] at hwell
  simp only [Analytic.writeRaw, refreshSteps, callsOf_append, callsOf_fields, List.append_assoc]
  exact hwell

/-! ## What a session sends -/

theorem wellFormed_of_sent (e : Call) (c : Client) (response : RsslMsg) (calls : List EncodeCall)
    (hsent : Sent e c (.encoded response calls)) : WellFormed response calls := by
  cases hsent with
  | acceptLogin m => exact wellFormed_acceptLogin e.channel m m.streamId
  | rejectLogin m => exact wellFormed_rejectLogin e.channel m.streamId
  | directoryRefresh m serviceName =>
      exact wellFormed_directory e.channel e.provider _ serviceName _ _ rfl rfl
  | directoryUpdate => exact wellFormed_directory e.channel e.provider _ _ _ _ rfl rfl
  | usageError | sessionClose => exact wellFormed_writeRawClose _ _ _ _

/-- **Every message the provider encodes and writes is well-formed**, in every run. -/
theorem written_wellFormed (m₀ : Machine) (p : Steps Machine Op) (hrun : pumpSystem.Run m₀ p) :
    Along (fun m op _ => ∀ k response calls direct rc,
      .writeEx (.encoded response calls) direct rc ∈ eventsOf k (m.calls op) →
        WellFormed response calls) m₀ p := by
  refine along_imp _ _ (fun m op m' hstep k response calls direct rc hev => ?_) m₀ p hrun.2
  have hlife := lifetime_step m m' op hstep k
  generalize eventsOf k (m.calls op) = events at hlife hev
  generalize m.pump.clients k = before at hlife
  generalize m'.pump.clients k = after at hlife
  cases hlife with
  | called c c' e d hcall =>
      have hsent := (leaves_run e c d hcall).sent (.encoded response calls) direct rc hev
      exact wellFormed_of_sent e c response calls hsent
  | rests | begins | ends => exact absurd hev List.not_mem_nil

section Replay

set_option maxRecDepth 20000

theorem serveConsumer_wellFormed :
    ∃ p, replay Machine.step Machine.bound serveConsumer = some p
      ∧ (eventsOf 0x7f00 (callsAlong Machine.bound p)).length = 5
      ∧ Along (fun m op _ => ∀ k response calls direct rc,
        .writeEx (.encoded response calls) direct rc ∈ eventsOf k (m.calls op) →
          WellFormed response calls) Machine.bound p :=
  ⟨_, rfl, rfl, written_wellFormed Machine.bound _
    (run_replay _ Machine.step Machine.bound serveConsumer _ bound_init rfl)⟩

end Replay

/-! ## What is read of it -/

/-- The calls are read as one message, and its text is what was written; a source directory is read
    as what the provider says of its service, under the filters in the key. -/
structure ReadsBack (p : ProviderView) (response : RsslMsg) (calls : List EncodeCall) : Prop where
  message : ∃ content, contentOf calls = some content ∧ IsMessage response content
    ∧ content.spell EncodeCall.closer = wire calls
  directory : response.domainType = .source → response.msgClass ≠ .status →
    directoryOf calls = some [p.service
      (if response.msgClass = .refresh then .addEntry else .updateEntry) response.msgKey.filter]

theorem readsBack_of_sent (e : Call) (c : Client) (response : RsslMsg) (calls : List EncodeCall)
    (hsent : Sent e c (.encoded response calls)) : ReadsBack e.provider response calls := by
  have hwell := wellFormed_of_sent e c response calls hsent
  cases hsent with
  | directoryRefresh m serviceName =>
      refine ⟨contentOf_wellFormed _ _ hwell, fun _ _ => ?_⟩
      rw [directoryOf_directorySteps]
      rfl
  | directoryUpdate =>
      refine ⟨contentOf_wellFormed _ _ hwell, fun _ _ => ?_⟩
      rw [directoryOf_directorySteps]
      rfl
  | acceptLogin | rejectLogin | sessionClose =>
      exact ⟨contentOf_wellFormed _ _ hwell, fun hdomain => DomainType.noConfusion hdomain⟩
  | usageError => exact ⟨contentOf_wellFormed _ _ hwell, fun _ hclass => absurd rfl hclass⟩

/-- **Every message the provider encodes and writes can be read back**, in every run: it is read as
    the message that was meant, and the directory as the service at the time. -/
theorem written_readBack (m₀ : Machine) (p : Steps Machine Op) (hrun : pumpSystem.Run m₀ p) :
    Along (fun m op _ => ∀ k response calls direct rc,
      .writeEx (.encoded response calls) direct rc ∈ eventsOf k (m.calls op) →
        ReadsBack m.pump.view response calls) m₀ p := by
  refine along_imp _ _ (fun m op m' hstep k response calls direct rc hev => ?_) m₀ p hrun.2
  obtain ⟨h, pc, hexec, -, rfl⟩ := (step_eq_some m m' op).mp hstep
  rw [Machine.calls, hexec] at hev
  change _ ∈ eventsOf k h.calls at hev
  have hsilent : eventsOf k h.calls ≠ [] := List.ne_nil_of_mem hev
  cases m.pump.serving_exec op h hexec with
  | calm _ hcalm => exact absurd (hcalm.quiet k) hsilent
  | called j client e d hclient hcall hprovider _ hafter hothers hevents hquiet =>
      by_cases hk : k = j
      · subst hk
        rw [hevents] at hev
        have hsent := (leaves_run e client d hcall).sent (.encoded response calls) direct rc hev
        exact hprovider ▸ readsBack_of_sent e client response calls hsent
      · exact absurd (hquiet k hk) hsilent
  | opened j client _ hbefore hafter hnew hhandle hothers hquiet => exact absurd (hquiet k) hsilent
  | removed gone _ hclients hquiet => exact absurd (hquiet k) hsilent

section Replay

set_option maxRecDepth 20000

theorem serveConsumer_readBack :
    ∃ p, replay Machine.step Machine.bound serveConsumer = some p
      ∧ (eventsOf 0x7f00 (callsAlong Machine.bound p)).length = 5
      ∧ Along (fun m op _ => ∀ k response calls direct rc,
        .writeEx (.encoded response calls) direct rc ∈ eventsOf k (m.calls op) →
          ReadsBack m.pump.view response calls) Machine.bound p :=
  ⟨_, rfl, rfl, written_readBack Machine.bound _
    (run_replay _ Machine.step Machine.bound serveConsumer _ bound_init rfl)⟩

end Replay

/-! ## What a worker replies -/

/-- The reply to a request carries a well-formed item message on the stream of the request. -/
structure RepliesTo (env : TaskEnv) (view : RequestView) (m : RsslMsg) (calls : List EncodeCall)
    (reply : Bytes) : Prop where
  wellFormed : WellFormed m calls
  domain : m.domainType = .marketPrice
  stream : m.streamId = view.token
  reply : reply = replyImage view.handle view.token (env.codec.image calls).length
    (env.codec.image calls)

theorem repliesTo_close (env : TaskEnv) (view : RequestView) (itemName : Bytes)
    (streamState : StreamState) (statusCode : StatusCode) (statusText reply : Bytes)
    (h : (closeAnswer env view itemName streamState statusCode statusText).bind Prod.snd
      = some reply) : ∃ m calls, RepliesTo env view m calls reply := by
  obtain ⟨calls, hcalls, hreply⟩ := closeAnswer_reply env view itemName _ _ _ reply h
  obtain rfl := runSteps_complete env.codec [] calls _ hcalls
  exact ⟨_, _, wellFormed_writeRawClose _ _ _ _, rfl, rfl, hreply⟩

theorem repliesTo_result (env : TaskEnv) (view : RequestView) (itemName lock reply : Bytes)
    (result : Result) (h : (result.answer env view itemName lock).bind Prod.snd = some reply) :
    ∃ m calls, RepliesTo env view m calls reply := by
  cases result with
  | close streamState statusCode statusText =>
      exact repliesTo_close env view itemName streamState statusCode statusText reply h
  | refresh a =>
      rcases refreshAnswer_reply env view itemName a lock reply h with ⟨calls, hcalls, hreply⟩
        | ⟨-, hclose⟩
      · obtain rfl := runSteps_complete env.codec [] calls _ hcalls
        exact ⟨_, _, wellFormed_writeRaw a _ _ _ _ itemName lock _, rfl, rfl, hreply⟩
      · exact repliesTo_close env view itemName _ _ _ reply hclose

/-- **Every reply carries a well-formed message on the stream that was asked for**, whatever the
    worker did before and whatever the database and the encoder answer. -/
theorem replies_wellFormed (w : Worker) (env : TaskEnv) (buffer reply : Bytes) (d : TaskDone)
    (hrun : w.onTask env buffer = some d) (hreply : d.reply = some reply) :
    ∃ view m calls, decodeRequest .lengthFirst buffer = .ok (some view)
      ∧ RepliesTo env view m calls reply := by
  have heffect := w.onTask_effect env buffer
  rw [hrun, serve] at heffect
  split at heffect
  · exact absurd heffect (by simp)
  · -- an abort is not answered
    have hnone := congrArg (Option.map fun effect => effect.1.2) heffect
    simp [TaskDone.effect, hreply] at hnone
  · next view hview =>
      obtain ⟨answer, hanswer, hpair⟩ := Option.map_eq_some_iff.mp heffect.symm
      have hsent : answer.2 = some reply := by
        rw [← hreply]
        exact congrArg (fun effect => effect.1.2) hpair
      obtain ⟨m, calls, hreplies⟩ := repliesTo_result env view _ _ reply _
        ((Option.bind_eq_some_iff).mpr ⟨answer, hanswer, hsent⟩)
      exact ⟨view, m, calls, hview, hreplies⟩

section Replay

set_option maxRecDepth 20000

theorem item_wellFormed :
    ∃ d reply, freshWorker.onTask (taskEnv noRecords true)
        (requestImage (requestFor (ascii "u") true)) = some d
      ∧ d.reply = some reply
      ∧ ∃ view m calls, decodeRequest .lengthFirst (requestImage (requestFor (ascii "u") true))
          = .ok (some view)
        ∧ RepliesTo (taskEnv noRecords true) view m calls reply :=
  ⟨_, _, rfl, rfl, replies_wellFormed freshWorker (taskEnv noRecords true)
    (requestImage (requestFor (ascii "u") true)) _ _ rfl rfl⟩

end Replay

end Hitsuji
