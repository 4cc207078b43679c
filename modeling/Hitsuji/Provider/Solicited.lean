import Hitsuji.Client.DirectoryStream
import Hitsuji.Client.Sent
import Hitsuji.Provider.Sessions

set_option autoImplicit false

/-! # Nothing is sent that was not asked for

A ghost keeps the messages each session received. Whatever a session writes later, it writes on a
stream of one of them and in the domain of that message; the one exception is a directory update to
a peer that never asked for a directory (`updatesOpen_iff` says where that leads). And what it hands
to the workers, under its own key, is the item request of its peer. -/

namespace Hitsuji

open ByteBuffer Transition

/-- A request in this domain on this stream is among the messages. -/
def Requested (msgs : List InMsg) (domain : DomainType) (streamId : Int32) : Prop :=
  ∃ m ∈ msgs, m.msgClass = .request ∧ m.domainType = domain ∧ m.streamId = streamId

/-- No directory was asked for. -/
def NoDirectory (msgs : List InMsg) : Prop :=
  ∀ m ∈ msgs, ¬ (m.msgClass = .request ∧ m.domainType = .source)

/-- The peer used the stream of this output, in its domain and not only to close it; or it is a
    directory update to a peer that asked for no directory. -/
def Solicited (msgs : List InMsg) : Outgoing → Prop
  | .encoded response _ =>
      (∃ m ∈ msgs, m.msgClass ≠ .close ∧ m.domainType = response.domainType
          ∧ m.streamId = response.streamId)
        ∨ (response.msgClass = .update ∧ response.domainType = .source ∧ NoDirectory msgs)
  | .reply token _ => Requested msgs .marketPrice token

/-- What the session under `k` did goes back to the messages of its peer. -/
def Traced (k : UInt64) (msgs : List InMsg) : Event → Prop
  | .writeEx out _ _ => Solicited msgs out
  | .onRequest request => request.handle = k
      ∧ ∃ m ∈ msgs, m.msgClass = .request ∧ m.domainType = .marketPrice
        ∧ request.token = m.streamId ∧ request.serviceId = m.msgKey.serviceId
        ∧ request.itemName = m.msgKey.name
  | _ => True

/-- What a client remembers of its streams goes back to requests. -/
structure Client.AskedFor (c : Client) (msgs : List InMsg) : Prop where
  login : c.isLoggedIn = true → Requested msgs .login c.loginToken
  tokens : ∀ token ∈ c.tokens, Requested msgs .marketPrice token
  directory : Requested msgs .source c.directoryToken ∨ NoDirectory msgs

theorem requested_append (msgs more : List InMsg) (domain : DomainType) (streamId : Int32)
    (h : Requested msgs domain streamId) : Requested (more ++ msgs) domain streamId := by
  obtain ⟨m, hm, hrequest⟩ := h
  exact ⟨m, List.mem_append_right more hm, hrequest⟩

/-- The message that comes in now. -/
theorem requested_now (msgs : List InMsg) (m : InMsg) (domain : DomainType)
    (hclass : m.msgClass = .request) (hdomain : m.domainType = domain) :
    Requested ((some m).toList ++ msgs) domain m.streamId :=
  ⟨m, List.mem_append_left _ List.mem_cons_self, hclass, hdomain, rfl⟩

theorem solicited_of_requested (msgs : List InMsg) (response : RsslMsg) (calls : List EncodeCall)
    (h : Requested msgs response.domainType response.streamId) :
    Solicited msgs (.encoded response calls) := by
  obtain ⟨m, hm, hclass, hdomain, hstream⟩ := h
  exact .inl ⟨m, hm, by simp [hclass], hdomain, hstream⟩

theorem askedFor_unpaced (c c' : Client) (msgs : List InMsg) (hpace : c'.unpaced = c.unpaced)
    (hc : c.AskedFor msgs) : c'.AskedFor msgs := by
  have hin : c'.isLoggedIn = c.isLoggedIn :=
    (congrArg Client.isLoggedIn hpace :)
  have hlogin : c'.loginToken = c.loginToken :=
    (congrArg Client.loginToken hpace :)
  have htokens : c'.tokens = c.tokens :=
    (congrArg Client.tokens hpace :)
  have hdirectory : c'.directoryToken = c.directoryToken :=
    (congrArg Client.directoryToken hpace :)
  refine ⟨?_, ?_, ?_⟩
  · rw [hin, hlogin]
    exact hc.login
  · rw [htokens]
    exact hc.tokens
  · rw [hdirectory]
    exact hc.directory

theorem askedFor_new (c : Client) (hc : clientSystem.init c) : c.AskedFor [] := by
  obtain ⟨handle, directoryToken, channel, now, rfl⟩ := hc
  refine ⟨fun hin => absurd hin Bool.false_ne_true, fun token htoken => ?_, .inr ?_⟩
  · exact absurd htoken (Finset.notMem_empty token)
  · exact fun m hm => absurd hm List.not_mem_nil

/-! ## One call -/

/-- A login or a request that takes effect is that of the message handled. -/
theorem action_asks (e : Call) (c : Client) :
    (∀ token, e.action c = .logIn token → ∃ m, e.input = .msg m ∧ m.msgClass = .request
        ∧ m.domainType = .login ∧ m.streamId = token)
      ∧ ∀ token, e.action c = .request token → ∃ m, e.input = .msg m ∧ m.msgClass = .request
        ∧ m.domainType = .marketPrice ∧ m.streamId = token := by
  unfold Call.action
  cases hinput : e.input with
  | msg m =>
      refine ⟨fun token h => ⟨m, rfl, ?_⟩, fun token h => ?_⟩
      · simp only [Call.msgAction] at h
        split at h
        · next hclass hdomain =>
            split at h
            · exact ⟨hclass, hdomain, Action.logIn.inj h⟩
            · exact absurd h (by simp)
        all_goals
          first
            | (split at h <;> exact absurd h (by simp))
            | exact absurd h (by simp)
      · obtain ⟨hclass, hdomain, -, -, hstream⟩ := (msgAction_eq_request e c m token).mp h
        exact ⟨m, rfl, hclass, hdomain, hstream⟩
  | reply | sourceDirectoryUpdate => exact ⟨by simp, by simp⟩
  | close => cases hin : c.isLoggedIn <;> exact ⟨by simp, by simp⟩

theorem askedFor_run (e : Call) (c : Client) (d : Done) (msgs : List InMsg)
    (hc : c.AskedFor msgs) (hrun : e.run c = some d) :
    d.session.client.AskedFor (e.input.message.toList ++ msgs) := by
  have hstreams := run_streams e c d hrun
  have hin : d.session.client.isLoggedIn = (c.streams.apply (e.action c)).isLoggedIn :=
    congrArg Streams.isLoggedIn hstreams
  have hlogin : d.session.client.loginToken = (c.streams.apply (e.action c)).loginToken :=
    congrArg Streams.loginToken hstreams
  have htokens : d.session.client.tokens = (c.streams.apply (e.action c)).tokens :=
    congrArg Streams.tokens hstreams
  obtain ⟨hlogs, hrequests⟩ := action_asks e c
  refine ⟨fun hlogged => ?_, fun token htoken => ?_, ?_⟩
  · rw [hin] at hlogged
    rw [hlogin]
    cases haction : e.action c with
    | logIn token =>
        obtain ⟨m, hinput, hclass, hdomain, rfl⟩ := hlogs token haction
        rw [hinput]
        exact requested_now msgs m _ hclass hdomain
    | logOut | drop =>
        rw [haction] at hlogged
        exact absurd hlogged Bool.false_ne_true
    | idle | request | cancel =>
        rw [haction] at hlogged
        exact requested_append _ _ _ _ (hc.login hlogged)
  · rw [htokens] at htoken
    cases haction : e.action c with
    | request new =>
        rw [haction] at htoken
        rcases Finset.mem_insert.mp htoken with rfl | hold
        · obtain ⟨m, hinput, hclass, hdomain, rfl⟩ := hrequests token haction
          rw [hinput]
          exact requested_now msgs m _ hclass hdomain
        · exact requested_append _ _ _ _ (hc.tokens token hold)
    | cancel gone =>
        rw [haction] at htoken
        exact requested_append _ _ _ _ (hc.tokens token (Finset.mem_of_mem_erase htoken))
    | drop =>
        rw [haction] at htoken
        exact absurd htoken (Finset.notMem_empty token)
    | idle | logIn | logOut =>
        rw [haction] at htoken
        exact requested_append _ _ _ _ (hc.tokens token htoken)
  · rw [run_directoryToken c e d hrun]
    unfold Call.directoryToken
    cases hinput : e.input with
    | msg m =>
        simp only
        split
        · next hdirectory =>
            exact .inl (requested_now msgs m _ hdirectory.1 hdirectory.2)
        · next hother =>
            refine hc.directory.imp (requested_append _ _ _ _) fun hnone m' hm' => ?_
            rcases List.mem_append.mp hm' with hnow | hbefore
            · obtain rfl := List.mem_singleton.mp hnow
              exact hother
            · exact hnone m' hbefore
    | reply | close | sourceDirectoryUpdate => exact hc.directory

/-! ## What a call sends -/

theorem solicited_of_sent (e : Call) (c : Client) (msgs : List InMsg) (hc : c.AskedFor msgs)
    (out : Outgoing) (hsent : Sent e c out) :
    Solicited (e.input.message.toList ++ msgs) out := by
  cases hsent with
  | acceptLogin m hinput hclass hdomain =>
      rw [hinput]
      exact solicited_of_requested _ (acceptLoginResponse m m.streamId) _
        (requested_now msgs m _ hclass hdomain)
  | rejectLogin m hinput hclass hdomain =>
      rw [hinput]
      exact solicited_of_requested _ (rejectLoginResponse m.streamId) _
        (requested_now msgs m _ hclass hdomain)
  | directoryRefresh m serviceName hinput hclass hdomain =>
      rw [hinput]
      exact solicited_of_requested _ (directoryRefreshResponse m.streamId m.msgKey.filter) _
        (requested_now msgs m _ hclass hdomain)
  | directoryUpdate hinput =>
      rw [hinput]
      rcases hc.directory with hrequested | hnone
      · exact solicited_of_requested msgs (directoryUpdateResponse c.directoryToken) _ hrequested
      · exact .inr ⟨rfl, rfl, hnone⟩
  | usageError m useAttribInfoInUpdates text hinput hclass =>
      rw [hinput]
      exact .inl ⟨m, List.mem_append_left msgs List.mem_cons_self, hclass, rfl, rfl⟩
  | sessionClose hinput hlogged =>
      rw [hinput]
      exact solicited_of_requested msgs (sessionClose (e.session c)).response _ (hc.login hlogged)
  | reply token data hinput htoken =>
      rw [hinput]
      exact hc.tokens token htoken

/-- **A call sends nothing that was not asked for.** -/
theorem traced_run (e : Call) (c : Client) (d : Done) (msgs : List InMsg) (hc : c.AskedFor msgs)
    (hrun : e.run c = some d) :
    ∀ ev ∈ d.events, Traced c.handle (e.input.message.toList ++ msgs) ev := by
  intro ev hev
  have hleaves := leaves_run e c d hrun
  cases ev with
  | writeEx out direct rc =>
      exact solicited_of_sent e c msgs hc out (hleaves.sent out direct rc hev)
  | onRequest request =>
      obtain ⟨m, viewByFid, hinput, hclass, hdomain, -, rfl⟩ := hleaves.requested request hev
      rw [hinput]
      exact ⟨rfl, m, List.mem_append_left msgs List.mem_cons_self, hclass, hdomain, rfl, rfl, rfl⟩
  | getBuffer | releaseBuffer => trivial

/-! ## Every run -/

/-- The provider, and the messages each session received, the last one first. -/
structure Mailbox extends Machine where
  messages : UInt64 → List InMsg

namespace Mailbox

/-- The messages after a step; a key without a client has none. -/
def receive (b : Mailbox) (op : Op) (k : UInt64) : List InMsg :=
  match b.pump.clients k with
  | none => []
  | some _ =>
      match b.pump.inbound op with
      | none => b.messages k
      | some (j, m) => if j = k then m :: b.messages k else b.messages k

/-- One step. -/
def step (b : Mailbox) (op : Op) : Option Mailbox :=
  (b.toMachine.step op).map fun m => ⟨m, b.receive op⟩

/-- Nothing was received yet. -/
def init (b : Mailbox) : Prop :=
  b.toMachine.init ∧ ∀ k, b.messages k = []

/-- All clients go back to the messages of their peers. -/
def Kept (b : Mailbox) : Prop :=
  ∀ k, ∀ client ∈ b.pump.clients k, client.handle = k ∧ client.AskedFor (b.messages k)

/-- What everyone did in a step goes back to the messages received by then. -/
def AllTraced (b : Mailbox) (op : Op) (b' : Mailbox) : Prop :=
  ∀ k, ∀ ev ∈ eventsOf k (b.calls op), Traced k (b'.messages k) ev

theorem kept_init (b : Mailbox) (hb : b.init) : b.Kept := by
  intro k client hclient
  rw [hb.1.2.2.2.1 k] at hclient
  exact absurd hclient (by simp)

theorem receive_none (b : Mailbox) (op : Op) (k : UInt64) (h : b.pump.clients k = none) :
    b.receive op k = [] := by
  simp only [receive, h]

/-- The client that is called has received the message it is called with. -/
theorem receive_called (b : Mailbox) (op : Op) (k : UInt64) (client : Client) (input : Input)
    (hclient : b.pump.clients k = some client)
    (hmessage : b.pump.inbound op = input.message.map fun m => (k, m)) :
    b.receive op k = input.message.toList ++ b.messages k := by
  simp only [receive, hclient, hmessage]
  cases input.message with
  | none => rfl
  | some m => exact if_pos rfl

/-- The others have not. -/
theorem receive_other (b : Mailbox) (op : Op) (j k : UInt64) (client : Client)
    (message : Option InMsg) (hclient : b.pump.clients j = some client)
    (hmessage : b.pump.inbound op = message.map fun m => (k, m)) (hne : j ≠ k) :
    b.receive op j = b.messages j := by
  simp only [receive, hclient, hmessage]
  cases message with
  | none => rfl
  | some m => exact if_neg hne.symm

theorem receive_calm (b : Mailbox) (op : Op) (j : UInt64) (client : Client)
    (hclient : b.pump.clients j = some client) (hmessage : b.pump.inbound op = none) :
    b.receive op j = b.messages j := by
  simp only [receive, hclient, hmessage]

/-- A client that is only served later stays as it was. -/
theorem kept_of_unpaced (b : Mailbox) (hb : b.Kept) (j : UInt64) (msgs : List InMsg)
    (after : Option Client) (hafter : after.map Client.unpaced = b.pump.unpaced j)
    (hmsgs : ∀ client, b.pump.clients j = some client → msgs = b.messages j) :
    ∀ client ∈ after, client.handle = j ∧ client.AskedFor msgs := by
  intro client hclient
  rw [hclient, Option.map_some] at hafter
  obtain ⟨before, hbefore, hpace⟩ := Option.map_eq_some_iff.mp hafter.symm
  obtain ⟨hhandle, hasked⟩ := hb j before hbefore
  rw [hmsgs before hbefore]
  exact ⟨(congrArg Client.handle hpace.symm :).trans hhandle,
    askedFor_unpaced before client _ hpace.symm hasked⟩

theorem step_spec (b b' : Mailbox) (op : Op) (hstep : b.step op = some b') :
    ∃ h, b.pump.exec op = some h ∧ b'.pump = h.pump ∧ b'.messages = b.receive op
      ∧ b.calls op = h.calls := by
  obtain ⟨m, hm, rfl⟩ := Option.map_eq_some_iff.mp hstep
  obtain ⟨h, pc, hexec, -, rfl⟩ := (step_eq_some _ _ op).mp hm
  refine ⟨h, hexec, rfl, rfl, ?_⟩
  rw [Machine.calls, hexec]
  rfl

theorem kept_step (b b' : Mailbox) (op : Op) (hb : b.Kept) (hstep : b.step op = some b') :
    b'.Kept ∧ b.AllTraced op b' := by
  obtain ⟨h, hexec, hpump, hmessages, hcalls⟩ := b.step_spec b' op hstep
  rw [AllTraced, Kept, hpump, hmessages, hcalls]
  cases b.pump.serving_exec op h hexec with
  | calm hnone hcalm =>
      refine ⟨fun j => ?_, fun j ev hev => ?_⟩
      · exact b.kept_of_unpaced hb j _ _ (hcalm.clients j) fun client hclient =>
          b.receive_calm op j client hclient hnone
      · rw [hcalm.quiet j] at hev
        exact absurd hev List.not_mem_nil
  | called k client e d hclient hrun _ hinput hafter hothers hevents hquiet =>
      obtain ⟨hhandle, hasked⟩ := hb k client hclient
      have hreceived := b.receive_called op k client e.input hclient hinput
      refine ⟨fun j => ?_, fun j ev hev => ?_⟩
      · by_cases hj : j = k
        · subst hj
          intro client' hclient'
          obtain ⟨after, hstored, hpace⟩ := Option.map_eq_some_iff.mp hafter
          obtain rfl := Option.some.inj (hstored.symm.trans hclient')
          refine ⟨?_, ?_⟩
          · exact (congrArg Client.handle hpace :).trans ((run_handle e client d hrun).trans hhandle)
          · rw [hreceived]
            exact askedFor_unpaced _ after _ hpace (askedFor_run e client d _ hasked hrun)
        · exact b.kept_of_unpaced hb j _ _ (hothers j hj) fun client' hclient' =>
            b.receive_other op j k client' e.input.message hclient' hinput hj
      · by_cases hj : j = k
        · subst hj
          rw [hevents] at hev
          have htraced := traced_run e client d (b.messages j) hasked hrun ev hev
          rw [hhandle] at htraced
          rw [hreceived]
          exact htraced
        · rw [hquiet j hj] at hev
          exact absurd hev List.not_mem_nil
  | opened k client hnone hbefore hafter hnew hhandle hothers hquiet =>
      refine ⟨fun j => ?_, fun j ev hev => ?_⟩
      · by_cases hj : j = k
        · subst hj
          intro client' hclient'
          obtain ⟨after, hstored, hpace⟩ := Option.map_eq_some_iff.mp hafter
          obtain rfl := Option.some.inj (hstored.symm.trans hclient')
          refine ⟨(congrArg Client.handle hpace :).trans hhandle, ?_⟩
          rw [b.receive_none op j hbefore]
          exact askedFor_unpaced client after _ hpace (askedFor_new client hnew)
        · exact b.kept_of_unpaced hb j _ _ (hothers j hj) fun client' hclient' =>
            b.receive_calm op j client' hclient' hnone
      · rw [hquiet j] at hev
        exact absurd hev List.not_mem_nil
  | removed gone hnone hclients hquiet =>
      refine ⟨fun j client' hclient' => ?_, fun j ev hev => ?_⟩
      · have hj := hclients j
        split at hj
        · rw [Option.map_eq_none_iff.mp hj] at hclient'
          exact absurd hclient' (by simp)
        · exact b.kept_of_unpaced hb j _ _ hj (fun client hclient =>
            b.receive_calm op j client hclient hnone) client' hclient'
      · rw [hquiet j] at hev
        exact absurd hev List.not_mem_nil

end Mailbox

/-- The provider with what its sessions received. -/
def mailboxSystem : System Mailbox Op :=
  .ofFn Mailbox.init Mailbox.step

/-- The ghost takes no part in what the provider does. -/
theorem mailbox_simulates : Simulates mailboxSystem pumpSystem Mailbox.toMachine := by
  refine ⟨fun b hb => hb.1, fun b op b' hstep => .inr ⟨op, ?_⟩⟩
  obtain ⟨m, hm, rfl⟩ := Option.map_eq_some_iff.mp hstep
  exact hm

/-- Nothing happened yet. -/
def Mailbox.bound : Mailbox :=
  ⟨.bound, fun _ => []⟩

theorem mailbox_bound_init : mailboxSystem.init Mailbox.bound :=
  ⟨bound_init, fun _ => rfl⟩

section Replay

set_option maxRecDepth 20000

end Replay

end Hitsuji
