import Hitsuji.Client.DirectoryStream
import Hitsuji.Provider.Announced
import Hitsuji.Provider.Sessions

set_option autoImplicit false

/-! # The audience of the provider

The provider changes its mind about the service once, when `Close` stops accepting requests. It tells
each client then, on the stream of the client's last directory request. What the consumers know of the
service is up to date in every state of every run, except on streams that were not told. -/

namespace Hitsuji

open ByteBuffer Transition

/-! ## What the provider has to say -/

namespace Pump

/-- The provider has the same to say. -/
def SaysSame (p p' : Pump) : Prop :=
  p.view.SameService p'.view

theorem saysSame_of_view (p p' : Pump) (h : p'.view = p.view) : p.SaysSame p' :=
  ⟨congrArg _ h, congrArg _ h, congrArg _ h⟩

theorem saysSame_modifyClient (p p' : Pump) (c : UInt64) (f : Client → Client)
    (h : p.modifyClient c f = some p') : p.SaysSame p' := by
  refine saysSame_of_view p p' ?_
  unfold modifyClient at h
  split at h
  · obtain rfl := Option.some.inj h
    rfl
  · obtain ⟨k, -, hk⟩ := Option.bind_eq_some_iff.mp h
    obtain ⟨client, -, rfl⟩ := Option.map_eq_some_iff.mp hk
    rfl

theorem saysSame_afterMethod (p : Pump) (k : UInt64) (client : Client) (input : Input) (env : Env)
    (d : Done) (left : Option Down)
    (hrun : Call.run ⟨env, p.channels k, p.view, input⟩ client = some d) :
    p.SaysSame (p.afterMethod k d left) := by
  have hview : (p.afterMethod k d left).view = d.session.provider := view_leave _ k left
  rw [SaysSame, hview]
  exact sameService_run _ client d hrun

theorem saysSame_onMsg (p : Pump) (c : UInt64) (msg : Option InMsg) (env : Env)
    (left : Option Down) (h : Handled) (hrun : p.onMsg c msg env left = some h) :
    p.SaysSame h.pump := by
  cases msg with
  | none =>
      obtain rfl := Option.some.inj hrun
      exact ⟨rfl, rfl, rfl⟩
  | some m =>
      obtain ⟨k, -, hk⟩ := Option.bind_eq_some_iff.mp hrun
      obtain ⟨client, hclient, hmethod⟩ := Option.bind_eq_some_iff.mp hk
      obtain ⟨d, hd, rfl⟩ := Option.map_eq_some_iff.mp hmethod
      have hsame := saysSame_afterMethod p k client (.msg m) env d left hd
      cases d.ret <;> exact hsame

theorem saysSame_onReadEx (p : Pump) (c : UInt64) (ret : ReadEx) (h : Handled)
    (hrun : p.onReadEx c ret = some h) : p.SaysSame h.pump := by
  cases ret with
  | congestionDetected | slowReader | packetGapDetected =>
      obtain rfl := Option.some.inj hrun
      refine saysSame_of_view p _ ?_
      unfold checkClosedState
      split <;> rfl
  | fdChange | failure =>
      obtain rfl := Option.some.inj hrun
      exact ⟨rfl, rfl, rfl⟩
  | ping =>
      obtain ⟨p', hp', rfl⟩ := Option.map_eq_some_iff.mp hrun
      exact saysSame_modifyClient p p' c _ hp'
  | data positive buf left =>
      obtain ⟨h₁, hbuf, rfl⟩ := Option.map_eq_some_iff.mp hrun
      have hsame : p.SaysSame h₁.pump := by
        unfold onBuffer at hbuf
        split at hbuf
        · obtain rfl := Option.some.inj hbuf
          exact ⟨rfl, rfl, rfl⟩
        · next msg env =>
            obtain ⟨h₂, hmsg, hpong⟩ := Option.bind_eq_some_iff.mp hbuf
            obtain ⟨p', hp', rfl⟩ := Option.map_eq_some_iff.mp hpong
            exact (saysSame_onMsg p c msg env left h₂ hmsg).trans
              (saysSame_modifyClient h₂.pump p' c _ hp')
      cases positive <;> exact hsame

theorem saysSame_onInitializingState (p : Pump) (c : UInt64) (ret : InitChannel)
    (session : NewSession) (left : Down) (h : Handled)
    (hrun : p.onInitializingState c ret session left = some h) : p.SaysSame h.pump := by
  refine saysSame_of_view p _ ?_
  cases ret with
  | inProgress newSocket =>
      cases newSocket <;>
      · obtain rfl := Option.some.inj hrun
        rfl
  | failure left =>
      obtain rfl := Option.some.inj hrun
      exact view_leave p c left
  | success majorVersion minorVersion pingTimeout =>
      obtain ⟨h₁, hsession, rfl⟩ := Option.map_eq_some_iff.mp hrun
      unfold onActiveClientSession at hsession
      split at hsession
      · obtain rfl := Option.some.inj hsession
        rfl
      · cases session with
        | thrown | uninitialized =>
            obtain rfl := Option.some.inj hsession
            rfl
        | initialized address directoryToken emplaced =>
            obtain ⟨-, hsession⟩ := Option.ite_none_left_eq_some.mp hsession
            obtain rfl := Option.some.inj hsession
            cases emplaced <;> rfl

theorem saysSame_read (p : Pump) (i : Nat) (answer : ReadAnswer) (h : Handled)
    (hrun : p.exec (.read i answer) = some h) : p.SaysSame h.pump := by
  obtain ⟨c, -, hread⟩ := Option.bind_eq_some_iff.mp hrun
  split at hread
  · unfold onCanRead at hread
    split at hread
    · obtain rfl := Option.some.inj hread
      exact ⟨rfl, rfl, rfl⟩
    · exact saysSame_onInitializingState (p.clearRead _) c _ _ _ h hread
    · next left _ =>
        exact (saysSame_of_view p _ (view_leave (p.clearRead _) c left)).trans
          (saysSame_onReadEx _ c _ h hread)
    · obtain rfl := Option.some.inj hread
      exact ⟨rfl, rfl, rfl⟩
    · obtain rfl := Option.some.inj hread
      exact ⟨rfl, rfl, rfl⟩
    · exact absurd hread (by simp)
  · obtain rfl := Option.some.inj hread
    exact ⟨rfl, rfl, rfl⟩

theorem saysSame_keepalive (p : Pump) (c : UInt64) (rc : RsslRet) (left : Option Down) (h : Handled)
    (hrun : p.keepalive c rc left = some h) : p.SaysSame h.pump := by
  have hping : ∀ h₁, p.ping c rc left = some h₁ → p.SaysSame h₁.pump := by
    intro h₁ hping
    unfold ping at hping
    split at hping
    · obtain ⟨p', hp', rfl⟩ := Option.map_eq_some_iff.mp hping
      exact saysSame_modifyClient p p' c _ hp'
    all_goals
      obtain rfl := Option.some.inj hping
      exact saysSame_of_view p _ (view_leave _ c left)
  unfold keepalive at hrun
  split at hrun
  · obtain ⟨client, -, hclient⟩ := Option.bind_eq_some_iff.mp hrun
    obtain ⟨h₁, hdue, rfl⟩ := Option.map_eq_some_iff.mp hclient
    have hsame : p.SaysSame h₁.pump := by
      split at hdue
      · exact hping h₁ hdue
      · obtain rfl := Option.some.inj hdue
        exact ⟨rfl, rfl, rfl⟩
    split <;> exact hsame
  · obtain rfl := Option.some.inj hrun
    exact ⟨rfl, rfl, rfl⟩

theorem saysSame_reply (p : Pump) (env : Env) (z : ReadEnv) (msg : Bytes) (left : Option Down)
    (h : Handled) (hrun : p.exec (.reply env z msg left) = some h) : p.SaysSame h.pump := by
  simp only [exec] at hrun
  split at hrun
  · obtain ⟨⟨q, events⟩, hread, rfl⟩ := Option.map_eq_some_iff.mp hrun
    have hq : p.view.SameService q.view := by
      obtain ⟨out, ⟨rfl, rfl⟩ | ⟨view, client, d, -, -, -, hd, rfl, rfl⟩⟩ :=
        onReplySocket_cases env z p.toProvider q msg events hread
      · exact ⟨rfl, rfl, rfl⟩
      · exact sameService_run ⟨env, p.channels view.handle, p.view,
          .reply view.token (view.payload msg)⟩ client d hd
    exact hq.trans (saysSame_of_view { p with toProvider := q } _ (view_leave _ _ _))
  · obtain rfl := Option.some.inj hrun
    exact ⟨rfl, rfl, rfl⟩

/-- **Only `Close` changes what the provider has to say.** -/
theorem saysSame_exec (p : Pump) (op : Op) (h : Handled) (hrun : p.exec op = some h)
    (hop : op ≠ .close) : p.SaysSame h.pump := by
  cases op with
  | close => exact absurd rfl hop
  | start =>
      obtain ⟨listening, -, rfl⟩ := Option.map_eq_some_iff.mp hrun
      exact ⟨rfl, rfl, rfl⟩
  | doWork | returns | throw =>
      obtain rfl := Option.some.inj hrun
      exact ⟨rfl, rfl, rfl⟩
  | reply env z msg left => exact saysSame_reply p env z msg left h hrun
  | connection accepted =>
      obtain ⟨listening, -, rfl⟩ := Option.map_eq_some_iff.mp hrun
      refine saysSame_of_view p _ ?_
      split
      · unfold onConnection
        split
        · rfl
        · cases accepted <;> rfl
      · rfl
  | read i answer => exact saysSame_read p i answer h hrun
  | write i rc left =>
      obtain ⟨c, -, hwrite⟩ := Option.bind_eq_some_iff.mp hrun
      split at hwrite
      · unfold onCanWrite at hwrite
        split at hwrite
        · obtain ⟨p', hp', rfl⟩ := Option.map_eq_some_iff.mp hwrite
          have hsame := saysSame_modifyClient (clearPending _ c) p' c _ hp'
          exact ⟨hsame.1, hsame.2, hsame.3⟩
        · obtain rfl := Option.some.inj hwrite
          exact saysSame_of_view p _ (view_leave _ c left)
      · obtain rfl := Option.some.inj hwrite
        exact ⟨rfl, rfl, rfl⟩
  | keepalive i rc left =>
      obtain ⟨c, -, hkeep⟩ := Option.bind_eq_some_iff.mp hrun
      exact saysSame_keepalive p c rc left h hkeep
  | disconnect i left =>
      obtain ⟨c, -, hdisconnect⟩ := Option.bind_eq_some_iff.mp hrun
      obtain rfl := Option.some.inj hdisconnect
      split
      · rw [SaysSame, disconnect_eq]
        exact ⟨rfl, rfl, rfl⟩
      · exact ⟨rfl, rfl, rfl⟩
  | select n rfds wfds efds =>
      obtain ⟨-, hselect⟩ := Option.ite_none_right_eq_some.mp hrun
      obtain rfl := Option.some.inj hselect
      exact ⟨rfl, rfl, rfl⟩
  | directoryUpdate c env left =>
      obtain ⟨client, hclient, hupdate⟩ := Option.bind_eq_some_iff.mp hrun
      obtain ⟨d, hd, rfl⟩ := Option.map_eq_some_iff.mp hupdate
      exact saysSame_afterMethod p c client .sourceDirectoryUpdate env d left hd
  | drain =>
      simp only [exec] at hrun
      split at hrun
      · obtain ⟨listening, -, rfl⟩ := Option.map_eq_some_iff.mp hrun
        exact ⟨rfl, rfl, rfl⟩
      · obtain rfl := Option.some.inj hrun
        exact ⟨rfl, rfl, rfl⟩
  | notify c env left loop leftByFlush =>
      obtain ⟨client, hclient, hclose⟩ := Option.bind_eq_some_iff.mp hrun
      obtain ⟨d, hd, rfl⟩ := Option.map_eq_some_iff.mp hclose
      have hsame := saysSame_afterMethod p c client .close env d left hd
      refine hsame.trans (?_ : SaysSame _ (flushStream _ c loop leftByFlush).pump)
      unfold flushStream
      split
      · split
        · exact ⟨rfl, rfl, rfl⟩
        · exact saysSame_of_view _ _ (view_leave _ c leftByFlush)
      · exact ⟨rfl, rfl, rfl⟩
  | teardown left =>
      obtain rfl := Option.some.inj hrun
      refine saysSame_of_view p _ ?_
      simp only [teardown]
      rw [closeConnections_eq]

end Pump

/-! ## The provider and its audience -/

/-- The provider, and what the consumer on each channel knows. -/
structure Audience where
  machine : Machine
  knows : UInt64 → Knowledge

/-- What a consumer knows when a step begins: one on a new channel knows nothing, and with `Close` it
    begins what is to be told. -/
def Knowledge.before (known : Knowledge) (p : Pump) (k : UInt64) : Op → Knowledge
  | .close => { known with told := ∅ }
  | .connection accepted =>
      if (p.admits accepted).map Accepted.handle = some k then .nothing else known
  | _ => known

/-- The client that `Close` updates, and what the update meets. -/
def Op.updates : Op → Option (UInt64 × Env)
  | .directoryUpdate c env _ => some (c, env)
  | _ => none

/-- The update that `Close` sends to a client is delivered. -/
def Pump.DeliversUpdate (p : Pump) (op : Op) : Prop :=
  ∀ update ∈ op.updates, ∀ client ∈ p.clients update.1,
    update.2.delivers (Call.directoryUpdateSteps
      ⟨update.2, p.channels update.1, p.view, .sourceDirectoryUpdate⟩ client) = true

instance (p : Pump) (op : Op) : Decidable (p.DeliversUpdate op) :=
  inferInstanceAs (Decidable (∀ update ∈ op.updates, ∀ client ∈ p.clients update.1, _ = true))

namespace Audience

/-- One step of the provider. -/
def step (s : Audience) (op : Op) : Option Audience :=
  (s.machine.step op).map fun machine =>
    { machine
      knows := fun k => (eventsOf k (s.machine.calls op)).foldl (Event.arrives Knowledge.learn)
        ((s.knows k).before s.machine.pump k op) }

/-- Nobody knows anything. -/
structure Initial (s : Audience) : Prop where
  machine : pumpSystem.init s.machine
  knows : ∀ k, s.knows k = .nothing

/-- Every consumer is informed. -/
def Informed (s : Audience) : Prop :=
  ∀ k, (s.knows k).Informed s.machine.pump.view

/-- The clients that `Close` has gone through are told. -/
def Told (s : Audience) : Prop :=
  ∀ todo, s.machine.pc = .updating todo → ∀ k client, s.machine.pump.clients k = some client →
    k ∉ todo → client.directoryToken ∈ (s.knows k).told

end Audience

/-- The provider and its audience over their lifetime. -/
def audienceSystem : System Audience Op :=
  .ofFn Audience.Initial Audience.step

namespace Audience

theorem step_spec (s s' : Audience) (op : Op) (h : s.step op = some s') :
    ∃ handled, s.machine.pump.exec op = some handled ∧ s.machine.step op = some s'.machine
      ∧ s'.machine.pump = handled.pump
      ∧ ∀ k, s'.knows k = (eventsOf k handled.calls).foldl (Event.arrives Knowledge.learn)
        ((s.knows k).before s.machine.pump k op) := by
  obtain ⟨machine, hm, rfl⟩ := Option.map_eq_some_iff.mp h
  obtain ⟨handled, pc, hexec, hcontrol, rfl⟩ := (step_eq_some s.machine machine op).mp hm
  refine ⟨handled, hexec, hm, rfl, fun k => ?_⟩
  rw [Machine.calls, hexec]
  rfl

/-- What a consumer knew before. -/
theorem informed_before (known : Knowledge) (p : Pump) (k : UInt64) (op : Op) (hop : op ≠ .close)
    (h : known.Informed p.view) : (known.before p k op).Informed p.view := by
  unfold Knowledge.before
  split
  · exact absurd rfl hop
  · split
    · exact fun stream pic hpic => absurd hpic (by simp [Knowledge.nothing])
    · exact h
  · exact h

/-- What is heard in a step. -/
theorem informed_serving (p : Pump) (message : Option (UInt64 × InMsg)) (h : Handled)
    (hserving : p.Serving message h) (k : UInt64) (known : Knowledge)
    (hknown : known.Informed p.view) :
    ((eventsOf k h.calls).foldl (Event.arrives Knowledge.learn) known).Informed p.view := by
  have hquiet : eventsOf k h.calls = [] → ((eventsOf k h.calls).foldl
      (Event.arrives Knowledge.learn) known).Informed p.view := by
    intro hnone
    rw [hnone]
    exact hknown
  cases hserving with
  | calm _ hcalm => exact hquiet (hcalm.quiet k)
  | called j client e d hclient hrun hprovider _ hafter hothers hevents hsilent =>
      by_cases hk : k = j
      · subst hk
        rw [hevents]
        have hleaves := (leaves_run e client d hrun).sent
        exact hprovider ▸ informed_events e client d.events hleaves known (hprovider ▸ hknown)
      · exact hquiet (hsilent k hk)
  | opened j client _ hbefore hafter hnew hhandle hothers hsilent => exact hquiet (hsilent k)
  | removed gone _ hclients hsilent => exact hquiet (hsilent k)

/-- **Every step leaves the consumers informed.** -/
theorem informed_step (s s' : Audience) (op : Op) (hs : s.Informed) (h : s.step op = some s') :
    s'.Informed := by
  obtain ⟨handled, hexec, -, hpump, hknows⟩ := step_spec s s' op h
  intro k
  rw [hpump, hknows k]
  by_cases hclose : op = .close
  · subst hclose
    obtain rfl := Option.some.inj hexec
    exact informed_refuse (s.knows k) s.machine.pump.view (hs k)
  · have hsame := s.machine.pump.saysSame_exec op handled hexec hclose
    refine informed_congr _ _ _ hsame ?_
    refine informed_serving s.machine.pump _ handled (s.machine.pump.serving_exec op handled hexec)
      k _ ?_
    exact informed_before (s.knows k) s.machine.pump k op hclose (hs k)

/-- An update that is delivered tells the consumer, on the stream that its client has. -/
theorem told_update (p : Pump) (c : UInt64) (env : Env) (left : Option Down) (h : Handled)
    (known : Knowledge) (hrun : p.exec (.directoryUpdate c env left) = some h)
    (hdelivers : p.DeliversUpdate (.directoryUpdate c env left)) (client : Client)
    (hclient : h.pump.clients c = some client) : client.directoryToken
      ∈ ((eventsOf c h.calls).foldl (Event.arrives Knowledge.learn) known).told := by
  obtain ⟨before, hbefore, hupdate⟩ := Option.bind_eq_some_iff.mp hrun
  obtain ⟨d, hd, rfl⟩ := Option.map_eq_some_iff.mp hupdate
  have hclients : (p.afterMethod c d left).clients
      = Function.update p.clients c (some d.session.client) := Pump.clients_leave _ c left
  rw [hclients, Function.update_self] at hclient
  obtain rfl := Option.some.inj hclient
  have hstream : d.session.client.directoryToken = before.directoryToken :=
    (sendEncoded_sameStreams _ _ _ _ d hd).directoryToken
  have harrives : env.delivers (directorySteps (p.channels c) p.view
      (directoryUpdateResponse before.directoryToken) (some (cStr p.view.serviceName))
      { state := true } .updateEntry) = true := hdelivers (c, env) rfl before hbefore
  have hlearn := (arrives_sendEncoded Knowledge.learn env _ _ _ d known hd).trans
    (if_pos harrives)
  rw [eventsOf_session, hlearn, hstream, told_learn]
  exact Finset.mem_insert_self _ _

/-- The others hear nothing. -/
theorem quiet_update (p : Pump) (c : UInt64) (env : Env) (left : Option Down) (h : Handled)
    (hrun : p.exec (.directoryUpdate c env left) = some h) (k : UInt64) (hk : k ≠ c) :
    eventsOf k h.calls = [] ∧ h.pump.clients k = p.clients k := by
  obtain ⟨before, hbefore, hupdate⟩ := Option.bind_eq_some_iff.mp hrun
  obtain ⟨d, hd, rfl⟩ := Option.map_eq_some_iff.mp hupdate
  have hclients : (p.afterMethod c d left).clients
      = Function.update p.clients c (some d.session.client) := Pump.clients_leave _ c left
  refine ⟨eventsOf_other k c d.events hk, ?_⟩
  rw [hclients, Function.update_of_ne hk]

/-- The clients that are gone through are told, one after the other. -/
theorem told_step (s s' : Audience) (op : Op) (hcoherent : s.machine.pump.Coherent)
    (hdelivers : s.machine.pump.DeliversUpdate op) (hs : s.Told) (h : s.step op = some s') :
    s'.Told := by
  obtain ⟨handled, hexec, hstep, hpump, hknows⟩ := step_spec s s' op h
  obtain ⟨handled', hexec', -, hflow⟩ := control_of_step s.machine s'.machine op hstep
  intro todo hpc k client hclient hk
  rw [hpump] at hclient
  rw [hpc] at hflow
  rw [hknows k]
  generalize hbefore : s.machine.pc = pc at hflow
  cases hflow with
  | close _ _ =>
      -- nobody is gone through yet
      obtain rfl := Option.some.inj hexec
      have hkey := (hcoherent.hasClient k).mp (Option.isSome_iff_exists.mpr ⟨client, hclient⟩)
      exact absurd hkey hk
  | update todo c env left =>
      by_cases hkc : k = c
      · subst hkc
        exact told_update s.machine.pump k env left handled _ hexec hdelivers client hclient
      · obtain ⟨hquiet, hsame⟩ := quiet_update s.machine.pump c env left handled hexec k hkc
        rw [hquiet]
        refine hs todo hbefore k client (hsame ▸ hclient) fun hmem => hk ?_
        exact (List.mem_erase_of_ne hkc).mpr hmem

/-! ## Whole runs -/

theorem coherent_audience (s s' : Audience) (op : Op) (hs : s.machine.pump.Coherent)
    (h : s.step op = some s') : s'.machine.pump.Coherent := by
  obtain ⟨-, -, hstep, -, -⟩ := step_spec s s' op h
  exact coherent_step s.machine s'.machine op hs hstep

/-- **What the consumers know is up to date** in every state of every run, except on streams on which
    nothing was heard since the provider stopped accepting requests. When `Close` has gone through the
    clients and its updates were delivered, the stream of each client's last directory request is not
    one of these. -/
theorem audience_informed (s₀ : Audience) (p : Steps Audience Op)
    (hrun : audienceSystem.Run s₀ p) :
    (last s₀ p).Informed
      ∧ (Along (fun s op _ => s.machine.pump.DeliversUpdate op) s₀ p →
        (last s₀ p).machine.pc = .updating [] → ∀ k client,
          (last s₀ p).machine.pump.clients k = some client → ∀ pic,
            ((last s₀ p).knows k).pictures client.directoryToken = some pic →
              pic.Shows (last s₀ p).machine.pump.view) := by
  have hinit : s₀.Informed := by
    intro k stream pic hpic
    rw [hrun.1.knows k] at hpic
    exact absurd hpic (by simp [Knowledge.nothing])
  have hinformed := (along_invariant audienceSystem.step Informed
    (fun s op s' hs h => informed_step s s' op hs h) s₀ p hinit hrun.2).2
  refine ⟨hinformed, fun hdelivers hpc k client hclient pic hpic => ?_⟩
  have htold := (along_invariant
    (fun s op s' => audienceSystem.step s op s' ∧ s.machine.pump.DeliversUpdate op)
    (fun s => s.machine.pump.Coherent ∧ s.Told)
    (fun s op s' hs h => ⟨coherent_audience s s' op hs.1 h.1, told_step s s' op hs.1 h.2 hs.2 h.1⟩)
    s₀ p ⟨coherent_init s₀.machine hrun.1.machine, fun todo hstart => ?_⟩
    ((along_and _ _ s₀ p).mpr ⟨hrun.2, hdelivers⟩)).2.2
  · have hheard := htold [] hpc k client hclient List.not_mem_nil
    exact (hinformed k _ pic hpic).resolve_right fun hstale => hstale.2.1 hheard
  · exact absurd (hrun.1.machine.1.symm.trans hstart) (by simp)

/-- A streaming request for the whole directory. -/
def directoryRequest (streamId : Int32) : InMsg :=
  { InMsg.plain .request .source streamId with
    flags := { streaming := true }
    msgKey := ⟨{ hasFilter := true }, 0, .other 0, [], fun _ => 0,
      { info := true, state := true, load := true }, .noData⟩ }

/-- `Run` is left, and `Close` updates the directory of the consumer. -/
def closeAndUpdate : List Op :=
  [.select 0 ∅ ∅ ∅, .doWork 5, .keepalive 0 .success none, .disconnect 0 .closed, .returns true,
    .close, .directoryUpdate 0x7f00 willingEnv none]

/-- A consumer asks for the directory before the provider closes. -/
def announceAndClose : List Op :=
  connectConsumer ++ activateConsumer (.initialized 1 0 true)
    ++ receive (directoryRequest 2) willingEnv ++ closeAndUpdate

/-- The consumer asks on two streams. -/
def announceTwice : List Op :=
  connectConsumer ++ activateConsumer (.initialized 1 0 true)
    ++ receive (directoryRequest 2) willingEnv ++ receive (directoryRequest 3) willingEnv
    ++ closeAndUpdate

/-- Nobody is connected. -/
def empty : Audience :=
  ⟨.bound, fun _ => .nothing⟩

theorem empty_init : audienceSystem.init empty :=
  ⟨bound_init, fun _ => rfl⟩

section Replay

set_option maxRecDepth 20000

theorem announceAndClose_informed :
    ∃ p, replay step empty announceAndClose = some p ∧ ∃ pic,
      ((last empty p).knows 0x7f00).pictures 2 = some pic
        ∧ pic.Shows (last empty p).machine.pump.view :=
  ⟨_, rfl, _, rfl, (audience_informed empty _
    (run_replay _ step empty announceAndClose _ empty_init rfl)).2 (by decide) rfl 0x7f00 _ rfl _ rfl⟩

/-- The first stream is still told that requests are accepted. -/
theorem announceTwice_behind :
    ∃ p, audienceSystem.Run empty p ∧ replay step empty announceTwice = some p
      ∧ (last empty p).machine.pc = .updating []
      ∧ (last empty p).machine.pump.view.isAcceptingRequests = false
      ∧ (((last empty p).knows 0x7f00).pictures 2).bind (fun pic => pic 1 .state)
        = some [(.svcState, .value (.uint 1)), (.acceptingReqs, .value (.uint 1))] :=
  ⟨_, run_replay _ step empty announceTwice _ empty_init rfl, rfl, rfl, rfl, by decide⟩

end Replay

end Audience

end Hitsuji
