import Hitsuji.Client.Streams
import Hitsuji.Provider.Removals

set_option autoImplicit false

/-! # The provider as a keeper of sessions

What the provider does to its clients, seen from the clients: a step calls a method of one client,
or adds one, or removes some, or leaves them all alone; every message on a channel comes from the
method called. Keepalive times and the count of pending buffers, which the provider writes by
itself, are the pace of a client and left out. -/

namespace Hitsuji

open ByteBuffer Transition

/-- A client without its pace. -/
def Client.unpaced (c : Client) : Client :=
  { c with pendingCount := 0, nextPing := 0, nextPong := 0 }

/-- The message a client is called with. -/
def Input.message : Input → Option InMsg
  | .msg m => some m
  | _ => none

/-- What the session on a channel did. -/
def eventsOf (k : UInt64) (calls : List RsslCall) : List Event :=
  calls.filterMap fun
    | .session c e => if c = k then some e else none
    | _ => none

theorem eventsOf_append (k : UInt64) (calls calls' : List RsslCall) :
    eventsOf k (calls ++ calls') = eventsOf k calls ++ eventsOf k calls' :=
  List.filterMap_append

theorem eventsOf_session (k : UInt64) (events : List Event) :
    eventsOf k (events.map (.session k)) = events := by
  induction events with
  | nil => rfl
  | cons e rest ih =>
      simp only [eventsOf, List.map_cons, List.filterMap_cons, if_true]
      exact congrArg (e :: ·) ih

theorem eventsOf_other (j k : UInt64) (events : List Event) (hne : j ≠ k) :
    eventsOf j (events.map (.session k)) = [] := by
  induction events with
  | nil => rfl
  | cons e rest ih =>
      simp only [eventsOf, List.map_cons, List.filterMap_cons, if_neg hne.symm]
      exact ih

/-- The message in what was read, if it decodes. -/
def ReadEx.inMsg : ReadEx → Option InMsg
  | .data _ (some (msg, _)) _ => msg
  | _ => none

namespace Pump

/-- The clients without their pace. -/
def unpaced (p : Pump) (k : UInt64) : Option Client :=
  (p.clients k).map Client.unpaced

/-- The message a step hands to a client, and the key of the client. -/
def inbound (p : Pump) : Op → Option (UInt64 × InMsg)
  | .read i (.readEx ret _) =>
      ret.inMsg.bind fun m => ((p.reads i .active).bind p.pointee).map fun k => (k, m)
  | _ => none

/-- No client does anything. -/
structure Calm (p : Pump) (h : Handled) : Prop where
  clients : ∀ k, h.pump.unpaced k = p.unpaced k
  quiet : ∀ k, eventsOf k h.calls = []

/-- A handler may, with `message` for a client: -/
inductive Serving (p : Pump) (message : Option (UInt64 × InMsg)) (h : Handled) : Prop where
  /-- leave the clients alone, -/
  | calm (hnone : message = none) (hcalm : p.Calm h)
  /-- call a method of one of them, -/
  | called (k : UInt64) (client : Client) (e : Call) (d : Done)
      (hclient : p.clients k = some client) (hrun : e.run client = some d)
      (hprovider : e.provider = p.view) (hinput : message = e.input.message.map fun m => (k, m))
      (hafter : h.pump.unpaced k = some d.session.client.unpaced)
      (hothers : ∀ j, j ≠ k → h.pump.unpaced j = p.unpaced j)
      (hevents : eventsOf k h.calls = d.events)
      (hquiet : ∀ j, j ≠ k → eventsOf j h.calls = [])
  /-- add one, -/
  | opened (k : UInt64) (client : Client) (hnone : message = none) (hbefore : p.clients k = none)
      (hafter : h.pump.unpaced k = some client.unpaced) (hnew : clientSystem.init client)
      (hhandle : client.handle = k) (hothers : ∀ j, j ≠ k → h.pump.unpaced j = p.unpaced j)
      (hquiet : ∀ j, eventsOf j h.calls = [])
  /-- or remove some. -/
  | removed (gone : UInt64 → Bool) (hnone : message = none)
      (hclients : ∀ j, h.pump.unpaced j = if gone j then none else p.unpaced j)
      (hquiet : ∀ j, eventsOf j h.calls = [])

/-! ## Composing -/

theorem calm_of_eq (p : Pump) (h : Handled) (hclients : h.pump.clients = p.clients)
    (hquiet : ∀ k, eventsOf k h.calls = []) : p.Calm h where
  clients k := by rw [unpaced, hclients, unpaced]
  quiet := hquiet

theorem calm_refl (p : Pump) : p.Calm ⟨p, []⟩ :=
  calm_of_eq p _ rfl fun _ => rfl

/-- What comes before and leaves clients as they are. -/
theorem serving_before (p q : Pump) (message : Option (UInt64 × InMsg)) (h : Handled)
    (hclients : q.clients = p.clients) (hview : q.view = p.view) (hserving : q.Serving message h) :
    p.Serving message h := by
  have hunpaced : ∀ k, q.unpaced k = p.unpaced k := by
    intro k
    rw [unpaced, hclients, unpaced]
  cases hserving with
  | calm hnone hcalm =>
      exact .calm hnone ⟨fun k => (hcalm.clients k).trans (hunpaced k), hcalm.quiet⟩
  | called k client e d hclient hrun hprovider hinput hafter hothers hevents hquiet =>
      exact .called k client e d (hclients ▸ hclient) hrun (hprovider.trans hview) hinput hafter
        (fun j hj => (hothers j hj).trans (hunpaced j)) hevents hquiet
  | opened k client hnone hbefore hafter hnew hhandle hothers hquiet =>
      exact .opened k client hnone (hclients ▸ hbefore) hafter hnew hhandle
        (fun j hj => (hothers j hj).trans (hunpaced j)) hquiet
  | removed gone hnone hclients' hquiet =>
      exact .removed gone hnone (fun j => by rw [hclients' j, hunpaced j]) hquiet

/-- What comes after and changes the pace of clients at most. -/
theorem serving_after (p : Pump) (message : Option (UInt64 × InMsg)) (h h' : Handled)
    (hserving : p.Serving message h) (hclients : ∀ k, h'.pump.unpaced k = h.pump.unpaced k)
    (hcalls : ∀ k, eventsOf k h'.calls = eventsOf k h.calls) : p.Serving message h' := by
  cases hserving with
  | calm hnone hcalm =>
      exact .calm hnone ⟨fun k => (hclients k).trans (hcalm.clients k),
        fun k => (hcalls k).trans (hcalm.quiet k)⟩
  | called k client e d hclient hrun hprovider hinput hafter hothers hevents hquiet =>
      exact .called k client e d hclient hrun hprovider hinput ((hclients k).trans hafter)
        (fun j hj => (hclients j).trans (hothers j hj)) ((hcalls k).trans hevents)
        (fun j hj => (hcalls j).trans (hquiet j hj))
  | opened k client hnone hbefore hafter hnew hhandle hothers hquiet =>
      exact .opened k client hnone hbefore ((hclients k).trans hafter) hnew hhandle
        (fun j hj => (hclients j).trans (hothers j hj)) (fun j => (hcalls j).trans (hquiet j))
  | removed gone hnone hclients' hquiet =>
      exact .removed gone hnone (fun j => (hclients j).trans (hclients' j))
        (fun j => (hcalls j).trans (hquiet j))

/-- Writing the pace of a client. -/
theorem unpaced_setClient (p : Pump) (k : UInt64) (client client' : Client)
    (hclient : p.clients k = some client) (hpace : client'.unpaced = client.unpaced) (j : UInt64) :
    unpaced { p with clients := Function.update p.clients k (some client') } j = p.unpaced j := by
  by_cases hj : j = k
  · subst hj
    simp only [unpaced, Function.update_self, hclient, Option.map_some, hpace]
  · simp only [unpaced, Function.update_of_ne hj]

theorem unpaced_modifyClient (p p' : Pump) (c : UInt64) (f : Client → Client)
    (hrun : p.modifyClient c f = some p') (hf : ∀ client, (f client).unpaced = client.unpaced)
    (k : UInt64) : p'.unpaced k = p.unpaced k := by
  unfold modifyClient at hrun
  split at hrun
  · obtain rfl := Option.some.inj hrun
    rfl
  · obtain ⟨j, -, hj⟩ := Option.bind_eq_some_iff.mp hrun
    obtain ⟨client, hclient, rfl⟩ := Option.map_eq_some_iff.mp hj
    exact unpaced_setClient p j client (f client) hclient (hf client) k

theorem clients_leave (p : Pump) (c : UInt64) (left : Option Down) :
    (p.leave c left).clients = p.clients := by
  rw [leave_eq]

theorem view_leave (p : Pump) (c : UInt64) (left : Option Down) :
    (p.leave c left).view = p.view := by
  rw [leave_eq]

theorem message_leave (p : Pump) (c : UInt64) (left : Option Down) :
    (p.leave c left).pointee c = p.pointee c :=
  pointee_of_books (books_leave p c left) c

/-! ## Handlers -/

/-- A method of a client, and nothing else. -/
theorem serving_method (p : Pump) (k : UInt64) (client : Client) (input : Input) (env : Env)
    (d : Done) (left : Option Down) (hclient : p.clients k = some client)
    (hrun : Call.run ⟨env, p.channels k, p.view, input⟩ client = some d) :
    p.Serving (input.message.map fun m => (k, m))
      ⟨p.afterMethod k d left, d.events.map (.session k)⟩ := by
  have hclients : (p.afterMethod k d left).clients
      = Function.update p.clients k (some d.session.client) := clients_leave _ k left
  refine .called k client ⟨env, p.channels k, p.view, input⟩ d hclient hrun rfl rfl ?_ ?_
    (eventsOf_session k d.events) fun j hj => eventsOf_other j k d.events hj
  · rw [unpaced, hclients, Function.update_self]
    rfl
  · intro j hj
    rw [unpaced, hclients, Function.update_of_ne hj, unpaced]

theorem serving_onMsg (p : Pump) (c : UInt64) (m : InMsg) (env : Env) (left : Option Down)
    (h : Handled) (hrun : p.onMsg c (some m) env left = some h) :
    p.Serving ((p.pointee c).map fun k => (k, m)) h := by
  obtain ⟨k, hpointee, hk⟩ := Option.bind_eq_some_iff.mp hrun
  obtain ⟨client, hclient, hmethod⟩ := Option.bind_eq_some_iff.mp hk
  obtain ⟨d, hd, rfl⟩ := Option.map_eq_some_iff.mp hmethod
  rw [hpointee, Option.map_some]
  have hserving := serving_method p k client (.msg m) env d left hclient hd
  refine serving_after p _ _ _ hserving (fun j => ?_) fun j => rfl
  simp only
  split <;> rfl

theorem serving_onBuffer (p : Pump) (c : UInt64) (buf : Option (Option InMsg × Env))
    (left : Option Down) (h : Handled) (hrun : p.onBuffer c buf left = some h) :
    p.Serving ((buf.bind Prod.fst).bind fun m => (p.pointee c).map fun k => (k, m)) h := by
  unfold onBuffer at hrun
  split at hrun
  · obtain rfl := Option.some.inj hrun
    exact .calm rfl (calm_refl p)
  · next msg env =>
      obtain ⟨h₁, hmsg, hpong⟩ := Option.bind_eq_some_iff.mp hrun
      obtain ⟨p', hp', rfl⟩ := Option.map_eq_some_iff.mp hpong
      have hpace := unpaced_modifyClient h₁.pump p' c _ hp' fun _ => rfl
      cases msg with
      | none =>
          obtain rfl := Option.some.inj hmsg
          exact .calm rfl ⟨hpace, fun _ => rfl⟩
      | some m =>
          have hserving := serving_onMsg p c m env left h₁ hmsg
          exact serving_after p _ h₁ _ hserving hpace fun _ => rfl

theorem serving_onReadEx (p : Pump) (c : UInt64) (ret : ReadEx) (h : Handled)
    (hrun : p.onReadEx c ret = some h) :
    p.Serving (ret.inMsg.bind fun m => (p.pointee c).map fun k => (k, m)) h := by
  cases ret with
  | congestionDetected | slowReader | packetGapDetected =>
      obtain rfl := Option.some.inj hrun
      refine .calm rfl (calm_of_eq p _ ?_ fun _ => rfl)
      unfold checkClosedState
      split <;> rfl
  | fdChange newSocket =>
      obtain rfl := Option.some.inj hrun
      exact .calm rfl (calm_of_eq p _ rfl fun _ => rfl)
  | ping =>
      obtain ⟨p', hp', rfl⟩ := Option.map_eq_some_iff.mp hrun
      exact .calm rfl ⟨unpaced_modifyClient p p' c _ hp' fun _ => rfl, fun _ => rfl⟩
  | failure =>
      obtain rfl := Option.some.inj hrun
      exact .calm rfl (calm_refl p)
  | data positive buf left =>
      obtain ⟨h₁, hbuf, rfl⟩ := Option.map_eq_some_iff.mp hrun
      have hserving := serving_onBuffer p c buf left h₁ hbuf
      have hmessage : (ReadEx.data positive buf left).inMsg = buf.bind Prod.fst := by
        cases buf <;> rfl
      rw [hmessage]
      split
      · exact serving_after p _ h₁ _ hserving (fun _ => rfl) fun _ => rfl
      · exact hserving

theorem serving_onActiveClientSession (p : Pump) (c : UInt64) (session : NewSession) (left : Down)
    (h : Handled) (hrun : p.onActiveClientSession c session left = some h) :
    p.Serving none h := by
  have hclose : p.Calm (p.closeChannel c left) :=
    calm_of_eq p _ (clients_leave p c (some left)) fun _ => rfl
  unfold onActiveClientSession at hrun
  split at hrun
  · obtain rfl := Option.some.inj hrun
    exact .calm rfl hclose
  · cases session with
    | thrown =>
        obtain rfl := Option.some.inj hrun
        exact .calm rfl (calm_refl p)
    | uninitialized =>
        obtain rfl := Option.some.inj hrun
        exact .calm rfl hclose
    | initialized address directoryToken emplaced =>
        obtain ⟨-, hrun⟩ := Option.ite_none_left_eq_some.mp hrun
        obtain rfl := Option.some.inj hrun
        cases emplaced with
        | false => exact .calm rfl (calm_of_eq p _ rfl fun _ => rfl)
        | true =>
            cases hbefore : p.clients c with
            | none =>
                -- `clients_.emplace` adds the new client
                refine .opened c (.initial c directoryToken (p.channels c) p.view.lastActivity) rfl
                  hbefore ?_ ⟨c, directoryToken, p.channels c, p.view.lastActivity, rfl⟩ rfl ?_
                  fun _ => rfl
                · simp [unpaced, acceptClientSession, Provider.acceptClientSession, setLink,
                    hbefore]
                · intro j hj
                  simp [unpaced, acceptClientSession, Provider.acceptClientSession, setLink,
                    Function.update_of_ne hj]
            | some client =>
                -- or keeps the one that is there
                refine .calm rfl ⟨fun j => ?_, fun _ => rfl⟩
                by_cases hj : j = c
                · subst hj
                  simp [unpaced, acceptClientSession, Provider.acceptClientSession, setLink,
                    hbefore]
                · simp [unpaced, acceptClientSession, Provider.acceptClientSession, setLink,
                    Function.update_of_ne hj]

theorem serving_onInitializingState (p : Pump) (c : UInt64) (ret : InitChannel)
    (session : NewSession) (left : Down) (h : Handled)
    (hrun : p.onInitializingState c ret session left = some h) : p.Serving none h := by
  cases ret with
  | inProgress newSocket =>
      cases newSocket <;>
      · obtain rfl := Option.some.inj hrun
        exact .calm rfl (calm_of_eq p _ rfl fun _ => rfl)
  | failure left =>
      obtain rfl := Option.some.inj hrun
      exact .calm rfl (calm_of_eq p _ (clients_leave p c left) fun _ => rfl)
  | success majorVersion minorVersion pingTimeout =>
      obtain ⟨h₁, hsession, rfl⟩ := Option.map_eq_some_iff.mp hrun
      have hserving := serving_onActiveClientSession _ c session left h₁ hsession
      exact serving_before p (p.activate c majorVersion minorVersion pingTimeout) none _ rfl rfl
        (serving_after _ none h₁ _ hserving (fun _ => rfl) fun _ => rfl)

theorem serving_onCanRead (p : Pump) (c : UInt64) (answer : ReadAnswer) (h : Handled)
    (hrun : p.onCanRead c answer = some h) :
    (∃ ret left, answer = .readEx ret left ∧ (p.links c).state = .active
        ∧ p.Serving (ret.inMsg.bind fun m => (p.pointee c).map fun k => (k, m)) h)
      ∨ ((∀ ret left, answer = .readEx ret left → (p.links c).state ≠ .active)
        ∧ p.Serving none h) := by
  unfold onCanRead at hrun
  split at hrun
  · next hclosed =>
      obtain rfl := Option.some.inj hrun
      refine .inr ⟨fun _ _ _ => ?_, .calm rfl (calm_of_eq p _ rfl fun _ => rfl)⟩
      rw [hclosed]
      simp
  · next ret session left _ =>
      exact .inr ⟨by simp, serving_onInitializingState p c ret session left h hrun⟩
  · next ret left hactive =>
      refine .inl ⟨ret, left, rfl, hactive, ?_⟩
      have hserving := serving_onReadEx _ c ret h hrun
      rw [message_leave p c left] at hserving
      exact serving_before p _ _ h (clients_leave p c left) (view_leave p c left) hserving
  · next hinactive =>
      obtain rfl := Option.some.inj hrun
      refine .inr ⟨fun _ _ _ => ?_, .calm rfl (calm_refl p)⟩
      rw [hinactive]
      simp
  · next code hother =>
      obtain rfl := Option.some.inj hrun
      refine .inr ⟨fun _ _ _ => ?_, .calm rfl (calm_refl p)⟩
      rw [hother]
      simp
  · exact absurd hrun (by simp)

/-- A step that reads calls the client behind the pointer, if a message was read. -/
theorem serving_read (p : Pump) (i : Nat) (answer : ReadAnswer) (h : Handled)
    (hrun : p.exec (.read i answer) = some h) : p.Serving (p.inbound (.read i answer)) h := by
  obtain ⟨c, hc, hread⟩ := Option.bind_eq_some_iff.mp hrun
  have hnobody : ∀ ret left, answer = .readEx ret left → p.reads i .active = none →
      p.inbound (.read i answer) = none := by
    intro ret left hanswer hreads
    simp only [hanswer, inbound, hreads, Option.bind_none, Option.map_none]
    cases ret.inMsg <;> rfl
  have hother : (∀ ret left, answer = .readEx ret left → p.reads i .active = none) →
      p.inbound (.read i answer) = none := by
    intro hreads
    cases answer with
    | readEx ret left => exact hnobody ret left rfl (hreads ret left rfl)
    | nothing | initChannel => rfl
  have hreads : ∀ k, p.reads i .active = some k → k = c ∧ p.socketId c ∈ p.outRfds
      ∧ (p.links c).state = .active := by
    intro k hk
    obtain ⟨hreading, hactive⟩ := (p.reads_eq_some i .active k).mp hk
    obtain rfl := Option.some.inj (hreading.position.symm.trans hc)
    exact ⟨rfl, hreading.ready, hactive⟩
  split at hread
  · next hready =>
      rcases serving_onCanRead _ c answer h hread with ⟨ret, left, rfl, hactive, hserving⟩
        | ⟨hidle, hserving⟩
      · have hhere : p.reads i .active = some c := (p.reads_eq_some i .active c).mpr
          ⟨⟨hc, hready⟩, hactive⟩
        simp only [inbound, hhere, Option.bind_some]
        exact serving_before p (p.clearRead (p.socketId c)) _ h rfl rfl hserving
      · rw [hother fun ret left hanswer => ?_]
        · exact serving_before p (p.clearRead (p.socketId c)) none h rfl rfl hserving
        · refine Option.eq_none_iff_forall_not_mem.mpr fun k hk => ?_
          obtain ⟨-, -, hactive⟩ := hreads k hk
          exact hidle ret left hanswer hactive
  · next hquiet =>
      obtain rfl := Option.some.inj hread
      rw [hother fun _ _ _ => Option.eq_none_iff_forall_not_mem.mpr fun k hk =>
        hquiet (hreads k hk).2.1]
      exact .calm rfl (calm_refl p)

theorem calm_onCanWrite (p : Pump) (c : UInt64) (rc : RsslRet) (left : Option Down) (h : Handled)
    (hrun : p.onCanWrite c rc left = some h) : p.Calm h := by
  unfold onCanWrite at hrun
  split at hrun
  · obtain ⟨p', hp', rfl⟩ := Option.map_eq_some_iff.mp hrun
    exact ⟨unpaced_modifyClient (p.clearPending c) p' c _ hp' fun _ => rfl, fun _ => rfl⟩
  · obtain rfl := Option.some.inj hrun
    exact calm_of_eq p _ (clients_leave p c left) fun _ => rfl

theorem calm_ping (p : Pump) (c : UInt64) (rc : RsslRet) (left : Option Down) (h : Handled)
    (hrun : p.ping c rc left = some h) : p.Calm h := by
  unfold ping at hrun
  split at hrun
  · obtain ⟨p', hp', rfl⟩ := Option.map_eq_some_iff.mp hrun
    exact ⟨unpaced_modifyClient p p' c _ hp' fun _ => rfl, fun _ => rfl⟩
  all_goals
    obtain rfl := Option.some.inj hrun
    exact calm_of_eq p _ (clients_leave _ c left) fun _ => rfl

theorem calm_keepalive (p : Pump) (c : UInt64) (rc : RsslRet) (left : Option Down) (h : Handled)
    (hrun : p.keepalive c rc left = some h) : p.Calm h := by
  unfold keepalive at hrun
  split at hrun
  · obtain ⟨client, -, hclient⟩ := Option.bind_eq_some_iff.mp hrun
    obtain ⟨h₁, hping, rfl⟩ := Option.map_eq_some_iff.mp hclient
    have hcalm : p.Calm h₁ := by
      split at hping
      · exact calm_ping p c rc left h₁ hping
      · obtain rfl := Option.some.inj hping
        exact calm_refl p
    split
    · exact ⟨hcalm.clients, hcalm.quiet⟩
    · exact hcalm
  · obtain rfl := Option.some.inj hrun
    exact calm_refl p

theorem serving_disconnect (p : Pump) (i : Nat) (c : UInt64) (left : Down) :
    p.Serving none (p.disconnect i c left) := by
  refine .removed (fun k => decide (k = c)) rfl (fun k => ?_) fun k => ?_
  · have hclients : (p.disconnect i c left).pump.clients = Function.update p.clients c none := by
      rw [disconnect_eq]
      rfl
    rw [unpaced, hclients]
    by_cases hk : k = c
    · subst hk
      simp
    · simp only [Function.update_of_ne hk, hk, decide_false, Bool.false_eq_true, if_false]
      rfl
  · unfold disconnect
    split <;> rfl

theorem serving_reply (p : Pump) (env : Env) (z : ReadEnv) (msg : Bytes) (left : Option Down)
    (h : Handled) (hrun : p.exec (.reply env z msg left) = some h) : p.Serving none h := by
  simp only [exec] at hrun
  split at hrun
  · obtain ⟨⟨q, events⟩, hread, rfl⟩ := Option.map_eq_some_iff.mp hrun
    obtain ⟨out, ⟨rfl, rfl⟩ | ⟨view, client, d, -, hview, hclient, hd, rfl, rfl⟩⟩ :=
      onReplySocket_cases env z p.toProvider q msg events hread
    · exact .calm rfl (calm_of_eq p _ (clients_leave _ _ _) fun _ => rfl)
    · rw [replyHandle_eq msg view hview]
      have hserving := serving_method p view.handle client (.reply view.token (view.payload msg))
        env d none hclient hd
      refine serving_after p none _ _ hserving (fun k => ?_) fun _ => rfl
      rw [unpaced, clients_leave]
      rfl
  · obtain rfl := Option.some.inj hrun
    exact .calm rfl (calm_refl p)

theorem serving_directoryUpdate (p : Pump) (c : UInt64) (env : Env) (left : Option Down)
    (h : Handled) (hrun : p.directoryUpdate c env left = some h) : p.Serving none h := by
  obtain ⟨client, hclient, hupdate⟩ := Option.bind_eq_some_iff.mp hrun
  obtain ⟨d, hd, rfl⟩ := Option.map_eq_some_iff.mp hupdate
  exact serving_method p c client .sourceDirectoryUpdate env d left hclient hd

theorem eventsOf_flushStream (p : Pump) (c : UInt64) (loop : FlushLoop) (left : Option Down)
    (k : UInt64) : eventsOf k (p.flushStream c loop left).calls = [] := by
  have hflush : eventsOf k (flushCalls c loop) = [] := by
    rw [flushCalls, eventsOf_append]
    induction loop.again with
    | zero => rfl
    | succ n ih => exact ih
  unfold flushStream
  split
  · split <;> exact hflush
  · rfl

theorem unpaced_flushStream (p : Pump) (c : UInt64) (loop : FlushLoop) (left : Option Down)
    (k : UInt64) : (p.flushStream c loop left).pump.unpaced k = p.unpaced k := by
  unfold flushStream
  split
  · split
    · by_cases hk : k = c
      · subst hk
        simp only [unpaced, Function.update_self, Option.map_map]
        rfl
      · simp only [unpaced, Function.update_of_ne hk]
    · rw [unpaced, clients_leave, unpaced]
  · rfl

theorem serving_notify (p : Pump) (c : UInt64) (env : Env) (left : Option Down) (loop : FlushLoop)
    (leftByFlush : Option Down) (h : Handled)
    (hrun : p.notify c env left loop leftByFlush = some h) : p.Serving none h := by
  obtain ⟨client, hclient, hclose⟩ := Option.bind_eq_some_iff.mp hrun
  obtain ⟨d, hd, rfl⟩ := Option.map_eq_some_iff.mp hclose
  have hserving := serving_method p c client .close env d left hclient hd
  refine serving_after p none _ _ hserving (unpaced_flushStream _ c loop leftByFlush) fun k => ?_
  rw [eventsOf_append, eventsOf_flushStream, List.append_nil]

theorem eventsOf_closeConnections (left : UInt64 → Down) (connections : List UInt64) (p : Pump)
    (k : UInt64) : eventsOf k (closeConnections left connections p).calls = [] := by
  induction connections generalizing p with
  | nil => rfl
  | cons c rest ih => exact ih _

/-- **A step of the provider calls a method of one client**, the one the message is for, or adds a
    client, or removes some, or leaves them all alone; every message on a channel comes from the
    method called. -/
theorem serving_exec (p : Pump) (op : Op) (h : Handled) (hrun : p.exec op = some h) :
    p.Serving (p.inbound op) h := by
  cases op with
  | start =>
      obtain ⟨listening, -, rfl⟩ := Option.map_eq_some_iff.mp hrun
      exact .calm rfl (calm_of_eq p _ rfl fun _ => rfl)
  | doWork now =>
      obtain rfl := Option.some.inj hrun
      exact .calm rfl (calm_of_eq p _ rfl fun _ => rfl)
  | reply env z msg left => exact serving_reply p env z msg left h hrun
  | connection accepted =>
      obtain ⟨listening, -, rfl⟩ := Option.map_eq_some_iff.mp hrun
      refine .calm rfl ?_
      split
      · unfold onConnection
        split
        all_goals cases accepted <;> exact calm_of_eq p _ rfl fun _ => rfl
      · exact calm_refl p
  | read i answer => exact serving_read p i answer h hrun
  | write i rc left =>
      obtain ⟨c, -, hwrite⟩ := Option.bind_eq_some_iff.mp hrun
      refine .calm rfl ?_
      split at hwrite
      · have hcalm := calm_onCanWrite _ c rc left h hwrite
        exact ⟨hcalm.clients, hcalm.quiet⟩
      · obtain rfl := Option.some.inj hwrite
        exact calm_refl p
  | keepalive i rc left =>
      obtain ⟨c, -, hkeep⟩ := Option.bind_eq_some_iff.mp hrun
      exact .calm rfl (calm_keepalive p c rc left h hkeep)
  | disconnect i left =>
      obtain ⟨c, -, hdisconnect⟩ := Option.bind_eq_some_iff.mp hrun
      obtain rfl := Option.some.inj hdisconnect
      split
      · exact serving_disconnect p i c left
      · exact .calm rfl (calm_refl p)
  | returns quit | throw =>
      obtain rfl := Option.some.inj hrun
      exact .calm rfl (calm_refl p)
  | select n rfds wfds efds =>
      obtain ⟨-, hselect⟩ := Option.ite_none_right_eq_some.mp hrun
      obtain rfl := Option.some.inj hselect
      exact .calm rfl (calm_of_eq p _ rfl fun _ => rfl)
  | close =>
      obtain rfl := Option.some.inj hrun
      exact .calm rfl (calm_of_eq p _ rfl fun _ => rfl)
  | directoryUpdate c env left => exact serving_directoryUpdate p c env left h hrun
  | drain =>
      simp only [exec] at hrun
      split at hrun
      · obtain ⟨listening, -, rfl⟩ := Option.map_eq_some_iff.mp hrun
        exact .calm rfl (calm_of_eq p _ rfl fun _ => rfl)
      · obtain rfl := Option.some.inj hrun
        exact .calm rfl (calm_refl p)
  | notify c env left loop leftByFlush =>
      exact serving_notify p c env left loop leftByFlush h hrun
  | teardown left =>
      obtain rfl := Option.some.inj hrun
      refine .removed (fun _ => true) rfl (fun k => ?_)
        fun k => eventsOf_closeConnections left p.connections _ k
      simp only [teardown]
      rw [closeConnections_eq]
      rfl

end Pump

/-! ## Lifetimes -/

/-- What may become of the client under a key, and what it does meanwhile. -/
inductive Lifetime (k : UInt64) : Option Client → List Event → Option Client → Prop where
  /-- it is served later, or not yet there -/
  | rests (c c' : Option Client) (hpace : c'.map Client.unpaced = c.map Client.unpaced) :
      Lifetime k c [] c'
  /-- it begins as the constructor leaves it -/
  | begins (c c' : Client) (hnew : clientSystem.init c) (hhandle : c.handle = k)
      (hpace : c'.unpaced = c.unpaced) : Lifetime k none [] (some c')
  /-- one of its methods is called -/
  | called (c c' : Client) (e : Call) (d : Done) (hrun : e.run c = some d)
      (hpace : c'.unpaced = d.session.client.unpaced) : Lifetime k (some c) d.events (some c')
  | ends (c : Option Client) : Lifetime k c [] none

/-- The clients under a key, one after the other. -/
def lifetimeSystem (k : UInt64) : System (Option Client) (List Event) :=
  ⟨(· = none), Lifetime k⟩

theorem lifetime_of_serving (p : Pump) (message : Option (UInt64 × InMsg)) (h : Handled)
    (hserving : p.Serving message h) (j : UInt64) :
    Lifetime j (p.clients j) (eventsOf j h.calls) (h.pump.clients j) := by
  cases hserving with
  | calm _ hcalm =>
      rw [hcalm.quiet j]
      exact .rests _ _ (hcalm.clients j)
  | called k client e d hclient hrun _ _ hafter hothers hevents hquiet =>
      by_cases hj : j = k
      · subst hj
        obtain ⟨client', hclient', hpace⟩ := Option.map_eq_some_iff.mp hafter
        rw [hclient, hclient', hevents]
        exact .called client client' e d hrun hpace
      · rw [hquiet j hj]
        exact .rests _ _ (hothers j hj)
  | opened k client _ hbefore hafter hnew hhandle hothers hquiet =>
      rw [hquiet j]
      by_cases hj : j = k
      · subst hj
        obtain ⟨client', hclient', hpace⟩ := Option.map_eq_some_iff.mp hafter
        rw [hbefore, hclient']
        exact .begins client client' hnew hhandle hpace
      · exact .rests _ _ (hothers j hj)
  | removed gone _ hclients hquiet =>
      rw [hquiet j]
      have hj := hclients j
      split at hj
      · rw [Option.map_eq_none_iff.mp hj]
        exact .ends _
      · exact .rests _ _ hj

/-- The calls of a step. -/
def Machine.calls (m : Machine) (op : Op) : List RsslCall :=
  ((m.pump.exec op).map Handled.calls).getD []

/-- The calls of a run. -/
def callsAlong : Machine → Steps Machine Op → List RsslCall
  | _, [] => []
  | m, (op, m') :: rest => m.calls op ++ callsAlong m' rest

theorem lifetime_step (m m' : Machine) (op : Op) (hstep : m.step op = some m') (k : UInt64) :
    Lifetime k (m.pump.clients k) (eventsOf k (m.calls op)) (m'.pump.clients k) := by
  obtain ⟨h, pc, hexec, -, rfl⟩ := (step_eq_some m m' op).mp hstep
  rw [Machine.calls, hexec]
  exact lifetime_of_serving m.pump _ h (m.pump.serving_exec op h hexec) k

theorem lifetimes_along (m : Machine) (p : Steps Machine Op)
    (hp : Along (fun m op m' => m.step op = some m') m p) (k : UInt64) :
    ∃ q, Along (lifetimeSystem k).step (m.pump.clients k) q
      ∧ last (m.pump.clients k) q = (last m p).pump.clients k
      ∧ q.flatMap Prod.fst = eventsOf k (callsAlong m p) := by
  induction p generalizing m with
  | nil => exact ⟨[], trivial, rfl, rfl⟩
  | cons t rest ih =>
      obtain ⟨q, halong, hlast, hevents⟩ := ih t.2 hp.2
      refine ⟨(eventsOf k (m.calls t.1), t.2.pump.clients k) :: q,
        ⟨lifetime_step m t.2 t.1 hp.1 k, halong⟩, hlast, ?_⟩
      rw [List.flatMap_cons, hevents, callsAlong, eventsOf_append]

/-- **Seen at one key, every run of the provider is a run of clients**, one after the other: each
    begins as the constructor leaves it, and everything on its channel, in the order in which it
    happened, is what its methods did. -/
theorem sessions_refined (m₀ : Machine) (p : Steps Machine Op) (hrun : pumpSystem.Run m₀ p)
    (k : UInt64) :
    ∃ q, (lifetimeSystem k).Run none q ∧ last none q = (last m₀ p).pump.clients k
      ∧ q.flatMap Prod.fst = eventsOf k (callsAlong m₀ p) := by
  obtain ⟨hinit, hsteps⟩ := hrun
  obtain ⟨q, halong, hlast, hevents⟩ := lifetimes_along m₀ p hsteps k
  have hnone : m₀.pump.clients k = none := hinit.2.2.2.1 k
  rw [hnone] at halong hlast
  exact ⟨q, ⟨rfl, halong⟩, hlast, hevents⟩

/-- A consumer logs in and requests an item; the worker's reply is read. -/
def serveConsumer : List Op :=
  connectConsumer ++ activateConsumer (.initialized 1 0 true) ++ receive (loginByName 1) willingEnv
    ++ receive (.plain .request .marketPrice 5) willingEnv
    ++ [.select 1 {4} ∅ ∅, .doWork 4,
      .reply willingEnv ⟨some true, true, true, true, some false⟩ (replyImage 0x7f00 5 1 [9]) none,
      .connection none] ++ visit 0 .nothing ++ [.returns false]

section Replay

set_option maxRecDepth 20000

theorem serveConsumer_refined :
    ∃ p, replay Machine.step Machine.bound serveConsumer = some p
      ∧ (eventsOf 0x7f00 (callsAlong Machine.bound p)).length = 5
      ∧ ∃ q, (lifetimeSystem 0x7f00).Run none q
        ∧ last none q = (last Machine.bound p).pump.clients 0x7f00
        ∧ q.flatMap Prod.fst = eventsOf 0x7f00 (callsAlong Machine.bound p) :=
  ⟨_, rfl, rfl, sessions_refined Machine.bound _
    (run_replay _ Machine.step Machine.bound serveConsumer _ bound_init rfl) 0x7f00⟩

end Replay

end Hitsuji
