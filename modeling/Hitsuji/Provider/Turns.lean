import Hitsuji.Provider.Keepalive

set_option autoImplicit false

/-! # The turn of a connection

Every step in the loop of `DoWork` is for the connection at the iterator. It reaches a client only
through the pointer of that connection, so where pointers are those of the clients stored for them
(`Booked`), a turn leaves all other connections and their clients alone and calls RSSL for none of
them. -/

namespace Hitsuji

open ByteBuffer Transition

/-- The position of the iterator in a step of the loop. -/
def Op.turn : Op → Option Nat
  | .read i _ | .write i _ _ | .keepalive i _ _ | .disconnect i _ => some i
  | _ => none

/-- The channel a call is for. -/
def RsslCall.channel : RsslCall → UInt64
  | .accept a | .nak a => a.handle
  | .session c _ | .flush c _ | .ping c _ | .closeChannel c => c

namespace Pump

/-- Of channels and clients, only those of `c` are touched or called for. -/
structure Turn (p : Pump) (c : UInt64) (h : Handled) : Prop where
  clients : ∀ k, k ≠ c → h.pump.clients k = p.clients k
  links : ∀ k, k ≠ c → h.pump.links k = p.links k
  channels : ∀ k, k ≠ c → h.pump.channels k = p.channels k
  lastActivity : h.pump.view.lastActivity = p.view.lastActivity
  calls : ∀ call ∈ h.calls, call.channel = c

/-- The pointer of a connection leads to its own client, if it leads to one. -/
def OwnClient (p : Pump) (c : UInt64) : Prop :=
  ∀ k, p.pointee c = some k → k = c

theorem ownClient_of_booked (p : Pump) (hcoherent : p.Coherent) (hbooked : p.Booked) (c : UInt64)
    (hc : c ∈ p.connections) : p.OwnClient c :=
  fun k hk => p.pointee_of_booked hcoherent hbooked c k hc hk

theorem ownClient_of_books (p p' : Pump) (c : UInt64) (hbooks : p'.books = p.books)
    (hown : p.OwnClient c) : p'.OwnClient c := by
  intro k hk
  rw [pointee_of_books hbooks] at hk
  exact hown k hk

/-! ## Composing -/

/-- A change of anything but channels and clients. -/
theorem turn_of_eq (p p' : Pump) (c : UInt64) (hclients : p'.clients = p.clients)
    (hlinks : p'.links = p.links) (hchannels : p'.channels = p.channels)
    (hview : p'.view.lastActivity = p.view.lastActivity) : p.Turn c ⟨p', []⟩ where
  clients k _ := by rw [hclients]
  links k _ := by rw [hlinks]
  channels k _ := by rw [hchannels]
  lastActivity := hview
  calls call hmem := absurd hmem List.not_mem_nil

theorem turn_refl (p : Pump) (c : UInt64) : p.Turn c ⟨p, []⟩ :=
  turn_of_eq p p c rfl rfl rfl rfl

theorem turn_trans (p : Pump) (c : UInt64) (h h' : Handled) (hfirst : p.Turn c h)
    (hsecond : h.pump.Turn c h') : p.Turn c ⟨h'.pump, h.calls ++ h'.calls⟩ where
  clients k hk := (hsecond.clients k hk).trans (hfirst.clients k hk)
  links k hk := (hsecond.links k hk).trans (hfirst.links k hk)
  channels k hk := (hsecond.channels k hk).trans (hfirst.channels k hk)
  lastActivity := hsecond.lastActivity.trans hfirst.lastActivity
  calls call hmem := by
    rcases List.mem_append.mp hmem with hold | hnew
    · exact hfirst.calls call hold
    · exact hsecond.calls call hnew

/-- Something quiet comes first. -/
theorem turn_before (p q : Pump) (c : UInt64) (h : Handled) (hfirst : p.Turn c ⟨q, []⟩)
    (hsecond : q.Turn c h) : p.Turn c h :=
  turn_trans p c ⟨q, []⟩ h hfirst hsecond

/-- Or last. -/
theorem turn_after (p q : Pump) (c : UInt64) (h : Handled) (hfirst : p.Turn c h)
    (hsecond : h.pump.Turn c ⟨q, []⟩) : p.Turn c ⟨q, h.calls⟩ := by
  have htrans := turn_trans p c h ⟨q, []⟩ hfirst hsecond
  rwa [List.append_nil] at htrans

/-- A call for the channel. -/
theorem turn_call (p q : Pump) (c : UInt64) (call : RsslCall) (h : p.Turn c ⟨q, []⟩)
    (hcall : call.channel = c) : p.Turn c ⟨q, [call]⟩ :=
  { h with
    calls := by
      intro call' hmem
      obtain rfl := List.mem_singleton.mp hmem
      exact hcall }

/-! ## Handlers -/

theorem turn_setLink (p : Pump) (c : UInt64) (l : Link) : p.Turn c ⟨p.setLink c l, []⟩ where
  clients _ _ := rfl
  links _ hk := Function.update_of_ne hk _ _
  channels _ _ := rfl
  lastActivity := rfl
  calls _ hmem := absurd hmem List.not_mem_nil

theorem turn_setChannel (p : Pump) (c : UInt64) (ch : Channel) :
    p.Turn c ⟨p.setChannel c ch, []⟩ where
  clients _ _ := rfl
  links _ _ := rfl
  channels _ hk := Function.update_of_ne hk _ _
  lastActivity := rfl
  calls _ hmem := absurd hmem List.not_mem_nil

theorem turn_leave (p : Pump) (c : UInt64) (left : Option Down) :
    p.Turn c ⟨p.leave c left, []⟩ := by
  cases left with
  | none => exact turn_refl p c
  | some d => exact turn_setLink p c _

theorem turn_abort (p : Pump) (c : UInt64) : p.Turn c ⟨p.abort c, []⟩ :=
  turn_of_eq p _ c rfl rfl rfl rfl

/-- Writing the client of the connection. -/
theorem turn_setClient (p : Pump) (c : UInt64) (client : Option Client) :
    p.Turn c ⟨{ p with clients := Function.update p.clients c client }, []⟩ where
  clients _ hk := Function.update_of_ne hk _ _
  links _ _ := rfl
  channels _ _ := rfl
  lastActivity := rfl
  calls _ hmem := absurd hmem List.not_mem_nil

theorem turn_modifyClient (p p' : Pump) (c : UInt64) (f : Client → Client)
    (hown : p.OwnClient c) (h : p.modifyClient c f = some p') : p.Turn c ⟨p', []⟩ := by
  unfold modifyClient at h
  split at h
  · obtain rfl := Option.some.inj h
    exact turn_refl p c
  · obtain ⟨k, hpointee, hk⟩ := Option.bind_eq_some_iff.mp h
    obtain ⟨client, -, rfl⟩ := Option.map_eq_some_iff.mp hk
    obtain rfl := hown k hpointee
    exact turn_setClient p k _

theorem turn_afterMethod (p : Pump) (c : UInt64) (client : Client) (d : Done)
    (left : Option Down) (hd : (p.session c client).SameTimeouts d.session) :
    p.Turn c ⟨p.afterMethod c d left, d.events.map (.session c)⟩ := by
  let q : Pump := { p with toProvider := p.toProvider.absorb c d }
  have habsorb : p.Turn c ⟨q, d.events.map (.session c)⟩ := by
    refine ⟨fun k hk => Function.update_of_ne hk _ _, fun _ _ => rfl, fun _ _ => rfl,
      hd.lastActivity, fun call hmem => ?_⟩
    obtain ⟨e, -, rfl⟩ := List.mem_map.mp hmem
    rfl
  exact turn_after p _ c ⟨q, d.events.map (.session c)⟩ habsorb (turn_leave q c left)

theorem turn_onMsg (p : Pump) (c : UInt64) (msg : Option InMsg) (env : Env) (left : Option Down)
    (h : Handled) (hown : p.OwnClient c) (hrun : p.onMsg c msg env left = some h) :
    p.Turn c h := by
  unfold onMsg at hrun
  split at hrun
  · obtain rfl := Option.some.inj hrun
    exact turn_abort p c
  · obtain ⟨k, hpointee, hk⟩ := Option.bind_eq_some_iff.mp hrun
    obtain ⟨client, -, hmethod⟩ := Option.bind_eq_some_iff.mp hk
    obtain ⟨d, hd, rfl⟩ := Option.map_eq_some_iff.mp hmethod
    obtain rfl := hown k hpointee
    have hturn := turn_afterMethod p k client d left (sameTimeouts_onMsg _ _ _ d hd)
    simp only
    split
    · exact hturn
    · exact turn_after p _ k _ hturn (turn_abort _ k)

theorem turn_onBuffer (p : Pump) (c : UInt64) (buf : Option (Option InMsg × Env))
    (left : Option Down) (h : Handled) (hown : p.OwnClient c)
    (hrun : p.onBuffer c buf left = some h) : p.Turn c h := by
  unfold onBuffer at hrun
  split at hrun
  · obtain rfl := Option.some.inj hrun
    exact turn_refl p c
  · obtain ⟨h₁, hmsg, hpong⟩ := Option.bind_eq_some_iff.mp hrun
    obtain ⟨p', hp', rfl⟩ := Option.map_eq_some_iff.mp hpong
    have hown₁ := ownClient_of_books p _ c (serves_onMsg p c _ _ left h₁ hmsg).books hown
    exact turn_after p p' c h₁ (turn_onMsg p c _ _ left h₁ hown hmsg)
      (turn_modifyClient _ p' c _ hown₁ hp')

theorem turn_onFdChange (p : Pump) (c : UInt64) : p.Turn c ⟨p.onFdChange c, []⟩ :=
  turn_of_eq p _ c rfl rfl rfl rfl

theorem turn_onReadEx (p : Pump) (c : UInt64) (ret : ReadEx) (h : Handled)
    (hown : p.OwnClient c) (hrun : p.onReadEx c ret = some h) : p.Turn c h := by
  cases ret with
  | congestionDetected | slowReader | packetGapDetected =>
      obtain rfl := Option.some.inj hrun
      unfold checkClosedState
      split
      · exact turn_onFdChange p c
      · exact turn_refl p c
  | fdChange newSocket =>
      obtain rfl := Option.some.inj hrun
      have hmoved : p.Turn c ⟨p.reconnect c newSocket, []⟩ :=
        turn_before p _ c _ (turn_setLink p c _) (turn_setChannel _ c _)
      exact turn_before p _ c _ hmoved (turn_onFdChange _ c)
  | ping =>
      obtain ⟨p', hp', rfl⟩ := Option.map_eq_some_iff.mp hrun
      exact turn_modifyClient p p' c _ hown hp'
  | failure =>
      obtain rfl := Option.some.inj hrun
      exact turn_refl p c
  | data positive buf left =>
      obtain ⟨h₁, hbuf, rfl⟩ := Option.map_eq_some_iff.mp hrun
      have hturn := turn_onBuffer p c buf left h₁ hown hbuf
      split
      · exact turn_after p _ c h₁ hturn (turn_of_eq _ _ c rfl rfl rfl rfl)
      · exact hturn

theorem turn_activate (p : Pump) (c : UInt64) (majorVersion minorVersion : UInt8)
    (pingTimeout : Nat) : p.Turn c ⟨p.activate c majorVersion minorVersion pingTimeout, []⟩ :=
  turn_before p _ c _ (turn_setChannel p c _) (turn_setLink _ c _)

theorem turn_acceptClientSession (p : Pump) (c : UInt64) (address : Nat) (directoryToken : Int32) :
    p.Turn c ⟨p.acceptClientSession c address directoryToken, []⟩ where
  clients _ hk := Function.update_of_ne hk _ _
  links _ _ := rfl
  channels _ hk := Function.update_of_ne hk _ _
  lastActivity := rfl
  calls _ hmem := absurd hmem List.not_mem_nil

theorem turn_onActiveClientSession (p : Pump) (c : UInt64) (session : NewSession) (left : Down)
    (h : Handled) (hrun : p.onActiveClientSession c session left = some h) : p.Turn c h := by
  have hclose : p.Turn c (p.closeChannel c left) :=
    turn_call p _ c _ (turn_leave p c (some left)) rfl
  unfold onActiveClientSession at hrun
  split at hrun
  · obtain rfl := Option.some.inj hrun
    exact hclose
  · cases session with
    | thrown =>
        obtain rfl := Option.some.inj hrun
        exact turn_refl p c
    | uninitialized =>
        obtain rfl := Option.some.inj hrun
        exact hclose
    | initialized address directoryToken emplaced =>
        obtain ⟨-, hrun⟩ := Option.ite_none_left_eq_some.mp hrun
        obtain rfl := Option.some.inj hrun
        have hlink := turn_setLink p c { p.links c with userSpecPtr := some address }
        cases emplaced with
        | true => exact turn_before p _ c _ hlink (turn_acceptClientSession _ c _ _)
        | false => exact hlink

theorem turn_onInitializingState (p : Pump) (c : UInt64) (ret : InitChannel)
    (session : NewSession) (left : Down) (h : Handled)
    (hrun : p.onInitializingState c ret session left = some h) : p.Turn c h := by
  cases ret with
  | inProgress newSocket =>
      cases newSocket with
      | none =>
          obtain rfl := Option.some.inj hrun
          exact turn_refl p c
      | some newSocket =>
          obtain rfl := Option.some.inj hrun
          exact turn_before p _ c _ (turn_setChannel p c _) (turn_of_eq _ _ c rfl rfl rfl rfl)
  | failure left =>
      obtain rfl := Option.some.inj hrun
      exact turn_leave p c left
  | success majorVersion minorVersion pingTimeout =>
      obtain ⟨h₁, hsession, rfl⟩ := Option.map_eq_some_iff.mp hrun
      have hturn := turn_before p _ c h₁ (turn_activate p c _ _ _)
        (turn_onActiveClientSession _ c session left h₁ hsession)
      exact turn_after p _ c h₁ hturn (turn_of_eq _ _ c rfl rfl rfl rfl)

theorem turn_onCanRead (p : Pump) (c : UInt64) (answer : ReadAnswer) (h : Handled)
    (hown : p.OwnClient c) (hrun : p.onCanRead c answer = some h) : p.Turn c h := by
  unfold onCanRead at hrun
  split at hrun
  · obtain rfl := Option.some.inj hrun
    exact turn_abort p c
  · exact turn_onInitializingState p c _ _ _ h hrun
  · next ret left _ =>
      have hown' := ownClient_of_books p _ c (books_leave p c left) hown
      exact turn_before p _ c h (turn_leave p c left) (turn_onReadEx _ c ret h hown' hrun)
  · obtain rfl := Option.some.inj hrun
    exact turn_refl p c
  · obtain rfl := Option.some.inj hrun
    exact turn_refl p c
  · exact absurd hrun (by simp)

theorem turn_onCanWrite (p : Pump) (c : UInt64) (rc : RsslRet) (left : Option Down) (h : Handled)
    (hown : p.OwnClient c) (hrun : p.onCanWrite c rc left = some h) : p.Turn c h := by
  unfold onCanWrite at hrun
  split at hrun
  · obtain ⟨p', hp', rfl⟩ := Option.map_eq_some_iff.mp hrun
    have hflushed := turn_modifyClient (p.clearPending c) p' c _ hown hp'
    refine turn_call p p' c _ (turn_before p _ c _ ?_ hflushed) rfl
    exact turn_of_eq p _ c rfl rfl rfl rfl
  · obtain rfl := Option.some.inj hrun
    exact turn_call p _ c _ (turn_leave p c left) rfl

theorem turn_ping (p : Pump) (c : UInt64) (rc : RsslRet) (left : Option Down) (h : Handled)
    (hown : p.OwnClient c) (hrun : p.ping c rc left = some h) : p.Turn c h := by
  have hmarked : p.Turn c ⟨(p.markException c).leave c left, []⟩ :=
    turn_before p (p.markException c) c _ (turn_of_eq p _ c rfl rfl rfl rfl) (turn_leave _ c left)
  unfold ping at hrun
  split at hrun
  · obtain ⟨p', hp', rfl⟩ := Option.map_eq_some_iff.mp hrun
    exact turn_call p p' c _ (turn_modifyClient p p' c _ hown hp') rfl
  · obtain rfl := Option.some.inj hrun
    exact turn_call p _ c _ hmarked rfl
  · obtain rfl := Option.some.inj hrun
    exact turn_call p _ c _ hmarked rfl
  · obtain rfl := Option.some.inj hrun
    exact turn_call p _ c _ hmarked rfl
  · obtain rfl := Option.some.inj hrun
    exact turn_call p _ c _ (turn_leave p c left) rfl

theorem turn_keepalive (p : Pump) (c : UInt64) (rc : RsslRet) (left : Option Down) (h : Handled)
    (hown : p.OwnClient c) (hrun : p.keepalive c rc left = some h) : p.Turn c h := by
  unfold keepalive at hrun
  split at hrun
  · obtain ⟨client, -, hclient⟩ := Option.bind_eq_some_iff.mp hrun
    obtain ⟨h₁, hping, rfl⟩ := Option.map_eq_some_iff.mp hclient
    have hturn : p.Turn c h₁ := by
      split at hping
      · exact turn_ping p c rc left h₁ hown hping
      · obtain rfl := Option.some.inj hping
        exact turn_refl p c
    split
    · exact turn_after p _ c h₁ hturn (turn_abort _ c)
    · exact hturn
  · obtain rfl := Option.some.inj hrun
    exact turn_refl p c

theorem turn_remove (p : Pump) (i : Nat) (c : UInt64) : p.Turn c ⟨p.remove i c, []⟩ where
  clients _ hk := Function.update_of_ne hk _ _
  links _ _ := rfl
  channels _ _ := rfl
  lastActivity := rfl
  calls _ hmem := absurd hmem List.not_mem_nil

theorem turn_disconnect (p : Pump) (i : Nat) (c : UInt64) (left : Down) :
    p.Turn c (p.disconnect i c left) := by
  unfold disconnect
  split
  · exact turn_remove p i c
  · exact turn_call p _ c _
      (turn_before p _ c _ (turn_remove p i c) (turn_leave _ c (some left))) rfl

/-- **A step of the loop is the turn of the connection at the iterator.** -/
theorem turn_exec (p : Pump) (op : Op) (h : Handled) (i : Nat) (c : UInt64)
    (hop : op.turn = some i) (hc : p.connections[i]? = some c) (hown : p.OwnClient c)
    (hrun : p.exec op = some h) : p.Turn c h := by
  have hat : ∀ handler, p.at? i handler = some h → handler c = some h := by
    intro handler hhandler
    obtain ⟨d, hd, hh⟩ := Option.bind_eq_some_iff.mp hhandler
    obtain rfl := Option.some.inj (hc.symm.trans hd)
    exact hh
  cases op with
  | read j answer =>
      obtain rfl := Option.some.inj hop
      have hread := hat _ hrun
      split at hread
      · have hcleared : p.Turn c ⟨p.clearRead (p.socketId c), []⟩ :=
          turn_of_eq p _ c rfl rfl rfl rfl
        exact turn_before p _ c h hcleared (turn_onCanRead _ c answer h hown hread)
      · obtain rfl := Option.some.inj hread
        exact turn_refl p c
  | write j rc left =>
      obtain rfl := Option.some.inj hop
      have hwrite := hat _ hrun
      split at hwrite
      · have hcleared : p.Turn c ⟨{ p with outWfds := p.outWfds.erase (p.socketId c) }, []⟩ :=
          turn_of_eq p _ c rfl rfl rfl rfl
        exact turn_before p _ c h hcleared (turn_onCanWrite _ c rc left h hown hwrite)
      · obtain rfl := Option.some.inj hwrite
        exact turn_refl p c
  | keepalive j rc left =>
      obtain rfl := Option.some.inj hop
      exact turn_keepalive p c rc left h hown (hat _ hrun)
  | disconnect j left =>
      obtain rfl := Option.some.inj hop
      obtain rfl := Option.some.inj (hat _ hrun)
      split
      · exact turn_disconnect p j c left
      · exact turn_refl p c
  | start | doWork | reply | connection | returns | select | throw | close | directoryUpdate
  | drain | notify | teardown => exact absurd hop (by simp [Op.turn])

end Pump

end Hitsuji
