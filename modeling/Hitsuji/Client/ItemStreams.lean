import Hitsuji.Client.Login
import Hitsuji.Client.Sent

set_option autoImplicit false

/-! # Item streams as the peer sees them

For the peer an item stream is open from its request until it closes the stream itself, or until it
is sent a status that closes the stream or the response, the last message of its stream. `tokens_`
is meant to hold just the streams that are open. The condition under which a call keeps the two in
step is spelled out as `Call.ItemOk`. -/

namespace Hitsuji

open ByteBuffer Transition

/-! ## Messages that arrive -/

section Arrivals

variable {β : Type} (effect : β → Outgoing → β)

/-- A message has its effect once RSSL has accepted it. -/
def Event.arrives (state : β) : Event → β
  | .writeEx out _ rc => if rc.accepted then effect state out else state
  | _ => state

theorem arrives_writeCalls (out : Outgoing) (direct : Bool) (last : RsslRet) (n : Nat) (state : β) :
    (writeCalls out direct last n).foldl (Event.arrives effect) state
      = if last.accepted then effect state out else state := by
  induction n with
  | zero => rfl
  | succ n ih => exact ih

theorem arrives_submitOrRelease (env : Env) (s : Session) (out : Outgoing) (state : β) :
    (s.submitOrRelease env out).events.foldl (Event.arrives effect) state
      = if env.writes.last.accepted then effect state out else state := by
  have hrelease : ∀ after : β, (if submitStatus env.writes.last ≠ 0 then []
      else [Event.releaseBuffer]).foldl (Event.arrives effect) after = after := by
    intro after
    split <;> rfl
  rw [submitOrRelease_eq]
  simp only [List.cons_append, List.foldl_cons, List.foldl_append, Event.arrives,
    arrives_writeCalls, hrelease]

theorem arrives_sendEncoded (env : Env) (s : Session) (response : RsslMsg)
    (steps : List EncodeStep) (d : Done) (state : β)
    (h : s.sendEncoded env response steps = some d) :
    d.events.foldl (Event.arrives effect) state
      = if env.delivers steps then effect state (.encoded response (callsOf steps))
        else state := by
  rcases sendEncoded_cases env s response steps d h with
    ⟨hbuf, rfl⟩ | ⟨hbuf, henc, rfl⟩ | ⟨hbuf, henc, rfl⟩ | ⟨calls, hbuf, henc, rfl⟩
  · simp [Env.delivers, Env.fills, hbuf, Event.arrives]
  · simp [Env.delivers, Env.fills, henc, Encoded.isComplete, Event.arrives]
  · simp [Env.delivers, Env.fills, henc, Encoded.isComplete, Event.arrives]
  · obtain rfl := runSteps_complete env.codec [] calls steps henc
    rw [arrives_submitOrRelease]
    simp only [Env.delivers, Env.fills, hbuf, henc, Encoded.isComplete, Bool.and_self,
      Bool.true_and]
    rfl

end Arrivals

/-! ## Open item streams -/

/-- A status with a closed stream state ends the stream it is sent on. -/
def RsslMsg.itemEffect (r : RsslMsg) (opened : Finset Int32) : Finset Int32 :=
  if r.domainType = .marketPrice then
    match r.state.streamState with
    | .closed | .closedRecover => opened.erase r.streamId
    | _ => opened
  else opened

/-- So does the response of a worker: a refresh that is not streaming, or a status. -/
def Outgoing.itemEffect (opened : Finset Int32) : Outgoing → Finset Int32
  | .encoded response _ => response.itemEffect opened
  | .reply token _ => opened.erase token

/-- The peer opens a stream by its request, also by one that it repeats, and closes it. -/
def Input.itemEffect (opened : Finset Int32) : Input → Finset Int32
  | .msg m =>
      match m.msgClass, m.domainType with
      | .request, .marketPrice => insert m.streamId opened
      | .close, .marketPrice => opened.erase m.streamId
      | _, _ => opened
  | _ => opened

/-- The open item streams after a call. -/
def Call.openItems (c : Client) (e : Call) (opened : Finset Int32) : Finset Int32 :=
  match e.run c with
  | some d => d.events.foldl (Event.arrives Outgoing.itemEffect) (e.input.itemEffect opened)
  | none => opened

/-- A client together with the item streams its peer has open. -/
abbrev ItemView := Client × Finset Int32

/-- The watchlist holds the streams that are open. -/
def Watched (s : ItemView) : Prop :=
  s.1.tokens = s.2

instance (s : ItemView) : Decidable (Watched s) :=
  inferInstanceAs (Decidable (_ = _))

/-- One call, as client and peer see it. -/
def itemStep (s : ItemView) (e : Call) : Option ItemView :=
  (Call.next s.1 e).map fun c' => (c', Call.openItems s.1 e s.2)

/-- A session over its lifetime; no stream is open at first. -/
def itemSystem : System ItemView Call :=
  .ofFn (fun s => clientSystem.init s.1 ∧ s.2 = ∅) itemStep

/-- The encoding steps of the close sent before login. -/
def Call.loginRequiredSteps (e : Call) (m : InMsg) : List EncodeStep :=
  writeRawClose e.env.dcheckIsOn e.channel.rwfVersion
    (usageError m m.flags.msgKeyInUpdates kErrorLoginRequired) maxMsgSize

/-- What a call keeps the watchlist in step under.

    - A request before login is refused on a stream that is not on the watchlist, or cannot be
      refused on a stream that is.
    - A close before login is not for a stream on the watchlist.
    - The close for an unsupported message class is not delivered on a stream of the watchlist.
    - The response on a stream of the watchlist is delivered.
    - `Close` finds the watchlist of a session that is logged in empty. -/
def Call.ItemOk (c : Client) (e : Call) : Prop :=
  match e.input with
  | .msg m =>
      m.domainType = .marketPrice →
        match m.msgClass with
        | .request => c.isLoggedIn = false →
            (e.env.delivers (e.loginRequiredSteps m) = true ↔ m.streamId ∉ c.tokens)
        | .close => c.isLoggedIn = false → m.streamId ∉ c.tokens
        | _ => e.env.delivers (e.unsupportedSteps m) = true → m.streamId ∉ c.tokens
  | .reply token _ => token ∈ c.tokens →
      e.env.getBuffer = true ∧ e.env.writes.last.accepted = true
  | .close => c.isLoggedIn = true → c.tokens = ∅
  | .sourceDirectoryUpdate => True

/-! ## What the peer sees of a call -/

/-- Messages of other domains leave the item streams alone. -/
theorem sendEncoded_notItem (env : Env) (s : Session) (response : RsslMsg)
    (steps : List EncodeStep) (d : Done) (opened : Finset Int32)
    (hdom : response.domainType ≠ .marketPrice) (h : s.sendEncoded env response steps = some d) :
    d.events.foldl (Event.arrives Outgoing.itemEffect) opened = opened := by
  rw [arrives_sendEncoded _ env s response steps d opened h, Outgoing.itemEffect,
    RsslMsg.itemEffect, if_neg hdom, ite_self]

/-- The close of an item stream. -/
theorem sendClose_item (env : Env) (s : Session) (m : InMsg) (useAttribInfoInUpdates : Bool)
    (text : Bytes) (d : Done) (opened : Finset Int32) (hdom : m.domainType = .marketPrice)
    (h : s.sendClose env (usageError m useAttribInfoInUpdates text) = some d) :
    d.events.foldl (Event.arrives Outgoing.itemEffect) opened
      = if env.delivers (writeRawClose env.dcheckIsOn s.channel.rwfVersion
          (usageError m useAttribInfoInUpdates text) maxMsgSize) then opened.erase m.streamId
        else opened := by
  rw [arrives_sendEncoded _ env s _ _ d opened h, Outgoing.itemEffect, RsslMsg.itemEffect]
  simp only [CloseArgs.response, usageError, hdom, if_true]

theorem onMsg_notItem (env : Env) (s : Session) (m : InMsg) (d : Done) (opened : Finset Int32)
    (hdom : m.domainType ≠ .marketPrice) (h : s.onMsg env m = some d) :
    d.events.foldl (Event.arrives Outgoing.itemEffect) opened = opened := by
  rcases onMsg_cases env s m d h with ⟨-, -, hlogin⟩ | ⟨-, -, hdirectory⟩ | ⟨-, hitem, -⟩
    | ⟨-, -, -, text, hclose⟩ | ⟨-, rfl⟩ | ⟨-, -, hclose⟩
  · rcases onLoginRequest_cases env s m d hlogin with ⟨-, d', hd', rfl⟩ | ⟨-, hreject⟩
    · have hnone := sendEncoded_notItem _ _ _ _ d' opened DomainType.noConfusion hd'
      cases d'.ret <;> exact hnone
    · exact sendEncoded_notItem _ _ _ _ d opened DomainType.noConfusion hreject
  · obtain ⟨serviceName, hsend⟩ := onDirectoryRequest_cases env s m d hdirectory
    exact sendEncoded_notItem _ _ _ _ d opened DomainType.noConfusion hsend
  · exact absurd hitem hdom
  · exact sendEncoded_notItem _ _ _ _ d opened hdom hclose
  · unfold Session.onCloseMsg Session.onItemClose
    repeat' split
    all_goals rfl
  · exact sendEncoded_notItem _ _ _ _ d opened hdom hclose

/-- The response on a stream, if it is due and delivered, ends the stream. -/
theorem sendReply_item (env : Env) (s : Session) (token : Int32) (data : Bytes) (d : Done)
    (opened : Finset Int32) (h : s.sendReply env token data = some d) :
    d.events.foldl (Event.arrives Outgoing.itemEffect) opened
      = if token ∈ s.client.tokens ∧ env.getBuffer = true ∧ env.writes.last.accepted = true
        then opened.erase token else opened := by
  rcases sendReply_cases env s token data d h with ⟨hnot, rfl⟩ | ⟨hin, hbuf, rfl⟩
    | ⟨-, hbuf, rfl⟩
  · rw [if_neg fun hall => hnot hall.1]
    rfl
  · rw [arrives_submitOrRelease]
    simp only [hin, hbuf, true_and]
    rfl
  · rw [if_neg fun hall => absurd hall.2.1 (by simp [hbuf])]
    rfl

/-! ## One call -/

/-- The state after a step, taken apart. -/
theorem itemStep_eq_some (s s' : ItemView) (e : Call) :
    itemStep s e = some s' ↔ ∃ d, e.run s.1 = some d ∧ s'.1 = d.session.client
      ∧ s'.2 = d.events.foldl (Event.arrives Outgoing.itemEffect) (e.input.itemEffect s.2) := by
  obtain ⟨c', o'⟩ := s'
  unfold itemStep
  constructor
  · intro h
    obtain ⟨c₁, hc₁, hpair⟩ := Option.map_eq_some_iff.mp h
    obtain ⟨d, hd, rfl⟩ := (next_eq_some s.1 c₁ e).mp hc₁
    obtain ⟨rfl, rfl⟩ := Prod.mk.inj hpair
    refine ⟨d, hd, rfl, ?_⟩
    simp only [Call.openItems, hd]
  · rintro ⟨d, hd, hclient, hopen⟩
    simp only at hclient hopen
    simp only [Call.next, Call.openItems, hd, Option.map_some, ← hclient, ← hopen]

/-- A message on the item domain. -/
theorem watched_itemMsg (s s' : ItemView) (e : Call) (m : InMsg) (d : Done) (hs : Watched s)
    (hin : e.input = .msg m) (hdom : m.domainType = .marketPrice)
    (hd : (e.session s.1).onMsg e.env m = some d) (hclient : s'.1 = d.session.client)
    (hopen : s'.2 = d.events.foldl (Event.arrives Outgoing.itemEffect)
      (e.input.itemEffect s.2)) : Watched s' ↔ Call.ItemOk s.1 e := by
  have htokens : s'.1.tokens = (s.1.streams.apply (e.msgAction s.1 m)).tokens := by
    rw [hclient]
    exact congrArg Streams.tokens (onMsg_streams e s.1 m d hd)
  unfold Watched at hs ⊢
  simp only [Call.ItemOk, hin, hdom, true_implies]
  simp only [hin, Input.itemEffect, hdom, ← hs] at hopen
  unfold Session.onMsg at hd
  cases hclass : m.msgClass with
  | request =>
      simp only [hclass, Session.onRequestMsg, hdom] at hd
      simp only [hclass] at hopen ⊢
      simp only [Call.msgAction, hclass, hdom] at htokens
      rcases onItemRequest_cases e.env _ m d hd with ⟨hout, hclose⟩ | ⟨hlog, hmem, rfl⟩
        | ⟨hlog, hnew, viewByFid, rfl⟩
      · -- refused: the request opened the stream, and the refusal closes it
        have hout' : s.1.isLoggedIn = false := hout
        rw [sendClose_item e.env _ m _ _ d _ hdom hclose] at hopen
        change s'.2 = if e.env.delivers (e.loginRequiredSteps m) then _ else _ at hopen
        rw [hopen, htokens]
        simp only [hout', true_implies, Bool.false_eq_true, false_and, if_false, Streams.apply]
        change s.1.tokens = _ ↔ _
        cases e.env.delivers (e.loginRequiredSteps m) with
        | true =>
            simp only [if_true, true_iff, Finset.erase_insert_eq_erase]
            exact eq_comm.trans Finset.erase_eq_self
        | false =>
            simp only [Bool.false_eq_true, if_false, false_iff, not_not]
            exact eq_comm.trans Finset.insert_eq_self
      · have hlog' : s.1.isLoggedIn = true := hlog
        have hmem' : m.streamId ∈ s.1.tokens := hmem
        rw [hopen, htokens]
        simp only [hlog', hmem', not_true_eq_false, and_false, if_false, Streams.apply,
          Bool.true_eq_false, false_implies, iff_true]
        exact (Finset.insert_eq_self.mpr hmem').symm
      · have hlog' : s.1.isLoggedIn = true := hlog
        have hnew' : m.streamId ∉ s.1.tokens := hnew
        rw [hopen, htokens]
        simp only [hlog', hnew', not_false_eq_true, and_self, if_true, Streams.apply,
          Bool.true_eq_false, false_implies, iff_true]
        rfl
  | close =>
      simp only [hclass] at hd
      obtain rfl := Option.some.inj hd
      have hsilent : ((e.session s.1).onCloseMsg m).events = [] := by
        unfold Session.onCloseMsg Session.onItemClose
        repeat' split
        all_goals rfl
      simp only [hclass, hsilent, List.foldl_nil] at hopen ⊢
      simp only [Call.msgAction, hclass, hdom] at htokens
      rw [hopen, htokens]
      cases s.1.isLoggedIn with
      | true => simp [Streams.apply, Client.streams]
      | false =>
          simp only [Bool.false_eq_true, if_false, Streams.apply, true_implies]
          exact eq_comm.trans Finset.erase_eq_self
  | refresh | status | update | ack | generic | post | other _ =>
      simp only [hclass] at hd
      simp only [hclass] at hopen ⊢
      simp only [Call.msgAction, hclass, Streams.apply] at htokens
      rw [sendClose_item e.env _ m _ _ d _ hdom hd] at hopen
      change s'.2 = if e.env.delivers (e.unsupportedSteps m) then _ else _ at hopen
      rw [hopen, htokens]
      change s.1.tokens = _ ↔ _
      cases e.env.delivers (e.unsupportedSteps m) with
      | true =>
          simp only [if_true, true_implies]
          exact eq_comm.trans Finset.erase_eq_self
      | false => simp

/-- Other messages leave the watchlist alone. -/
theorem tokens_notItem (e : Call) (c : Client) (m : InMsg) (hdom : m.domainType ≠ .marketPrice) :
    (c.streams.apply (e.msgAction c m)).tokens = c.tokens := by
  unfold Call.msgAction
  split
  · split <;> rfl
  · next hitem => exact absurd hitem hdom
  · split <;> rfl
  · next hitem => exact absurd hitem hdom
  · rfl

/-- From a state in which they are in step, one call keeps them so exactly under `ItemOk`. -/
theorem watched_step (s : ItemView) (e : Call) (s' : ItemView) (hs : Watched s)
    (h : itemStep s e = some s') : Watched s' ↔ Call.ItemOk s.1 e := by
  obtain ⟨d, hd, hclient, hopen⟩ := (itemStep_eq_some s s' e).mp h
  have htokens : s'.1.tokens = (s.1.streams.apply (e.action s.1)).tokens := by
    rw [hclient]
    exact congrArg Streams.tokens (run_streams e s.1 d hd)
  unfold Call.run at hd
  cases hin : e.input with
  | msg m =>
      simp only [hin] at hd
      by_cases hdom : m.domainType = .marketPrice
      · exact watched_itemMsg s s' e m d hs hin hdom hd hclient hopen
      · have hinput : (Input.msg m).itemEffect s.2 = s.2 := by
          unfold Input.itemEffect
          split <;> simp_all
        rw [hin, hinput, onMsg_notItem _ _ m d s.2 hdom hd] at hopen
        simp only [Call.action, hin, tokens_notItem e s.1 m hdom] at htokens
        simp only [Call.ItemOk, hin, hdom, false_implies, iff_true]
        exact htokens.trans (hs.trans hopen.symm)
  | reply token data =>
      unfold Watched at hs ⊢
      simp only [hin, Input.itemEffect] at hd hopen
      rw [sendReply_item _ _ token data d s.2 hd, ← hs] at hopen
      simp only [Call.action, hin, Streams.apply] at htokens
      change s'.1.tokens = s.1.tokens.erase token at htokens
      change s'.2 = if token ∈ s.1.tokens ∧ _ then _ else _ at hopen
      simp only [Call.ItemOk, hin]
      rw [htokens, hopen]
      by_cases hmem : token ∈ s.1.tokens
      · simp only [hmem, true_and, true_implies]
        split
        · next hsent => simp [hsent]
        · next hlost =>
            refine iff_of_false (fun heq => ?_) hlost
            exact Finset.erase_eq_self.mp heq hmem
      · simp [hmem]
  | close =>
      unfold Watched at hs ⊢
      simp only [hin, Input.itemEffect] at hd hopen
      simp only [Call.action, hin] at htokens
      simp only [Call.ItemOk, hin]
      unfold Session.close at hd
      split at hd
      · next hlog =>
          have hlog' : s.1.isLoggedIn = true := hlog
          rw [sendEncoded_notItem _ _ _ _ d s.2 DomainType.noConfusion hd, ← hs] at hopen
          rw [hopen, htokens, hlog']
          simp only [if_true, Streams.apply, true_implies]
          exact eq_comm
      · next hout =>
          have hout' : s.1.isLoggedIn = false := Bool.eq_false_iff.mpr hout
          obtain rfl := Option.some.inj hd
          rw [hopen, htokens, hout']
          simp only [Bool.false_eq_true, if_false, Streams.apply, false_implies, iff_true]
          exact hs
  | sourceDirectoryUpdate =>
      simp only [hin, Input.itemEffect] at hd hopen
      rw [sendEncoded_notItem _ _ _ _ d s.2 DomainType.noConfusion hd] at hopen
      simp only [Call.action, hin, Streams.apply] at htokens
      simp only [Call.ItemOk, hin, iff_true]
      exact htokens.trans (hs.trans hopen.symm)

/-- **The watchlist holds just the item streams that the peer has open, throughout a run, exactly
    when every call of the run meets `ItemOk`.** -/
theorem watched_iff (s₀ : ItemView) (p : Steps ItemView Call) (hrun : itemSystem.Run s₀ p) :
    Along (fun _ _ s' => Watched s') s₀ p ↔ Along (fun s e _ => Call.ItemOk s.1 e) s₀ p := by
  obtain ⟨⟨⟨handle, directoryToken, channel, now, hclient⟩, hopen⟩, hsteps⟩ := hrun
  have hinit : Watched s₀ := by
    rw [Watched, hopen, hclient]
    rfl
  exact along_iff _ (fun _ => True) Watched (fun s e => Call.ItemOk s.1 e)
    (fun _ _ _ _ _ => trivial) (fun s e s' _ hs h => watched_step s e s' hs h) s₀ p trivial
    hinit hsteps

/-- An item that is asked for and answered. -/
def answeredItem : List Call :=
  [willingCall (.msg (loginByName 1)), willingCall (.msg (.plain .request .marketPrice 5)),
    willingCall (.reply 5 [])]

theorem answeredItem_watched :
    ∃ p, replay itemStep (clearSession.client, ∅) answeredItem = some p
      ∧ Along (fun _ _ s' => Watched s') (clearSession.client, ∅) p := by
  refine ⟨_, rfl, ?_⟩
  refine (watched_iff (clearSession.client, ∅) _ (run_replay _ itemStep
    (clearSession.client, ∅) answeredItem _ ⟨clearSession_init, rfl⟩ rfl)).mpr ⟨?_, ?_, ?_, trivial⟩
  · exact fun hdom => absurd hdom (by decide)
  · exact fun _ hout => absurd hout (by decide)
  · exact fun _ => ⟨rfl, rfl⟩

/-- A post on a stream that is to be answered: the peer is told that the stream is closed, and is
    sent the response all the same. -/
def postedItem : List Call :=
  [willingCall (.msg (loginByName 1)), willingCall (.msg (.plain .request .marketPrice 5)),
    willingCall (.msg (.plain .post .marketPrice 5))]

theorem postedItem_unwatched :
    ∃ p, itemSystem.Run (clearSession.client, ∅) p
      ∧ replay itemStep (clearSession.client, ∅) postedItem = some p
      ∧ (last (clearSession.client, ∅) p).1.tokens = {5}
      ∧ (last (clearSession.client, ∅) p).2 = ∅ :=
  ⟨_, run_replay _ itemStep (clearSession.client, ∅) postedItem _ ⟨clearSession_init, rfl⟩ rfl, rfl,
    by decide, by decide⟩

end Hitsuji
