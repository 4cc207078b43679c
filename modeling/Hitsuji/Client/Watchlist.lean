import Hitsuji.Client.Streams
import Hitsuji.Client.Writes

set_option autoImplicit false

/-! # The watchlist

`tokens_` holds the item requests of a session that are still to be answered. Two questions about
whole runs are settled here: that every accepted request is dispatched once and answered at most
once, and when the watchlist of a logged out session is empty. -/

namespace Hitsuji

open ByteBuffer Transition

/-! ## Requests and responses of a call -/

/-- The item requests handed to the delegate. -/
def requests (events : List Event) : List ItemRequest :=
  events.filterMap fun
    | .onRequest request => some request
    | _ => none

/-- The buffer holds a response on `token`. -/
def Outgoing.isReplyOn (token : Int32) : Outgoing → Bool
  | .reply t _ => t = token
  | .encoded _ _ => false

/-- A response on `token` is written. -/
def Event.writesReply (token : Int32) : Event → Bool
  | .writeEx out _ _ => out.isReplyOn token
  | _ => false

/-- The last write of a response on `token`. -/
def Event.submitsReply (token : Int32) (ev : Event) : Bool :=
  ev.endsWrite && ev.writesReply token

/-- The token of the item request a call accepts: the session is logged in and the token is not on
    the watchlist. -/
def Call.accepted (c : Client) (e : Call) : Option Int32 :=
  match e.input with
  | .msg m =>
      if m.msgClass = .request ∧ m.domainType = .marketPrice ∧ c.isLoggedIn = true
          ∧ m.streamId ∉ c.tokens then some m.streamId
      else none
  | _ => none

/-- Only messages are accepted requests. -/
theorem isMsg_of_accepted (c : Client) (e : Call) (token : Int32)
    (h : Call.accepted c e = some token) : e.input.isMsg = true := by
  unfold Call.accepted at h
  split at h
  · next hin =>
      rw [hin]
      rfl
  · exact absurd h (by simp)

/-- The channel and token of that request. -/
def Call.acceptedKey (c : Client) (e : Call) : Option (UInt64 × Int32) :=
  (Call.accepted c e).map (Prod.mk c.handle)

/-- The call accepts an item request on `token`. -/
def accepts (token : Int32) (c : Client) (e : Call) : Bool :=
  Call.accepted c e = some token

/-- The call submits a response on `token`. -/
def submits (token : Int32) (c : Client) (e : Call) : Bool :=
  (e.run c).any fun d => d.events.any (Event.writesReply token)

/-- How many responses the call submits on `token`; the writes of one `Submit` count once. -/
def responses (token : Int32) (c : Client) (e : Call) : Nat :=
  (e.run c).elim 0 fun d => d.events.countP (Event.submitsReply token)

/-- The call is an item close of `token`, processed while logged in. -/
def Call.ClosesItem (token : Int32) (c : Client) (e : Call) : Prop :=
  ∃ m, e.input = .msg m ∧ m.msgClass = .close ∧ m.domainType = .marketPrice
    ∧ m.streamId = token ∧ c.isLoggedIn = true

/-! ## Events of one call -/

/-- No request is dispatched and no response written. -/
def Quiet (events : List Event) : Prop :=
  requests events = [] ∧ ∀ token, events.any (Event.writesReply token) = false

theorem writeCalls_events (out : Outgoing) (direct : Bool) (last : RsslRet) (n : Nat) :
    requests (writeCalls out direct last n) = []
      ∧ ∀ token, (writeCalls out direct last n).any (Event.writesReply token)
        = out.isReplyOn token := by
  induction n with
  | zero => exact ⟨rfl, fun token => by simp [writeCalls, Event.writesReply]⟩
  | succ n ih =>
      obtain ⟨hreq, hrep⟩ := ih
      refine ⟨?_, fun token => ?_⟩
      · simpa [writeCalls, requests] using hreq
      · simp [writeCalls, hrep, Event.writesReply]

/-- Submitting a buffer writes what it holds, and nothing else. -/
theorem submitOrRelease_events (env : Env) (s : Session) (out : Outgoing) :
    requests (s.submitOrRelease env out).events = []
      ∧ ∀ token, (s.submitOrRelease env out).events.any (Event.writesReply token)
        = out.isReplyOn token := by
  obtain ⟨hreq, hrep⟩ := writeCalls_events out (decide (s.channel.socketId ∉ s.provider.inWfds))
    env.writes.last env.writes.again
  rw [submitOrRelease_eq]
  refine ⟨?_, fun token => ?_⟩
  · simp only [requests, List.cons_append, List.filterMap_cons, List.filterMap_append] at hreq ⊢
    rw [hreq]
    split <;> rfl
  · simp only [List.cons_append, List.any_cons, List.any_append, hrep token]
    split <;> simp [Event.writesReply]

theorem sendEncoded_quiet (env : Env) (s : Session) (response : RsslMsg) (steps : List EncodeStep)
    (d : Done) (h : s.sendEncoded env response steps = some d) : Quiet d.events := by
  rcases sendEncoded_cases env s response steps d h with
    ⟨-, rfl⟩ | ⟨-, -, rfl⟩ | ⟨-, -, rfl⟩ | ⟨calls, -, -, rfl⟩
  · exact ⟨rfl, fun _ => rfl⟩
  · exact ⟨rfl, fun _ => rfl⟩
  · exact ⟨rfl, fun _ => rfl⟩
  · exact submitOrRelease_events env s (.encoded response calls)

theorem onLoginRequest_quiet (env : Env) (s : Session) (m : InMsg) (d : Done)
    (h : s.onLoginRequest env m = some d) : Quiet d.events := by
  rcases onLoginRequest_cases env s m d h with ⟨-, d', hd', rfl⟩ | ⟨-, hreject⟩
  · have hquiet := sendEncoded_quiet _ _ _ _ d' hd'
    cases d'.ret <;> exact hquiet
  · exact sendEncoded_quiet _ _ _ _ d hreject

theorem onDirectoryRequest_quiet (env : Env) (s : Session) (m : InMsg) (d : Done)
    (h : s.onDirectoryRequest env m = some d) : Quiet d.events := by
  obtain ⟨serviceName, hsend⟩ := onDirectoryRequest_cases env s m d h
  exact sendEncoded_quiet _ _ _ _ d hsend

/-- An item request is dispatched exactly when it is accepted, whatever the view decodes to. -/
theorem onItemRequest_events (env : Env) (s : Session) (m : InMsg) (d : Done)
    (h : s.onItemRequest env m = some d) :
    if s.client.isLoggedIn = true ∧ m.streamId ∉ s.client.tokens then
      ∃ viewByFid, d.events = [.onRequest (itemRequest s m viewByFid)]
    else Quiet d.events := by
  rcases onItemRequest_cases env s m d h with
    ⟨hout, hsend⟩ | ⟨-, hmem, rfl⟩ | ⟨hin, hnew, viewByFid, rfl⟩
  · rw [if_neg (by simp [hout])]
    exact sendEncoded_quiet _ _ _ _ d hsend
  · rw [if_neg (by simp [hmem])]
    exact ⟨rfl, fun _ => rfl⟩
  · rw [if_pos ⟨hin, hnew⟩]
    exact ⟨viewByFid, rfl⟩

theorem onCloseMsg_quiet (s : Session) (m : InMsg) : Quiet (s.onCloseMsg m).events := by
  unfold Session.onCloseMsg Session.onItemClose
  repeat' split
  all_goals exact ⟨rfl, fun _ => rfl⟩

/-- A message dispatches the request it is accepted for, and writes no response. -/
theorem onMsg_events (e : Call) (c : Client) (m : InMsg) (d : Done) (hin : e.input = .msg m)
    (h : (e.session c).onMsg e.env m = some d) :
    (requests d.events).map ItemRequest.key = (Call.acceptedKey c e).toList
      ∧ ∀ token, d.events.any (Event.writesReply token) = false := by
  have hquiet : Call.accepted c e = none → Quiet d.events →
      (requests d.events).map ItemRequest.key = (Call.acceptedKey c e).toList
        ∧ ∀ token, d.events.any (Event.writesReply token) = false := by
    rintro hnone ⟨hreq, hrep⟩
    rw [Call.acceptedKey, hnone, hreq]
    exact ⟨rfl, hrep⟩
  have hnone : ¬ (m.msgClass = .request ∧ m.domainType = .marketPrice) →
      Call.accepted c e = none := by
    intro hm
    simp only [Call.accepted, hin]
    exact if_neg fun hall => hm ⟨hall.1, hall.2.1⟩
  rcases onMsg_cases e.env _ m d h with ⟨-, hdom, hd⟩ | ⟨-, hdom, hd⟩ | ⟨hclass, hdom, hd⟩
    | ⟨-, -, hdom, text, hd⟩ | ⟨hclass, rfl⟩ | ⟨hclass, -, hd⟩
  · exact hquiet (hnone (by simp [hdom])) (onLoginRequest_quiet _ _ _ d hd)
  · exact hquiet (hnone (by simp [hdom])) (onDirectoryRequest_quiet _ _ _ d hd)
  · have hevents := onItemRequest_events e.env (e.session c) m d hd
    split at hevents
    · next hacc =>
        obtain ⟨viewByFid, hd⟩ := hevents
        have haccepted : Call.accepted c e = some m.streamId := by
          simp only [Call.accepted, hin]
          exact if_pos ⟨hclass, hdom, hacc⟩
        rw [Call.acceptedKey, haccepted, hd]
        exact ⟨rfl, fun _ => rfl⟩
    · next hrej =>
        refine hquiet ?_ hevents
        simp only [Call.accepted, hin]
        exact if_neg fun hall => hrej hall.2.2
  · exact hquiet (hnone fun hm => hdom hm.2) (sendEncoded_quiet _ _ _ _ d hd)
  · exact hquiet (hnone (by simp [hclass])) (onCloseMsg_quiet _ _)
  · exact hquiet (hnone fun hm => hclass hm.1) (sendEncoded_quiet _ _ _ _ d hd)

/-- A reply is written exactly if its token is on the watchlist and a buffer is obtained. -/
theorem sendReply_events (env : Env) (s : Session) (token : Int32) (data : Bytes) (d : Done)
    (h : s.sendReply env token data = some d) :
    requests d.events = []
      ∧ ∀ t, d.events.any (Event.writesReply t) = true ↔
        t = token ∧ token ∈ s.client.tokens ∧ env.getBuffer = true := by
  rcases sendReply_cases env s token data d h with
    ⟨hnot, rfl⟩ | ⟨hin, hbuf, rfl⟩ | ⟨-, hbuf, rfl⟩
  · exact ⟨rfl, fun t => by simp [hnot]⟩
  · obtain ⟨hreq, hrep⟩ := submitOrRelease_events env (s.eraseToken token) (.reply token data)
    refine ⟨hreq, fun t => ?_⟩
    rw [hrep t, Outgoing.isReplyOn, decide_eq_true_iff]
    exact ⟨fun ht => ⟨ht.symm, hin, hbuf⟩, fun ht => ht.1.symm⟩
  · exact ⟨rfl, fun t => by simp [hbuf, Event.writesReply]⟩

/-- What a call other than a message or a reply does is quiet. -/
theorem quiet_of_provider_call (e : Call) (c : Client) (d : Done) (h : e.run c = some d)
    (hinput : e.input = .close ∨ e.input = .sourceDirectoryUpdate) : Quiet d.events := by
  unfold Call.run at h
  rcases hinput with hin | hin
  · simp only [hin] at h
    unfold Session.close at h
    split at h
    · exact sendEncoded_quiet _ _ _ _ d h
    · obtain rfl := Option.some.inj h
      exact ⟨rfl, fun _ => rfl⟩
  · simp only [hin] at h
    exact sendEncoded_quiet _ _ _ _ d h

/-- Every call dispatches exactly the request it accepts. -/
theorem run_requests (e : Call) (c : Client) (d : Done) (h : e.run c = some d) :
    (requests d.events).map ItemRequest.key = (Call.acceptedKey c e).toList := by
  cases hin : e.input with
  | msg m =>
      simp only [Call.run, hin] at h
      exact (onMsg_events e c m d hin h).1
  | reply token data =>
      simp only [Call.run, hin] at h
      rw [(sendReply_events _ _ _ _ d h).1]
      simp [Call.acceptedKey, Call.accepted, hin]
  | close =>
      rw [(quiet_of_provider_call e c d h (.inl hin)).1]
      simp [Call.acceptedKey, Call.accepted, hin]
  | sourceDirectoryUpdate =>
      rw [(quiet_of_provider_call e c d h (.inr hin)).1]
      simp [Call.acceptedKey, Call.accepted, hin]

/-- A response is only ever submitted for a reply whose token is on the watchlist. -/
theorem submits_mem (token : Int32) (c : Client) (e : Call) (h : submits token c e = true) :
    token ∈ c.tokens ∧ e.action c = .cancel token := by
  obtain ⟨d, hd, hany⟩ := (Option.any_eq_true _ _).mp h
  cases hin : e.input with
  | msg m =>
      simp only [Call.run, hin] at hd
      rw [(onMsg_events e c m d hin hd).2 token] at hany
      exact absurd hany (by simp)
  | reply t data =>
      simp only [Call.run, hin] at hd
      obtain ⟨rfl, hmem, -⟩ := ((sendReply_events _ _ _ _ d hd).2 token).mp hany
      exact ⟨hmem, by simp only [Call.action, hin]⟩
  | close =>
      rw [(quiet_of_provider_call e c d hd (.inl hin)).2 token] at hany
      exact absurd hany (by simp)
  | sourceDirectoryUpdate =>
      rw [(quiet_of_provider_call e c d hd (.inr hin)).2 token] at hany
      exact absurd hany (by simp)

/-- No call submits two responses. -/
theorem responses_le_submits (token : Int32) (c : Client) (e : Call) :
    responses token c e ≤ (submits token c e).toNat := by
  unfold responses submits
  cases hrun : e.run c with
  | none => exact Nat.le_refl 0
  | some d =>
      rw [Option.elim_some, Option.any_some]
      cases hany : d.events.any (Event.writesReply token) with
      | false =>
          refine (List.countP_eq_zero.mpr fun ev hev => ?_).le
          have hnot := List.any_eq_false.mp hany ev hev
          rw [Event.submitsReply, Bool.and_eq_true]
          exact fun h => hnot h.2
      | true =>
          -- every response submitted ends a write, and a call ends one at most
          have hends : d.events.countP (Event.submitsReply token)
              ≤ d.events.countP Event.endsWrite :=
            List.countP_mono_left fun ev _ h => (Bool.and_eq_true_iff.mp h).1
          exact hends.trans (writes_run e c d hrun).once

/-! ## Steps -/

theorem accepted_eq_some (c : Client) (e : Call) (token : Int32) :
    Call.accepted c e = some token ↔ e.action c = .request token := by
  unfold Call.accepted Call.action
  cases hin : e.input with
  | msg m =>
      rw [msgAction_eq_request]
      simp only
      split
      · next hacc =>
          rw [Option.some.injEq]
          exact ⟨fun h => ⟨hacc.1, hacc.2.1, hacc.2.2.1, hacc.2.2.2, h⟩, fun h => h.2.2.2.2⟩
      · next hrej =>
          refine ⟨fun h => absurd h (by simp), fun h => ?_⟩
          exact absurd ⟨h.1, h.2.1, h.2.2.1, h.2.2.2.1⟩ hrej
  | reply t data => simp
  | close => cases c.isLoggedIn <;> simp
  | sourceDirectoryUpdate => simp

theorem next_streams (c c' : Client) (e : Call) (h : Call.next c e = some c') :
    c'.streams = c.streams.apply (e.action c) := by
  obtain ⟨d, hd, rfl⟩ := (next_eq_some c c' e).mp h
  exact run_streams e c d hd

/-- A token enters the watchlist only with an accepted request. -/
theorem mem_tokens_next (c c' : Client) (e : Call) (token : Int32) (h : Call.next c e = some c')
    (hmem : token ∈ c'.tokens) : token ∈ c.tokens ∨ accepts token c e = true := by
  have hstreams := congrArg Streams.tokens (next_streams c c' e h)
  change c'.tokens = _ at hstreams
  rw [hstreams] at hmem
  cases hact : e.action c with
  | idle | logIn _ | logOut =>
      rw [hact] at hmem
      exact .inl hmem
  | drop =>
      rw [hact] at hmem
      exact absurd hmem (Finset.notMem_empty token)
  | cancel t =>
      rw [hact] at hmem
      exact .inl (Finset.mem_of_mem_erase hmem)
  | request t =>
      rw [hact] at hmem
      rcases Finset.mem_insert.mp hmem with rfl | hold
      · exact .inr (decide_eq_true ((accepted_eq_some c e token).mpr hact))
      · exact .inl hold

/-- An accepted request puts its token on the watchlist. -/
theorem tokens_of_accepted (c c' : Client) (e : Call) (token : Int32)
    (h : Call.next c e = some c') (hacc : Call.accepted c e = some token) :
    token ∉ c.tokens ∧ c'.tokens = insert token c.tokens := by
  have hact := (accepted_eq_some c e token).mp hacc
  have hstreams := congrArg Streams.tokens (next_streams c c' e h)
  have henabled := action_enabled e c
  rw [hact] at hstreams henabled
  exact ⟨henabled.2, hstreams⟩

/-- A response takes its token off the watchlist. -/
theorem notMem_tokens_of_submits (c c' : Client) (e : Call) (token : Int32)
    (h : Call.next c e = some c') (hsub : submits token c e = true) : token ∉ c'.tokens := by
  have hstreams := congrArg Streams.tokens (next_streams c c' e h)
  rw [(submits_mem token c e hsub).2] at hstreams
  change c'.tokens = c.tokens.erase token at hstreams
  rw [hstreams]
  exact Finset.notMem_erase token c.tokens

/-- So does an item close that is processed while logged in. -/
theorem notMem_tokens_of_closesItem (c c' : Client) (e : Call) (token : Int32)
    (h : Call.next c e = some c') (hclose : Call.ClosesItem token c e) : token ∉ c'.tokens := by
  obtain ⟨m, hin, hclass, hdom, rfl, hlogged⟩ := hclose
  have hact : e.action c = .cancel m.streamId := by
    simp only [Call.action, hin, Call.msgAction, hclass, hdom, hlogged, if_true]
  have hstreams := congrArg Streams.tokens (next_streams c c' e h)
  rw [hact] at hstreams
  change c'.tokens = c.tokens.erase m.streamId at hstreams
  rw [hstreams]
  exact Finset.notMem_erase m.streamId c.tokens

/-- One request pays for one response: the token on the watchlist is the credit in between. -/
theorem responses_le_accepts (token : Int32) (c : Client) (e : Call) (c' : Client)
    (h : Call.next c e = some c') :
    responses token c e + (if token ∈ c'.tokens then 1 else 0)
      ≤ (accepts token c e).toNat + if token ∈ c.tokens then 1 else 0 := by
  have hcount := responses_le_submits token c e
  cases hsub : submits token c e with
  | true =>
      -- the credit was there before, and is spent
      have hmem := (submits_mem token c e hsub).1
      have hnot := notMem_tokens_of_submits c c' e token h hsub
      rw [hsub, Bool.toNat_true] at hcount
      rw [if_pos hmem, if_neg hnot]
      omega
  | false =>
      rw [hsub, Bool.toNat_false] at hcount
      by_cases hmem : token ∈ c'.tokens
      · rw [if_pos hmem]
        rcases mem_tokens_next c c' e token h hmem with hold | hacc
        · rw [if_pos hold]
          omega
        · rw [hacc, Bool.toNat_true]
          omega
      · rw [if_neg hmem]
        omega

/-- Off the watchlist, a token stays off and unanswered until a request on it is accepted. -/
theorem unanswered_along (token : Int32) (c : Client) (p : Steps Client Call)
    (hp : Along (fun c e c' => Call.next c e = some c') c p) (hnot : token ∉ c.tokens)
    (hacc : Along (fun c e _ => accepts token c e = false) c p) :
    Along (fun c e _ => submits token c e = false) c p := by
  induction p generalizing c with
  | nil => trivial
  | cons t rest ih =>
      have hsub : submits token c t.1 = false := by
        by_contra hsub
        exact hnot (submits_mem token c t.1 (by simpa using hsub)).1
      have hnext : token ∉ t.2.tokens := by
        intro hmem
        rcases mem_tokens_next c t.2 t.1 token hp.1 hmem with hold | hnew
        · exact hnot hold
        · rw [hacc.1] at hnew
          exact absurd hnew (by simp)
      exact ⟨hsub, ih t.2 hp.2 hnext hacc.2⟩

/-! ## Runs -/

/-- **Exactly one dispatch for an accepted request, at most one answer, none after a close.** -/
theorem dispatched_once_answered_once (c₀ : Client) (p : Steps Client Call)
    (hrun : clientSystem.Run c₀ p) :
    Along (fun c e _ => ∀ d, e.run c = some d →
      (requests d.events).map ItemRequest.key = (Call.acceptedKey c e).toList) c₀ p
    ∧ ∀ token, tally (responses token) c₀ p ≤ tally (fun c e => (accepts token c e).toNat) c₀ p
      ∧ ∀ pre e c₁ mid post, p = pre ++ (e, c₁) :: (mid ++ post) →
        Call.ClosesItem token (last c₀ pre) e →
        Along (fun c e _ => accepts token c e = false) c₁ mid →
        Along (fun c e _ => submits token c e = false) c₁ mid := by
  obtain ⟨⟨handle, directoryToken, channel, now, rfl⟩, hsteps⟩ := hrun
  refine ⟨?_, fun token => ⟨?_, ?_⟩⟩
  · exact along_imp _ _ (fun c e _ _ d hd => run_requests e c d hd) _ p hsteps
  · have htally := tally_le _ (responses token) (fun c e => (accepts token c e).toNat)
      (fun c => if token ∈ c.tokens then 1 else 0)
      (fun c e c' h => responses_le_accepts token c e c' h) _ p hsteps
    have hinit : token ∉ (Client.initial handle directoryToken channel now).tokens :=
      Finset.notMem_empty token
    rw [if_neg hinit] at htally
    omega
  · rintro pre e c₁ mid post rfl hclose hacc
    obtain ⟨-, hhead, htail⟩ := (along_append _ _ pre _).mp hsteps
    have hnot := notMem_tokens_of_closesItem _ c₁ e token hhead hclose
    exact unanswered_along token c₁ mid ((along_append _ c₁ mid post).mp htail).1 hnot hacc

/-- Login, a request, its answer, and a late second answer. -/
def answeredOnce : List Call :=
  [willingCall (.msg (loginByName 1)), willingCall (.msg (.plain .request .marketPrice 5)),
    willingCall (.reply 5 [0]), willingCall (.reply 5 [0])]

theorem answeredOnce_tally :
    ∃ p, replay Call.next clearSession.client answeredOnce = some p
      ∧ tally (responses 5) clearSession.client p = 1
      ∧ tally (responses 5) clearSession.client p
        ≤ tally (fun c e => (accepts 5 c e).toNat) clearSession.client p := by
  refine ⟨_, rfl, rfl, ?_⟩
  exact ((dispatched_once_answered_once clearSession.client _
    (run_replay _ Call.next clearSession.client answeredOnce _ clearSession_init rfl)).2 5).1

/-! ## Logging out -/

/-- A logged out session has nothing on its watchlist. -/
def Client.LoggedOutClean (c : Client) : Prop :=
  c.isLoggedIn = false → c.tokens = ∅

/-- The peer closes its login while item requests are outstanding. -/
def Call.AbandonsItems (c : Client) (e : Call) : Prop :=
  match e.input with
  | .msg m => m.msgClass = .close ∧ m.domainType = .login ∧ c.isLoggedIn = true ∧ c.tokens ≠ ∅
  | _ => False

theorem abandonsItems_iff (c : Client) (e : Call) :
    Call.AbandonsItems c e ↔ e.action c = .logOut ∧ c.tokens ≠ ∅ := by
  unfold Call.AbandonsItems Call.action
  cases e.input with
  | msg m =>
      rw [msgAction_eq_logOut]
      simp only [and_assoc]
  | reply t data => simp
  | close => cases c.isLoggedIn <;> simp
  | sourceDirectoryUpdate => simp

/-- Of all calls, only that one leaves a logged out session with a watchlist. -/
theorem loggedOutClean_next (c : Client) (e : Call) (c' : Client) (hclean : c.LoggedOutClean)
    (h : Call.next c e = some c') : c'.LoggedOutClean ↔ ¬ Call.AbandonsItems c e := by
  have hstreams := next_streams c c' e h
  have hlogged : c'.isLoggedIn = _ := congrArg Streams.isLoggedIn hstreams
  have htokens : c'.tokens = _ := congrArg Streams.tokens hstreams
  have henabled := action_enabled e c
  unfold Client.LoggedOutClean at hclean ⊢
  rw [abandonsItems_iff, hlogged, htokens]
  cases hact : e.action c with
  | idle => simpa [Streams.apply, Client.streams] using hclean
  | logIn t => simp [Streams.apply]
  | logOut => simp [Streams.apply, Client.streams]
  | drop => simp [Streams.apply]
  | request t =>
      -- only a logged in session accepts one
      rw [hact] at henabled
      simp [Streams.apply, henabled.1]
  | cancel t =>
      simp only [Streams.apply, Client.streams, reduceCtorEq, false_and, not_false_eq_true,
        iff_true]
      intro hout
      rw [hclean hout, Finset.erase_empty]

/-- A login leaves the watchlist as it is. -/
theorem tokens_of_logIn (c c' : Client) (e : Call) (h : Call.next c e = some c')
    (hout : c.isLoggedIn = false) (hin : c'.isLoggedIn = true) : c'.tokens = c.tokens := by
  have hstreams := next_streams c c' e h
  have hlogged : c'.isLoggedIn = _ := congrArg Streams.isLoggedIn hstreams
  have htokens : c'.tokens = _ := congrArg Streams.tokens hstreams
  rw [hlogged] at hin
  rw [htokens]
  cases hact : e.action c with
  | logIn t => rfl
  | idle | logOut | request _ | cancel _ | drop =>
      rw [hact] at hin
      simp [Streams.apply, Client.streams, hout] at hin

/-- What a clean logged out session rules out. -/
theorem cleanSteps (c : Client) (p : Steps Client Call) (hclean : c.LoggedOutClean)
    (hp : Along (fun c e c' => Call.next c e = some c' ∧ c'.LoggedOutClean) c p) :
    Along (fun c e c' => (c.isLoggedIn = false → ∀ token, submits token c e = false)
      ∧ (c.isLoggedIn = false → c'.isLoggedIn = true → c'.tokens = ∅)) c p := by
  induction p generalizing c with
  | nil => trivial
  | cons t rest ih =>
      obtain ⟨⟨hnext, hclean'⟩, hrest⟩ := hp
      refine ⟨⟨fun hout token => ?_, fun hout hin => ?_⟩, ih t.2 hclean' hrest⟩
      · by_contra hsub
        have hmem := (submits_mem token c t.1 (by simpa using hsub)).1
        rw [hclean hout] at hmem
        exact Finset.notMem_empty token hmem
      · rw [tokens_of_logIn c t.2 t.1 hnext hout hin, hclean hout]

/-- **A watchlist outlives its login exactly when the peer closes the login over open items.**
    Otherwise no item data is submitted to a logged out session, and a new login starts with an
    empty watchlist, so that no old token is taken for a reissue. -/
theorem loggedOutClean_iff (c₀ : Client) (p : Steps Client Call) (hrun : clientSystem.Run c₀ p) :
    Along (fun c e c' => c'.LoggedOutClean
      ∧ (c.isLoggedIn = false → ∀ token, submits token c e = false)
      ∧ (c.isLoggedIn = false → c'.isLoggedIn = true → c'.tokens = ∅)) c₀ p
    ↔ Along (fun c e _ => ¬ Call.AbandonsItems c e) c₀ p := by
  obtain ⟨⟨handle, directoryToken, channel, now, rfl⟩, hsteps⟩ := hrun
  have hinit : (Client.initial handle directoryToken channel now).LoggedOutClean := fun _ => rfl
  have hiff := along_iff _ (fun _ => True) Client.LoggedOutClean
    (fun c e => ¬ Call.AbandonsItems c e) (fun _ _ _ _ _ => trivial)
    (fun c e c' _ hclean h => loggedOutClean_next c e c' hclean h) _ p trivial hinit hsteps
  rw [← hiff]
  constructor
  · exact along_imp _ _ (fun _ _ _ h => h.1) _ p
  · intro hclean
    have hboth := (along_and _ _ _ p).mpr ⟨hsteps, hclean⟩
    exact (along_and _ _ _ p).mpr ⟨hclean, cleanSteps _ p hinit hboth⟩

/-- The requested item is closed before the login is. -/
def tidyLogout : List Call :=
  [willingCall (.msg (loginByName 1)), willingCall (.msg (.plain .request .marketPrice 5)),
    willingCall (.msg (.plain .close .marketPrice 5)), willingCall (.msg (.plain .close .login 1))]

theorem tidyLogout_clean :
    ∃ p, replay Call.next clearSession.client tidyLogout = some p
      ∧ Along (fun _ _ c' => c'.LoggedOutClean) clearSession.client p := by
  refine ⟨_, rfl, ?_⟩
  refine along_imp _ _ (fun _ _ _ h => h.1) _ _ ((loggedOutClean_iff clearSession.client _
    (run_replay _ Call.next clearSession.client tidyLogout _ clearSession_init rfl)).mpr ?_)
  refine ⟨?_, ?_, ?_, ?_, trivial⟩
  · exact fun h => absurd h.1 (by decide)
  · exact fun h => absurd h.1 (by decide)
  · exact fun h => absurd h.2.1 (by decide)
  · exact fun h => absurd rfl h.2.2.2

/-- The login is closed while item 5 is still to be answered. -/
def hastyLogout : List Call :=
  [willingCall (.msg (loginByName 1)), willingCall (.msg (.plain .request .marketPrice 5)),
    willingCall (.msg (.plain .close .login 1))]

/-- Afterwards the session is logged out, item 5 is on its watchlist, and the late reply to it is
    submitted. -/
theorem hastyLogout_not_clean :
    ∃ p, clientSystem.Run clearSession.client p
      ∧ replay Call.next clearSession.client hastyLogout = some p
      ∧ ¬ (last clearSession.client p).LoggedOutClean
      ∧ submits 5 (last clearSession.client p) (willingCall (.reply 5 [0])) = true := by
  refine ⟨_, run_replay _ Call.next clearSession.client hastyLogout _ clearSession_init rfl, rfl,
    ?_, rfl⟩
  intro hclean
  exact absurd (hclean rfl) (by decide)

end Hitsuji
