import Hitsuji.Client.Watchlist

set_option autoImplicit false

/-! # The directory stream as the peer opened it

A directory update is meant for the stream on which the peer asked for the directory, as long as it
has not closed it. `directory_token_` is all that a client knows of that stream: it is the stream of
the last directory request, streaming or not, and before the first one it is not initialised.
Closing a directory stream leaves it as it is. -/

namespace Hitsuji

open ByteBuffer Transition

/-! ## Open directory streams -/

/-- What the peer has asked for: the directory streams it has open, and the stream of its last
    directory request. -/
structure DirectoryStreams where
  opened : Finset Int32
  last : Option Int32

/-- Before the first message. -/
def DirectoryStreams.none : DirectoryStreams :=
  ⟨∅, .none⟩

/-- A streaming request opens its stream, a close message closes it, a snapshot does neither. -/
def DirectoryStreams.receive (o : DirectoryStreams) (m : InMsg) : DirectoryStreams :=
  match m.msgClass, m.domainType with
  | .request, .source =>
      { opened := if m.flags.streaming then insert m.streamId o.opened else o.opened
        last := some m.streamId }
  | .close, .source => { o with opened := o.opened.erase m.streamId }
  | _, _ => o

/-- Only messages of the peer open or close a stream. -/
def Input.directoryEffect (o : DirectoryStreams) : Input → DirectoryStreams
  | .msg m => o.receive m
  | _ => o

/-- A client together with the directory streams of its peer. -/
abbrev DirectoryView := Client × DirectoryStreams

/-- One call, as client and peer see it. -/
def directoryStep (s : DirectoryView) (e : Call) : Option DirectoryView :=
  (Call.next s.1 e).map fun c' => (c', e.input.directoryEffect s.2)

/-- A session over its lifetime; nothing was asked for at first. -/
def directorySystem : System DirectoryView Call :=
  .ofFn (fun s => clientSystem.init s.1 ∧ s.2 = .none) directoryStep

/-! ## Updates sent -/

/-- The stream a directory update is sent on. -/
def RsslMsg.directoryUpdate (r : RsslMsg) : Option Int32 :=
  if r.msgClass = .update ∧ r.domainType = .source then some r.streamId else .none

/-- A message is sent once RSSL has accepted it. -/
def Event.directoryUpdate : Event → Option Int32
  | .writeEx (.encoded response _) _ rc =>
      if rc.accepted then response.directoryUpdate else .none
  | _ => .none

/-- The streams on which a call sends a directory update. -/
def Call.directoryUpdates (c : Client) (e : Call) : List Int32 :=
  match e.run c with
  | some d => d.events.filterMap Event.directoryUpdate
  | .none => []

/-- Every directory update of a step goes to a stream that the peer has open. -/
def UpdatesOpen (s : DirectoryView) (e : Call) (s' : DirectoryView) : Prop :=
  ∀ token ∈ Call.directoryUpdates s.1 e, token ∈ s'.2.opened

/-- The steps that encode the update. -/
def Call.directoryUpdateSteps (e : Call) (c : Client) : List EncodeStep :=
  directorySteps e.channel e.provider (directoryUpdateResponse c.directoryToken)
    (some (cStr e.provider.serviceName)) { state := true } .updateEntry

/-- What a call sends its updates to open streams under: an update is delivered only while the
    stream of the last directory request is open. -/
def Call.DirectoryOk (s : DirectoryView) (e : Call) : Prop :=
  match e.input with
  | .sourceDirectoryUpdate =>
      e.env.delivers (e.directoryUpdateSteps s.1) = true →
        ∃ token ∈ s.2.last, token ∈ s.2.opened
  | _ => True

theorem filterMap_writeCalls (out : Outgoing) (direct : Bool) (last : RsslRet) (n : Nat) :
    (writeCalls out direct last n).filterMap Event.directoryUpdate
      = (Event.directoryUpdate (.writeEx out direct last)).toList := by
  induction n with
  | zero => simp [writeCalls, List.filterMap_cons]; cases Event.directoryUpdate _ <;> rfl
  | succ n ih =>
      rw [writeCalls, List.filterMap_cons_none]
      · exact ih
      · cases out <;> rfl

/-- Encoding functions send the update they encode, if it is one, when it is delivered. -/
theorem sendEncoded_updates (env : Env) (s : Session) (response : RsslMsg)
    (steps : List EncodeStep) (d : Done) (h : s.sendEncoded env response steps = some d) :
    d.events.filterMap Event.directoryUpdate
      = if env.delivers steps then response.directoryUpdate.toList else [] := by
  rcases sendEncoded_cases env s response steps d h with
    ⟨hbuf, rfl⟩ | ⟨hbuf, henc, rfl⟩ | ⟨hbuf, henc, rfl⟩ | ⟨calls, hbuf, henc, rfl⟩
  · simp [Env.delivers, Env.fills, hbuf, Event.directoryUpdate]
  · simp [Env.delivers, Env.fills, henc, Encoded.isComplete, Event.directoryUpdate]
  · simp [Env.delivers, Env.fills, henc, Encoded.isComplete, Event.directoryUpdate]
  · have hrelease : (if submitStatus env.writes.last ≠ 0 then []
        else [Event.releaseBuffer]).filterMap Event.directoryUpdate = [] := by
      split <;> rfl
    rw [submitOrRelease_eq, List.cons_append, List.filterMap_cons_none rfl, List.filterMap_append,
      filterMap_writeCalls, hrelease, List.append_nil]
    simp only [Env.delivers, Env.fills, hbuf, henc, Encoded.isComplete, Bool.and_self,
      Bool.true_and, Event.directoryUpdate]
    split
    · rfl
    · rfl

/-- No other message is an update. -/
theorem sendEncoded_noUpdate (env : Env) (s : Session) (response : RsslMsg)
    (steps : List EncodeStep) (d : Done) (hclass : response.msgClass ≠ .update)
    (h : s.sendEncoded env response steps = some d) :
    d.events.filterMap Event.directoryUpdate = [] := by
  have hnone : response.directoryUpdate = .none := if_neg fun hupdate => hclass hupdate.1
  rw [sendEncoded_updates env s response steps d h, hnone]
  exact ite_self []

theorem sendReply_noUpdate (env : Env) (s : Session) (token : Int32) (data : Bytes) (d : Done)
    (h : s.sendReply env token data = some d) :
    d.events.filterMap Event.directoryUpdate = [] := by
  rcases sendReply_cases env s token data d h with ⟨-, rfl⟩ | ⟨-, -, rfl⟩ | ⟨-, -, rfl⟩
  · rfl
  · rw [submitOrRelease_eq, List.cons_append, List.filterMap_cons_none rfl, List.filterMap_append,
      filterMap_writeCalls]
    split <;> rfl
  · rfl

/-- A message is never answered with an update. -/
theorem onMsg_noUpdate (env : Env) (s : Session) (m : InMsg) (d : Done)
    (h : s.onMsg env m = some d) : d.events.filterMap Event.directoryUpdate = [] := by
  rcases onMsg_cases env s m d h with ⟨-, -, hlogin⟩ | ⟨-, -, hdir⟩ | ⟨-, -, hitem⟩
    | ⟨-, -, -, text, hclose⟩ | ⟨-, rfl⟩ | ⟨-, -, hclose⟩
  · rcases onLoginRequest_cases env s m d hlogin with ⟨-, d', hd', rfl⟩ | ⟨-, hreject⟩
    · have hnone := sendEncoded_noUpdate _ _ _ _ d' (by simp [acceptLoginResponse]) hd'
      cases d'.ret <;> exact hnone
    · exact sendEncoded_noUpdate _ _ _ _ d (by simp [rejectLoginResponse]) hreject
  · obtain ⟨serviceName, hsend⟩ := onDirectoryRequest_cases env s m d hdir
    exact sendEncoded_noUpdate _ _ _ _ d (by simp [directoryRefreshResponse]) hsend
  · rcases onItemRequest_cases env s m d hitem with ⟨-, hclose⟩ | ⟨-, -, rfl⟩ | ⟨-, -, -, rfl⟩
    · exact sendEncoded_noUpdate _ _ _ _ d (by simp [CloseArgs.response]) hclose
    · rfl
    · rfl
  · exact sendEncoded_noUpdate _ _ _ _ d (by simp [CloseArgs.response]) hclose
  · unfold Session.onCloseMsg Session.onItemClose
    repeat' split
    all_goals rfl
  · exact sendEncoded_noUpdate _ _ _ _ d (by simp [CloseArgs.response]) hclose

/-- **Only `OnSourceDirectoryUpdate` sends updates**, on the directory token, if they are
    delivered. -/
theorem directoryUpdates_eq (c : Client) (e : Call) (d : Done) (h : e.run c = some d) :
    Call.directoryUpdates c e =
      match e.input with
      | .sourceDirectoryUpdate =>
          if e.env.delivers (e.directoryUpdateSteps c) then [c.directoryToken] else []
      | _ => [] := by
  simp only [Call.directoryUpdates, h]
  unfold Call.run at h
  cases hin : e.input with
  | msg m =>
      simp only [hin] at h
      exact onMsg_noUpdate _ _ m d h
  | reply token data =>
      simp only [hin] at h
      exact sendReply_noUpdate _ _ token data d h
  | close =>
      simp only [hin] at h
      unfold Session.close at h
      split at h
      · exact sendEncoded_noUpdate _ _ _ _ d (by simp [CloseArgs.response]) h
      · obtain rfl := Option.some.inj h
        rfl
  | sourceDirectoryUpdate =>
      simp only [hin] at h
      exact sendEncoded_updates _ _ _ _ d h

/-! ## What the token knows -/

/-- The token after a call: only a directory request sets it. -/
def Call.directoryToken (c : Client) (e : Call) : Int32 :=
  match e.input with
  | .msg m =>
      if m.msgClass = .request ∧ m.domainType = .source then m.streamId else c.directoryToken
  | _ => c.directoryToken

theorem onMsg_directoryToken (env : Env) (s : Session) (m : InMsg) (d : Done)
    (h : s.onMsg env m = some d) : d.session.client.directoryToken =
      if m.msgClass = .request ∧ m.domainType = .source then m.streamId
      else s.client.directoryToken := by
  by_cases hasked : m.msgClass = .request ∧ m.domainType = .source
  · rw [if_pos hasked]
    simp only [Session.onMsg, hasked.1, Session.onRequestMsg, hasked.2] at h
    obtain ⟨serviceName, hsend⟩ := onDirectoryRequest_cases env s m d h
    exact (sendEncoded_sameStreams _ _ _ _ d hsend).directoryToken
  rw [if_neg hasked]
  rcases onMsg_cases env s m d h with ⟨-, -, hlogin⟩ | ⟨hclass, hdom, -⟩ | ⟨-, -, hitem⟩
    | ⟨-, -, -, text, hclose⟩ | ⟨-, rfl⟩ | ⟨-, -, hclose⟩
  · rcases onLoginRequest_cases env s m d hlogin with ⟨-, d', hd', rfl⟩ | ⟨-, hreject⟩
    · have hsame := (sendEncoded_sameStreams _ _ _ _ d' hd').directoryToken
      cases d'.ret <;> exact hsame
    · exact (sendEncoded_sameStreams _ _ _ _ d hreject).directoryToken
  · exact absurd ⟨hclass, hdom⟩ hasked
  · rcases onItemRequest_cases env s m d hitem with ⟨-, hclose⟩ | ⟨-, -, rfl⟩ | ⟨-, -, -, rfl⟩
    · exact (sendEncoded_sameStreams _ _ _ _ d hclose).directoryToken
    · rfl
    · rfl
  · exact (sendEncoded_sameStreams _ _ _ _ d hclose).directoryToken
  · unfold Session.onCloseMsg Session.onItemClose
    repeat' split
    all_goals rfl
  · exact (sendEncoded_sameStreams _ _ _ _ d hclose).directoryToken

theorem run_directoryToken (c : Client) (e : Call) (d : Done) (h : e.run c = some d) :
    d.session.client.directoryToken = Call.directoryToken c e := by
  unfold Call.run at h
  unfold Call.directoryToken
  cases hin : e.input with
  | msg m =>
      simp only [hin] at h
      exact onMsg_directoryToken _ _ m d h
  | reply token data =>
      simp only [hin] at h
      rcases sendReply_cases _ _ token data d h with ⟨-, rfl⟩ | ⟨-, -, rfl⟩ | ⟨-, -, rfl⟩
      · rfl
      · rw [submitOrRelease_eq]
        exact (afterSubmit_sameStreams _ _).directoryToken
      · rfl
  | close =>
      simp only [hin] at h
      unfold Session.close at h
      split at h
      · exact (sendEncoded_sameStreams _ _ _ _ d h).directoryToken
      · obtain rfl := Option.some.inj h
        rfl
  | sourceDirectoryUpdate =>
      simp only [hin] at h
      exact (sendEncoded_sameStreams _ _ _ _ d h).directoryToken

/-- The token is the stream of the last request, and before the first request none is open. -/
structure Asked (s : DirectoryView) : Prop where
  token : ∀ token ∈ s.2.last, s.1.directoryToken = token
  unasked : s.2.last = .none → s.2.opened = ∅

theorem directoryStep_eq_some (s s' : DirectoryView) (e : Call) :
    directoryStep s e = some s' ↔ ∃ d, e.run s.1 = some d ∧ s'.1 = d.session.client
      ∧ s'.2 = e.input.directoryEffect s.2 := by
  obtain ⟨c', o'⟩ := s'
  unfold directoryStep
  constructor
  · intro h
    obtain ⟨c₁, hc₁, hpair⟩ := Option.map_eq_some_iff.mp h
    obtain ⟨d, hd, rfl⟩ := (next_eq_some s.1 c₁ e).mp hc₁
    obtain ⟨rfl, rfl⟩ := Prod.mk.inj hpair
    exact ⟨d, hd, rfl, rfl⟩
  · rintro ⟨d, hd, hclient, hstreams⟩
    dsimp only at hclient hstreams
    rw [(next_eq_some s.1 c' e).mpr ⟨d, hd, hclient.symm⟩, hstreams]
    rfl

/-- A message is a directory request, or opens nothing. -/
theorem receive_cases (o : DirectoryStreams) (m : InMsg) :
    ((m.msgClass = .request ∧ m.domainType = .source) ∧ (o.receive m).last = some m.streamId)
      ∨ (¬ (m.msgClass = .request ∧ m.domainType = .source) ∧ (o.receive m).last = o.last
        ∧ (o.receive m).opened ⊆ o.opened) := by
  unfold DirectoryStreams.receive
  split
  · next hclass hdom => exact .inl ⟨⟨hclass, hdom⟩, rfl⟩
  · next hclass hdom =>
      exact .inr ⟨fun hasked => by simp [hclass] at hasked, rfl, Finset.erase_subset _ _⟩
  · next hother _ =>
      exact .inr ⟨fun hasked => hother hasked.1 hasked.2, rfl, Finset.Subset.refl _⟩

theorem asked_step (s : DirectoryView) (e : Call) (s' : DirectoryView) (hs : Asked s)
    (h : directoryStep s e = some s') : Asked s' := by
  obtain ⟨d, hd, hclient, hstreams⟩ := (directoryStep_eq_some s s' e).mp h
  have htoken := run_directoryToken s.1 e d hd
  rw [← hclient] at htoken
  unfold Call.directoryToken at htoken
  cases hin : e.input with
  | msg m =>
      rw [hin, Input.directoryEffect] at hstreams
      simp only [hin] at htoken
      rcases receive_cases s.2 m with ⟨hasked, hlast⟩ | ⟨hasked, hlast, hopened⟩
      · rw [if_pos hasked] at htoken
        rw [← hstreams] at hlast
        constructor
        · intro token hmem
          rw [htoken]
          exact Option.some.inj (hlast.symm.trans hmem)
        · intro hnone
          exact absurd (hlast.symm.trans hnone) (by simp)
      · rw [if_neg hasked] at htoken
        rw [← hstreams] at hlast hopened
        constructor
        · intro token hmem
          rw [htoken]
          exact hs.token token (hlast ▸ hmem)
        · intro hnone
          exact Finset.subset_empty.mp (hs.unasked (hlast ▸ hnone) ▸ hopened)
  | reply token data | close | sourceDirectoryUpdate =>
      simp only [hin, Input.directoryEffect] at hstreams htoken
      exact ⟨by rw [hstreams, htoken]; exact hs.token, by rw [hstreams]; exact hs.unasked⟩

/-! ## Updates on open streams -/

/-- One call sends its updates to open streams exactly under `DirectoryOk`. -/
theorem updatesOpen_step (s : DirectoryView) (e : Call) (s' : DirectoryView) (hs : Asked s)
    (h : directoryStep s e = some s') : UpdatesOpen s e s' ↔ Call.DirectoryOk s e := by
  obtain ⟨d, hd, -, hstreams⟩ := (directoryStep_eq_some s s' e).mp h
  unfold UpdatesOpen Call.DirectoryOk
  rw [directoryUpdates_eq s.1 e d hd]
  cases hin : e.input with
  | msg m | reply token data | close => simp
  | sourceDirectoryUpdate =>
      simp only [hin, Input.directoryEffect] at hstreams
      rw [hstreams]
      dsimp only
      cases hdelivers : e.env.delivers (e.directoryUpdateSteps s.1) with
      | false => simp
      | true =>
          simp only [if_true, List.mem_singleton, forall_eq, true_implies]
          cases hlast : s.2.last with
          | none => simp [hs.unasked hlast]
          | some token => simp [hs.token token hlast]

/-- **Throughout a run directory updates go to open streams exactly when every call of the run
    meets `DirectoryOk`.** -/
theorem updatesOpen_iff (s₀ : DirectoryView) (p : Steps DirectoryView Call)
    (hrun : directorySystem.Run s₀ p) :
    Along UpdatesOpen s₀ p ↔ Along (fun s e _ => Call.DirectoryOk s e) s₀ p := by
  obtain ⟨⟨-, hnone⟩, hsteps⟩ := hrun
  have hinit : Asked s₀ := by
    constructor
    · rw [hnone]
      exact nofun
    · rw [hnone]
      exact fun _ => rfl
  obtain ⟨hasked, -⟩ := along_invariant _ Asked asked_step s₀ p hinit hsteps
  refine along_congr _ _ _ (fun s e s' hboth => ?_) s₀ p
    ((along_and _ _ s₀ p).mpr ⟨hasked, hsteps⟩)
  exact updatesOpen_step s e s' hboth.1.1 hboth.2

/-- A directory request without a name or a service id. -/
def directoryRequest (streaming : Bool) (streamId : Int32) : InMsg :=
  { InMsg.plain .request .source streamId with flags := { streaming } }

/-- A session that asks for the directory on stream 3, before the provider closes. -/
def openDirectory : List Call :=
  [willingCall (.msg (directoryRequest true 3)), willingCall .sourceDirectoryUpdate]

theorem openDirectory_updates :
    ∃ p, replay directoryStep (clearSession.client, .none) openDirectory = some p
      ∧ Along UpdatesOpen (clearSession.client, .none) p := by
  refine ⟨_, rfl, ?_⟩
  refine (updatesOpen_iff (clearSession.client, .none) _ (run_replay _ directoryStep
    (clearSession.client, .none) openDirectory _ ⟨clearSession_init, rfl⟩ rfl)).mpr
    ⟨?_, ?_, trivial⟩
  · trivial
  · exact fun _ => ⟨3, rfl, by decide⟩

/-- A session that never asks for the directory. -/
def neverAsked : List Call :=
  [willingCall .sourceDirectoryUpdate]

/-- A session that takes a snapshot of the directory. -/
def snapshotTaken : List Call :=
  [willingCall (.msg (directoryRequest false 3)), willingCall .sourceDirectoryUpdate]

/-- A session that closes its directory stream. -/
def streamClosed : List Call :=
  [willingCall (.msg (directoryRequest true 3)), willingCall (.msg (.plain .close .source 3)),
    willingCall .sourceDirectoryUpdate]

/-- All three are sent an update, the first on whatever the token was before it was set. -/
theorem neverAsked_updated :
    (∃ p, directorySystem.Run (clearSession.client, .none) p
      ∧ replay directoryStep (clearSession.client, .none) neverAsked = some p
      ∧ ¬ Along UpdatesOpen (clearSession.client, .none) p)
    ∧ (∃ p, directorySystem.Run (clearSession.client, .none) p
      ∧ replay directoryStep (clearSession.client, .none) snapshotTaken = some p
      ∧ ¬ Along UpdatesOpen (clearSession.client, .none) p)
    ∧ ∃ p, directorySystem.Run (clearSession.client, .none) p
      ∧ replay directoryStep (clearSession.client, .none) streamClosed = some p
      ∧ ¬ Along UpdatesOpen (clearSession.client, .none) p := by
  refine ⟨⟨_, run_replay _ directoryStep (clearSession.client, .none) neverAsked _
      ⟨clearSession_init, rfl⟩ rfl, rfl, ?_⟩,
    ⟨_, run_replay _ directoryStep (clearSession.client, .none) snapshotTaken _
      ⟨clearSession_init, rfl⟩ rfl, rfl, ?_⟩,
    ⟨_, run_replay _ directoryStep (clearSession.client, .none) streamClosed _
      ⟨clearSession_init, rfl⟩ rfl, rfl, ?_⟩⟩
  · rintro ⟨hopen, -⟩
    exact absurd (hopen 0 (by decide +kernel)) (by decide)
  · rintro ⟨-, hopen, -⟩
    exact absurd (hopen 3 (by decide +kernel)) (by decide)
  · rintro ⟨-, -, hopen, -⟩
    exact absurd (hopen 3 (by decide +kernel)) (by decide)

end Hitsuji
