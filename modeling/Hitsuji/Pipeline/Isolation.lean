import Hitsuji.Pipeline.Routing

set_option autoImplicit false

/-! # Isolation and freshness of replies

A reply finds its client by channel pointer and token, both of which may since stand for something
else: another session was accepted at the same address, perhaps while the former client is still
stored there, or the consumer closed the item and asked for it again. Runs in which nothing is asked
for under a key that still has a reply to come, and no channel is taken over from a client that has
one to come, are isolated and fresh; one request under such a key is enough to break either. -/

namespace Hitsuji

open ByteBuffer Transition

namespace Server

/-! ## Submitted replies -/

/-- The step reads the reply to `job`, and it is submitted to the client at `handle` on `token`. -/
def Submits (s : Server) (e : Input) (job : Job) (handle : UInt64) (token : Int32) : Prop :=
  ∃ i env z msg p events view, e = .reply i env z ∧ s.replies[i]? = some (msg, job)
    ∧ s.provider.onReplySocket env z msg = some (p, events)
    ∧ decodeReply .lengthFirst msg = .ok view ∧ view.handle = handle
    ∧ events.any (Event.writesReply token) = true

/-- A reply is submitted under the key of its request, while that is on the watchlist. -/
theorem submits_spec (s : Server) (hrec : s.Recorded) (e : Input) (job : Job) (handle : UInt64)
    (token : Int32) (h : s.Submits e job handle token) :
    job ∈ s.outstanding ∧ job.request.key = (handle, token)
      ∧ ∃ c, s.provider.clients handle = some c ∧ token ∈ c.tokens := by
  obtain ⟨i, env, z, msg, p, events, view, -, hget, hread, hview, rfl, hany⟩ := h
  have hmem := List.mem_of_getElem? hget
  obtain ⟨rssl, rfl⟩ := hrec.replies msg job hmem
  rw [decodeReply_image] at hview
  obtain rfl := Except.ok.inj hview
  rcases (Provider.onReplySocket_spec env z s.provider p _ _ rssl events hread).2 with
    ⟨-, rfl, -⟩ | ⟨c, data, d, hc, -, hd, -, rfl⟩
  · exact absurd hany (by simp)
  · obtain ⟨rfl, htoken, -⟩ := ((sendReply_events env _ _ _ d hd).2 token).mp hany
    exact ⟨(mem_outstanding s job).mpr (.inr ⟨_, hmem⟩), rfl, c, hc, htoken⟩

/-- No key is open before the first connection. -/
theorem consistent_init {τ : Type} (s : Server) (hinit : s.Initial) (f : Job → τ) :
    Routing.Consistent (s.routing f) := by
  intro key t hmem t' hopen
  obtain ⟨c, j, hc, -⟩ := (opened_eq_some f s key t').mp hopen
  rw [hinit.1] at hc
  exact absurd hc (by simp)

/-- In a run where no key is opened over results of another tag, what is submitted under a key
    agrees with the request last accepted there. -/
theorem along_submits {τ : Type} (f : Job → τ) (s₀ : Server) (p : Steps Server Input)
    (hrun : serverSystem.Run s₀ p)
    (hclear : Along (fun s e _ => Routing.Clear (s.routing f) (s.label f e)) s₀ p) :
    Along (fun s e _ => ∀ job handle token, s.Submits e job handle token →
      ∃ j, s.latest handle token = some j ∧ f j = f job
        ∧ (handle ∉ s.dangling → j.session = s.session handle)) s₀ p := by
  obtain ⟨hinit, hsteps⟩ := hrun
  have hinv := along_invariant
    (fun s e s' => serverSystem.step s e s' ∧ Routing.Clear (s.routing f) (s.label f e))
    (fun s => s.Recorded ∧ Routing.Consistent (s.routing f))
    (fun s e s' hs h => ⟨recorded_step s s' hs.1 e h.1,
      Routing.consistent_step _ _ _ hs.2 h.2 (routing_step f s s' hs.1 e h.1)⟩)
    s₀ p ⟨recorded_init s₀ hinit, consistent_init s₀ hinit f⟩
    ((along_and _ _ s₀ p).mpr ⟨hsteps, hclear⟩)
  refine along_imp _ _ ?_ s₀ p hinv.1
  rintro s e s' ⟨⟨hrec, hcons⟩, -⟩ job handle token hsub
  obtain ⟨hout, hkey, c, hc, htoken⟩ := submits_spec s hrec e job handle token hsub
  obtain ⟨j, hj, hsession⟩ := hrec.latest handle c token hc htoken
  have hpending : ((handle, token), f job) ∈ (s.routing f).pending :=
    (mem_pending f s _ _).mpr ⟨job, hout, hkey, rfl⟩
  have hopen : (s.routing f).opened (handle, token) = some (f j) :=
    (opened_eq_some f s _ _).mpr ⟨c, j, hc, htoken, hj, rfl⟩
  exact ⟨j, hj, (Routing.routed _ hcons _ _ _ hpending hopen).symm, hsession⟩

/-- What an accepted request needs for its key to be clear. -/
theorem clear_of_accepted {τ : Type} (f : Job → τ) (s s' : Server) (hrec : s.Recorded) (e : Input)
    (h : s.step e = some s')
    (hkey : ∀ job, s.newJob e = some job → s.acceptedKey e = some job.request.key →
      job.session = s.session job.request.handle →
      ∀ j ∈ s.outstanding, j.request.key = job.request.key → f j = f job) :
    Routing.Clear (s.routing f) (s.label f e) := by
  rcases step_cases s s' hrec e h with ⟨hjob, -⟩ | ⟨env, p, c, c', r, hjob, hacc, -⟩
  · rw [label, hjob]
    trivial
  · have hclear := hkey _ hjob hacc rfl
    rw [label, hjob]
    intro t' hmem
    obtain ⟨j, hj, hjkey, rfl⟩ := (mem_pending f s _ _).mp hmem
    exact hclear j hj hjkey

/-- The record is kept along a run. -/
theorem along_recorded (s₀ : Server) (p : Steps Server Input) (hrun : serverSystem.Run s₀ p) :
    Along (fun s e s' => serverSystem.step s e s' ∧ s.Recorded) s₀ p := by
  have hinv := along_invariant serverSystem.step Server.Recorded
    (fun s e s' hs h => recorded_step s s' hs e h) s₀ p (recorded_init s₀ hrun.1) hrun.2
  exact (along_and _ _ s₀ p).mpr ⟨hrun.2, along_imp _ _ (fun _ _ _ h => h.1) s₀ p hinv.1⟩

/-! ## Session isolation -/

/-- Nothing is to come for the items on the watchlist of the client stored at an address. -/
def NothingDue (s : Server) (handle : UInt64) : Prop :=
  ∀ c, s.provider.clients handle = some c →
    ∀ j ∈ s.outstanding, j.request.handle = handle → j.request.token ∉ c.tokens

/-- No reply to another session is still to come under the key a request is accepted on, and where a
    session is accepted nothing is to come for a client that is still stored there. -/
def NoForeignReply (s : Server) (e : Input) : Prop :=
  (∀ key, s.acceptedKey e = some key →
    ∀ j ∈ s.outstanding, j.request.key = key → j.session = s.session key.1)
  ∧ ∀ handle channel directoryToken, e = .accept handle channel directoryToken →
    s.NothingDue handle

/-- Replies are submitted to the session whose request they answer. -/
def Isolated (s : Server) (e : Input) : Prop :=
  ∀ job handle token, s.Submits e job handle token → job.session = s.session handle

/-- A channel whose pointer dangles got there by being accepted again. -/
theorem dangling_step (s s' : Server) (hrec : s.Recorded) (e : Input) (h : s.step e = some s')
    (handle : UInt64) (hmem : handle ∈ s'.dangling) :
    handle ∈ s.dangling ∨ ∃ channel directoryToken, e = .accept handle channel directoryToken := by
  cases e with
  | accept a channel directoryToken =>
      obtain rfl := Option.some.inj h
      simp only [accept] at hmem
      split at hmem
      · rcases Finset.mem_insert.mp hmem with rfl | hold
        · exact .inr ⟨channel, directoryToken, rfl⟩
        · exact .inl hold
      · exact .inl (Finset.mem_of_mem_erase hmem)
  | client a env mem input =>
      obtain ⟨-, -, p, -, -, -, ⟨-, -, -, rfl⟩ | ⟨r, -, -, -, -, -, -, rfl⟩⟩ :=
        client_spec s s' hrec a env mem input h
      · exact .inl hmem
      · exact .inl hmem
  | worker i mem rssl =>
      change s.worker i mem rssl = some s' at h
      unfold worker at h
      split at h
      · exact absurd h (by simp)
      · split at h
        · exact absurd h (by simp)
        · obtain rfl := Option.some.inj h
          exact .inl hmem
  | reply i env z =>
      change s.reply i env z = some s' at h
      unfold reply at h
      split at h
      · exact absurd h (by simp)
      · split at h
        · exact absurd h (by simp)
        · obtain rfl := Option.some.inj h
          exact .inl hmem
  | disconnect | workerStops | drift =>
      obtain rfl := Option.some.inj h
      exact .inl hmem

/-- Nothing is to come for clients that messages do not reach. -/
def Severed (s : Server) : Prop :=
  ∀ handle ∈ s.dangling, s.NothingDue handle

/-- Watchlists shrink and requests disappear. -/
theorem nothingDue_of_closes (s s' : Server) (hcloses : Closes s s') (handle : UInt64)
    (hdue : s.NothingDue handle) : s'.NothingDue handle := by
  intro c' hc' j hj hhandle hmem
  rcases (hcloses.clients handle c' hc').2 with hempty | ⟨c, hc, hsub, -⟩
  · rw [hempty] at hmem
    exact Finset.notMem_empty _ hmem
  · exact hdue c hc j (outstanding_of_closes s s' hcloses j hj) hhandle (hsub hmem)

theorem severed_step (s s' : Server) (hrec : s.Recorded) (hs : s.Severed) (e : Input)
    (hforeign : s.NoForeignReply e) (h : s.step e = some s') : s'.Severed := by
  intro handle hmem
  have hdue : s.NothingDue handle := by
    rcases dangling_step s s' hrec e h handle hmem with hold | ⟨channel, directoryToken, rfl⟩
    · exact hs handle hold
    · exact hforeign.2 handle channel directoryToken rfl
  rcases step_cases s s' hrec e h with ⟨-, -, hcloses⟩ | hacc
  · exact nothingDue_of_closes s s' hcloses handle hdue
  -- a request is accepted on another channel, one whose pointer is good
  obtain ⟨env, p, c, c', r, -, -, -, hlinked, -, -, -, hp, rfl⟩ := hacc
  have hne : handle ≠ r.handle := fun heq => hlinked (heq ▸ hmem)
  intro b hb j hj hhandle
  simp only [withJob, hp, Function.update_of_ne hne] at hb
  refine hdue b hb j ?_ hhandle
  rw [mem_outstanding] at hj ⊢
  simp only [withJob] at hj
  rcases hj with ⟨msg, hmsg⟩ | hreply
  · split at hmsg
    · rcases List.mem_append.mp hmsg with hold | hnew
      · exact .inl ⟨msg, hold⟩
      · obtain ⟨-, rfl⟩ := Prod.mk.inj (List.mem_singleton.mp hnew)
        exact absurd hhandle.symm hne
    · exact .inl ⟨msg, hmsg⟩
  · exact .inr hreply

/-- **Sessions are isolated in every run that accepts no request under a channel pointer and token
    for which a reply to an earlier session is still to come**, and no session on the channel pointer
    of a client with replies to come. -/
theorem sessions_isolated (s₀ : Server) (p : Steps Server Input) (hrun : serverSystem.Run s₀ p)
    (hforeign : Along (fun s e _ => NoForeignReply s e) s₀ p) :
    Along (fun s e _ => Isolated s e) s₀ p := by
  have hclear : Along (fun s e _ => Routing.Clear (s.routing Job.session)
      (s.label Job.session e)) s₀ p := by
    refine along_imp _ _ ?_ s₀ p
      ((along_and _ _ s₀ p).mpr ⟨along_recorded s₀ p hrun, hforeign⟩)
    rintro s e s' ⟨⟨hstep, hrec⟩, hno⟩
    refine clear_of_accepted Job.session s s' hrec e hstep fun job _ hacc hsession j hj hkey => ?_
    rw [hsession]
    exact hno.1 _ hacc j hj hkey
  have hsevered : s₀.Severed := by
    intro handle _ c hc
    rw [hrun.1.1] at hc
    exact absurd hc (by simp)
  have hinv := along_invariant _ (fun s => s.Recorded ∧ s.Severed)
    (fun s e s' hs (h : serverSystem.step s e s' ∧ NoForeignReply s e) =>
      ⟨recorded_step s s' hs.1 e h.1, severed_step s s' hs.1 hs.2 e h.2 h.1⟩)
    s₀ p ⟨recorded_init s₀ hrun.1, hsevered⟩ ((along_and _ _ s₀ p).mpr ⟨hrun.2, hforeign⟩)
  refine along_imp _ _ ?_ s₀ p
    ((along_and _ _ s₀ p).mpr ⟨hinv.1, along_submits Job.session s₀ p hrun hclear⟩)
  rintro s e s' ⟨⟨⟨hrec, hsev⟩, -⟩, hsub⟩ job handle token h
  obtain ⟨j, -, hf, hsession⟩ := hsub job handle token h
  refine hf.symm.trans (hsession fun hdangling => ?_)
  -- a client that messages do not reach is not answered
  obtain ⟨hout, hkey, c, hc, htoken⟩ := submits_spec s hrec e job handle token h
  obtain ⟨rfl, rfl⟩ := Prod.mk.inj hkey
  exact hsev _ hdangling c hc job hout rfl htoken

/-- The first answer comes before the address is used again. -/
def answeredInTime : List Input :=
  connectAndAsk ++ answer ++ .disconnect 0x7f00 :: connectAndAsk ++ answer

/-- The address is used again, and the answer to the former consumer comes late. -/
def addressReused : List Input :=
  connectAndAsk ++ .disconnect 0x7f00 :: connectAndAsk ++ answer

/-- RSSL closed the channel, and its pointer is used again before the former client is removed. -/
def channelTakenOver : List Input :=
  connectAndAsk ++ .accept 0x7f00 clearSession.channel 0 :: answer

section Replay

set_option maxRecDepth 20000

theorem answeredInTime_isolated :
    ∃ p, replay Server.step idle answeredInTime = some p
      ∧ Along (fun s e _ => Isolated s e) idle p := by
  refine ⟨_, rfl, sessions_isolated idle _
    (run_replay _ Server.step idle answeredInTime _ idle_init rfl) ?_⟩
  refine ⟨⟨nofun, ?_⟩, ⟨nofun, nofun⟩, ⟨?_, nofun⟩, ⟨nofun, nofun⟩, ⟨nofun, nofun⟩, ⟨nofun, nofun⟩,
    ⟨nofun, ?_⟩, ⟨nofun, nofun⟩, ⟨?_, nofun⟩, ⟨nofun, nofun⟩, ⟨nofun, nofun⟩, trivial⟩
  · exact fun handle _ _ _ _ _ j hj => absurd hj List.not_mem_nil
  · exact fun _ _ j hj => absurd hj List.not_mem_nil
  · exact fun handle _ _ _ _ _ j hj => absurd hj List.not_mem_nil
  · exact fun _ _ j hj => absurd hj List.not_mem_nil

/-- Either way the reply to the first session's request is submitted to the second session. -/
theorem addressReused_crosses :
    (∃ p, serverSystem.Run idle p ∧ replay Server.step idle addressReused = some p
      ∧ ¬ Along (fun s e _ => Isolated s e) idle p)
    ∧ ∃ p, serverSystem.Run idle p ∧ replay Server.step idle channelTakenOver = some p
      ∧ ¬ Along (fun s e _ => Isolated s e) idle p := by
  refine ⟨⟨_, run_replay _ Server.step idle addressReused _ idle_init rfl, rfl, fun h => ?_⟩,
    _, run_replay _ Server.step idle channelTakenOver _ idle_init rfl, rfl, fun h => ?_⟩
  · have hread := h.2.2.2.2.2.2.2.2.1
      ⟨0, 0, itemRequest clearSession (.plain .request .marketPrice 5) none⟩ 0x7f00 5
      ⟨0, _, _, _, _, _, _, rfl, rfl, rfl, rfl, rfl, rfl⟩
    exact absurd hread (by decide)
  · have hread := h.2.2.2.2.2.1
      ⟨0, 0, itemRequest clearSession (.plain .request .marketPrice 5) none⟩ 0x7f00 5
      ⟨0, _, _, _, _, _, _, rfl, rfl, rfl, rfl, rfl, rfl⟩
    exact absurd hread (by decide)

end Replay

/-! ## Freshness -/

/-- No reply at all is still to come under the key a request is accepted on, and its name fits the
    length byte. -/
def NoEarlierReply (s : Server) (e : Input) : Prop :=
  (∀ key, s.acceptedKey e = some key → ∀ j ∈ s.outstanding, j.request.key ≠ key)
    ∧ ∀ job, s.newJob e = some job → job.request.itemName.length < 256

/-- A worker reads the handle, the token and the name of the request from the message. -/
def AsksFor (msg : Bytes) (r : ItemRequest) : Prop :=
  ∃ view, decodeRequest .lengthFirst msg = .ok (some view) ∧ view.handle = r.handle
    ∧ view.token = r.token ∧ view.name msg = r.itemName

/-- Workers compute replies for the request they are recorded for, and a reply is only submitted to
    the request last accepted on its token. -/
def Fresh (s : Server) (e : Input) : Prop :=
  (∀ i mem rssl msg job, e = .worker i mem rssl → s.requests[i]? = some (msg, job) →
      AsksFor msg job.request)
    ∧ ∀ job handle token, s.Submits e job handle token → s.latest handle token = some job

theorem asksFor_image (r : ItemRequest) (h : r.itemName.length < 256) :
    AsksFor (requestImage r) r := by
  refine ⟨_, decodeRequest_image r, rfl, rfl, ?_⟩
  rw [name_image r _ rfl, Nat.mod_eq_of_lt h, List.take_length]

/-- The names of the requests in flight fit the length byte. -/
def NamesFit (s : Server) : Prop :=
  ∀ msg job, (msg, job) ∈ s.requests → job.request.itemName.length < 256

theorem namesFit_step (s s' : Server) (hrec : s.Recorded) (hs : s.NamesFit) (e : Input)
    (h : s.step e = some s') (hjob : ∀ job, s.newJob e = some job →
      job.request.itemName.length < 256) : s'.NamesFit := by
  rcases step_cases s s' hrec e h with ⟨-, -, hcloses⟩ | ⟨env, p, c, c', r, hnew, hrest⟩
  · exact fun msg job hmem => hs msg job (hcloses.requests hmem)
  · obtain ⟨-, -, -, -, -, -, -, rfl⟩ := hrest
    intro msg job hmem
    simp only [withJob] at hmem
    split at hmem
    · rcases List.mem_append.mp hmem with hold | hlast
      · exact hs msg job hold
      · obtain ⟨-, rfl⟩ := Prod.mk.inj (List.mem_singleton.mp hlast)
        exact hjob _ hnew
    · exact hs msg job hmem

/-- **Replies are fresh in every run that accepts no request on a token for which a reply to an
    earlier one is still to come.** -/
theorem replies_fresh (s₀ : Server) (p : Steps Server Input) (hrun : serverSystem.Run s₀ p)
    (hearlier : Along (fun s e _ => NoEarlierReply s e) s₀ p) :
    Along (fun s e _ => Fresh s e) s₀ p := by
  have hboth := (along_and _ _ s₀ p).mpr ⟨along_recorded s₀ p hrun, hearlier⟩
  have hclear : Along (fun s e _ => Routing.Clear (s.routing id) (s.label id e)) s₀ p := by
    refine along_imp _ _ ?_ s₀ p hboth
    rintro s e s' ⟨⟨hstep, hrec⟩, hno, -⟩
    exact clear_of_accepted id s s' hrec e hstep fun job _ hacc _ j hj hkey =>
      absurd hkey (hno _ hacc j hj)
  have hfit : Along (fun s _ _ => s.Recorded ∧ s.NamesFit) s₀ p := by
    have hinit : s₀.NamesFit := by
      intro msg job hmem
      rw [hrun.1.2.1] at hmem
      exact absurd hmem List.not_mem_nil
    have hinv := along_invariant _ (fun s => s.Recorded ∧ s.NamesFit)
      (fun s e s' hs (h : (serverSystem.step s e s' ∧ s.Recorded) ∧ NoEarlierReply s e) =>
        ⟨recorded_step s s' hs.1 e h.1.1, namesFit_step s s' hs.1 hs.2 e h.1.1 h.2.2⟩)
      s₀ p ⟨recorded_init s₀ hrun.1, hinit⟩ hboth
    exact along_imp _ _ (fun _ _ _ h => h.1) s₀ p hinv.1
  refine along_imp _ _ ?_ s₀ p
    ((along_and _ _ s₀ p).mpr ⟨hfit, along_submits id s₀ p hrun hclear⟩)
  rintro s e s' ⟨⟨hrec, hnames⟩, hsub⟩
  refine ⟨fun i mem rssl msg job _ hget => ?_, fun job handle token h => ?_⟩
  · have hmem := List.mem_of_getElem? hget
    rw [hrec.requests msg job hmem]
    exact asksFor_image job.request (hnames msg job hmem)
  · obtain ⟨j, hj, hf, -⟩ := hsub job handle token h
    rw [hj, show j = job from hf]

/-- Another item on the same token. -/
def otherItem : InMsg :=
  { InMsg.plain .request .marketPrice 5 with
    msgKey := ⟨{}, 0, .other 0, [119], fun _ => 0, {}, .noData⟩ }

/-- "u" is answered, and then "w" is asked for on its token. -/
def askedInTurn : List Input :=
  connectAndAsk ++ answer ++ hears otherItem :: answer

/-- "u" is closed before its answer comes, and "w" is asked for on its token. -/
def tokenReused : List Input :=
  connectAndAsk ++ [hears (.plain .close .marketPrice 5), hears otherItem] ++ answer

section Replay

set_option maxRecDepth 20000

theorem askedInTurn_fresh :
    ∃ p, replay Server.step idle askedInTurn = some p
      ∧ Along (fun s e _ => Fresh s e) idle p := by
  refine ⟨_, rfl, replies_fresh idle _
    (run_replay _ Server.step idle askedInTurn _ idle_init rfl) ?_⟩
  refine ⟨⟨nofun, nofun⟩, ⟨nofun, nofun⟩, ⟨?_, ?_⟩, ⟨nofun, nofun⟩, ⟨nofun, nofun⟩, ⟨?_, ?_⟩,
    ⟨nofun, nofun⟩, ⟨nofun, nofun⟩, trivial⟩
  · exact fun _ _ j hj => absurd hj List.not_mem_nil
  · exact fun job hjob => Option.some.inj hjob ▸ by decide
  · exact fun _ _ j hj => absurd hj List.not_mem_nil
  · exact fun job hjob => Option.some.inj hjob ▸ by decide

/-- The answer for "u" is submitted for "w". -/
theorem tokenReused_stale :
    ∃ p, serverSystem.Run idle p ∧ replay Server.step idle tokenReused = some p
      ∧ ¬ Along (fun s e _ => Fresh s e) idle p := by
  refine ⟨_, run_replay _ Server.step idle tokenReused _ idle_init rfl, rfl, fun h => ?_⟩
  have hread := h.2.2.2.2.2.2.1.2
    ⟨0, 0, itemRequest clearSession (.plain .request .marketPrice 5) none⟩ 0x7f00 5
    ⟨0, _, _, _, _, _, _, rfl, rfl, rfl, rfl, rfl, rfl⟩
  exact absurd hread (by decide)

end Replay

end Server

end Hitsuji
