import Hitsuji.Pipeline.Server

set_option autoImplicit false

/-! # Replies reach the request they answer

The server routes replies by a reusable key, channel pointer and token, and so is an instance of
`Routing`: a key is open while its token is on the watchlist of the client at its address, and
stands for the request last accepted on it. What a job is compared by is a parameter: its session
for the isolation of sessions, the job itself for freshness within a session. -/

namespace Hitsuji

open ByteBuffer Transition

namespace Server

/-! ## What the record says -/

/-- The record fits the messages in flight and the watchlists; a client that a message can reach is
    that of the session last accepted at its address. -/
structure Recorded (s : Server) : Prop where
  handle : ∀ h c, s.provider.clients h = some c → c.handle = h
  requests : ∀ msg j, (msg, j) ∈ s.requests → msg = requestImage j.request
  replies : ∀ msg j, (msg, j) ∈ s.replies → ∃ rssl : RsslBuf,
    msg = replyImage j.request.handle j.request.token rssl.length rssl.payload
  latest : ∀ h c t, s.provider.clients h = some c → t ∈ c.tokens →
    ∃ j, s.latest h t = some j ∧ (h ∉ s.dangling → j.session = s.session h)

/-- The channel and token of the item request a step accepts. -/
def acceptedKey (s : Server) : Input → Option (UInt64 × Int32)
  | .client handle env _ input =>
      (s.provider.clients handle).bind fun c => Call.acceptedKey c (s.callOf handle env input)
  | _ => none

/-- The job a step adds. -/
def newJob (s : Server) : Input → Option Job
  | .client handle env _ input =>
      (s.provider.clients handle).bind fun c =>
        ((s.callOf handle env input).run c).bind fun d =>
          (Hitsuji.requests d.events).head?.map fun r => ⟨s.session r.handle, s.nextSeq, r⟩
  | _ => none

/-! ## The server as a router -/

variable {τ : Type}

/-- What an open key stands for. -/
def opened (f : Job → τ) (s : Server) (key : UInt64 × Int32) : Option τ :=
  (s.provider.clients key.1).bind fun c =>
    if key.2 ∈ c.tokens then (s.latest key.1 key.2).map f else none

/-- The routing state, jobs compared by `f`. -/
def routing (f : Job → τ) (s : Server) : Routing.State (UInt64 × Int32) τ where
  opened := s.opened f
  pending := s.outstanding.map fun j => (j.request.key, f j)

theorem opened_eq_some (f : Job → τ) (s : Server) (key : UInt64 × Int32) (t : τ) :
    s.opened f key = some t ↔ ∃ c j, s.provider.clients key.1 = some c ∧ key.2 ∈ c.tokens
      ∧ s.latest key.1 key.2 = some j ∧ f j = t := by
  unfold opened
  constructor
  · intro h
    obtain ⟨c, hc, htok⟩ := Option.bind_eq_some_iff.mp h
    split at htok
    · next hmem =>
        obtain ⟨j, hj, hf⟩ := Option.map_eq_some_iff.mp htok
        exact ⟨c, j, hc, hmem, hj, hf⟩
    · exact absurd htok (by simp)
  · rintro ⟨c, j, hc, hmem, hj, rfl⟩
    rw [hc, Option.bind_some, if_pos hmem, hj, Option.map_some]

theorem mem_pending (f : Job → τ) (s : Server) (key : UInt64 × Int32) (t : τ) :
    (key, t) ∈ (s.routing f).pending ↔ ∃ j ∈ s.outstanding, j.request.key = key ∧ f j = t := by
  simp only [routing, List.mem_map, Prod.mk.injEq]

theorem mem_outstanding (s : Server) (j : Job) :
    j ∈ s.outstanding ↔ (∃ msg, (msg, j) ∈ s.requests) ∨ ∃ msg, (msg, j) ∈ s.replies := by
  simp only [outstanding, List.mem_map, List.mem_append, Prod.exists, exists_eq_right, exists_or]

/-! ## Steps that accept no request -/

/-- Watchlists shrink or start empty, requests only disappear, and a reply that appears answers a
    request. -/
structure Closes (s s' : Server) : Prop where
  clients : ∀ h c', s'.provider.clients h = some c' → c'.handle = h ∧ (c'.tokens = ∅
    ∨ ∃ c, s.provider.clients h = some c ∧ c'.tokens ⊆ c.tokens ∧ s'.latest h = s.latest h
      ∧ (h ∉ s'.dangling → h ∉ s.dangling ∧ s'.session h = s.session h))
  requests : s'.requests ⊆ s.requests
  replies : ∀ msg j, (msg, j) ∈ s'.replies → (msg, j) ∈ s.replies
    ∨ (∃ req, (req, j) ∈ s.requests) ∧ ∃ rssl : RsslBuf,
      msg = replyImage j.request.handle j.request.token rssl.length rssl.payload

theorem outstanding_of_closes (s s' : Server) (h : Closes s s') (j : Job)
    (hj : j ∈ s'.outstanding) : j ∈ s.outstanding := by
  rw [mem_outstanding] at hj ⊢
  rcases hj with ⟨msg, hmsg⟩ | ⟨msg, hmsg⟩
  · exact .inl ⟨msg, h.requests hmsg⟩
  · rcases h.replies msg j hmsg with hold | ⟨hreq, -⟩
    · exact .inr ⟨msg, hold⟩
    · exact .inl hreq

theorem recorded_of_closes (s s' : Server) (hrec : s.Recorded) (h : Closes s s') :
    s'.Recorded where
  handle a c' hc' := (h.clients a c' hc').1
  requests msg j hmem := hrec.requests msg j (h.requests hmem)
  replies msg j hmem := by
    rcases h.replies msg j hmem with hold | ⟨-, himage⟩
    · exact hrec.replies msg j hold
    · exact himage
  latest a c' t hc' ht := by
    rcases (h.clients a c' hc').2 with hempty | ⟨c, hc, hsub, hlatest, hsession⟩
    · rw [hempty] at ht
      exact absurd ht (Finset.notMem_empty t)
    · obtain ⟨j, hj, howner⟩ := hrec.latest a c t hc (hsub ht)
      refine ⟨j, hlatest ▸ hj, fun hlinked => ?_⟩
      obtain ⟨hbefore, hsame⟩ := hsession hlinked
      exact (howner hbefore).trans hsame.symm

theorem routing_of_closes (f : Job → τ) (s s' : Server) (h : Closes s s') :
    Routing.Step (s.routing f) none (s'.routing f) := by
  refine ⟨fun key t hopen => ?_, fun x hx => ?_⟩
  · obtain ⟨c', j, hc', hmem, hj, hf⟩ := (opened_eq_some f s' key t).mp hopen
    refine (opened_eq_some f s key t).mpr ?_
    rcases (h.clients key.1 c' hc').2 with hempty | ⟨c, hc, hsub, hlatest, -⟩
    · rw [hempty] at hmem
      exact absurd hmem (Finset.notMem_empty _)
    · exact ⟨c, j, hc, hsub hmem, hlatest ▸ hj, hf⟩
  · obtain ⟨key, t⟩ := x
    obtain ⟨j, hj, hkey, hf⟩ := (mem_pending f s' key t).mp hx
    exact (mem_pending f s key t).mpr ⟨j, outstanding_of_closes s s' h j hj, hkey, hf⟩

/-- Only the clients change, and each keeps its address and gains no token. -/
theorem closes_of_clients (s : Server) (hrec : s.Recorded) (p : Provider) (handle : UInt64)
    (c c' : Client) (hc : s.provider.clients handle = some c) (hhandle : c'.handle = handle)
    (hsub : c'.tokens ⊆ c.tokens)
    (hp : p.clients = Function.update s.provider.clients handle (some c')) :
    Closes s { s with provider := p } where
  clients h c'' hc'' := by
    simp only [hp, Function.update_apply] at hc''
    split at hc''
    · next heq =>
        obtain rfl := Option.some.inj hc''
        subst heq
        exact ⟨hhandle, .inr ⟨c, hc, hsub, rfl, fun hlinked => ⟨hlinked, rfl⟩⟩⟩
    · exact ⟨hrec.handle h c'' hc'',
        .inr ⟨c'', hc'', fun _ ht => ht, rfl, fun hlinked => ⟨hlinked, rfl⟩⟩⟩
  requests _ hmem := hmem
  replies _ _ hmem := .inl hmem

/-- The clients stay as they are. -/
theorem closes_of_messages (s s' : Server) (hrec : s.Recorded)
    (hclients : s'.provider.clients = s.provider.clients) (hdangling : s'.dangling = s.dangling)
    (hlatest : s'.latest = s.latest) (hsession : s'.session = s.session)
    (hrequests : s'.requests ⊆ s.requests)
    (hreplies : ∀ msg j, (msg, j) ∈ s'.replies → (msg, j) ∈ s.replies
      ∨ (∃ req, (req, j) ∈ s.requests) ∧ ∃ rssl : RsslBuf,
        msg = replyImage j.request.handle j.request.token rssl.length rssl.payload) :
    Closes s s' where
  clients h c hc := by
    rw [hclients] at hc
    refine ⟨hrec.handle h c hc, .inr ⟨c, hc, fun _ ht => ht, by rw [hlatest], fun hlinked => ?_⟩⟩
    rw [hdangling] at hlinked
    exact ⟨hlinked, by rw [hsession]⟩
  requests := hrequests
  replies := hreplies

/-- A new client has an empty watchlist; one that is kept is out of reach of messages. -/
theorem closes_accept (s : Server) (hrec : s.Recorded) (handle : UInt64) (channel : Channel)
    (directoryToken : Int32) : Closes s (s.accept handle channel directoryToken) := by
  refine ⟨fun a c' hc' => ?_, fun _ hmem => hmem, fun _ _ hmem => .inl hmem⟩
  simp only [accept, Provider.acceptClientSession, Function.update_apply] at hc' ⊢
  split at hc'
  · next heq =>
      subst heq
      cases hc : s.provider.clients a with
      | none =>
          rw [hc, Option.getD_none] at hc'
          obtain rfl := Option.some.inj hc'
          exact ⟨rfl, .inl rfl⟩
      | some c =>
          rw [hc, Option.getD_some] at hc'
          obtain rfl := Option.some.inj hc'
          refine ⟨hrec.handle a c hc, .inr ⟨c, rfl, fun _ ht => ht, ?_, fun hlinked => ?_⟩⟩
          · rfl
          · exact absurd (Finset.mem_insert_self a s.dangling) hlinked
  · next hne =>
      refine ⟨hrec.handle a c' hc', .inr ⟨c', hc', fun _ ht => ht, ?_, fun hlinked => ?_⟩⟩
      · split
        · rfl
        · exact Function.update_of_ne hne _ _
      · refine ⟨?_, if_neg hne⟩
        split at hlinked
        · exact fun hold => hlinked (Finset.mem_insert_of_mem hold)
        · exact fun hold => hlinked (Finset.mem_erase.mpr ⟨hne, hold⟩)

theorem closes_disconnect (s : Server) (hrec : s.Recorded) (handle : UInt64) :
    Closes s { s with provider := s.provider.disconnect handle } where
  clients h c hc := by
    simp only [Provider.disconnect, Function.update_apply] at hc
    split at hc
    · exact absurd hc (by simp)
    · exact ⟨hrec.handle h c hc,
        .inr ⟨c, hc, fun _ ht => ht, rfl, fun hlinked => ⟨hlinked, rfl⟩⟩⟩
  requests _ hmem := hmem
  replies _ _ hmem := .inl hmem

/-- A worker answers the channel and token it was asked on. -/
theorem workerReply_image (mem : Nat → UInt8) (rssl : RsslBuf) (r : ItemRequest) :
    workerReply mem rssl (requestImage r)
      = some (replyImage r.handle r.token rssl.length rssl.payload) := by
  simp only [workerReply, decodeRequest_image, encodeReply_eq, Except.toOption]

theorem closes_worker (s s' : Server) (hrec : s.Recorded) (i : Nat) (mem : Nat → UInt8)
    (rssl : RsslBuf) (h : s.worker i mem rssl = some s') : Closes s s' := by
  unfold worker at h
  split at h
  · exact absurd h (by simp)
  next msg job hget =>
  have hmem := List.mem_of_getElem? hget
  -- the message is the image of the recorded request, so its handle and token come back
  rw [hrec.requests msg job hmem, workerReply_image] at h
  obtain rfl := Option.some.inj h
  refine closes_of_messages s _ hrec rfl rfl rfl rfl (List.eraseIdx_subset) fun msg' j hin => ?_
  rcases List.mem_append.mp hin with hold | hnew
  · exact .inl hold
  · obtain ⟨rfl, rfl⟩ := Prod.mk.inj (List.mem_singleton.mp hnew)
    exact .inr ⟨⟨msg, hmem⟩, rssl, rfl⟩

/-- What sending a reply leaves of a client. -/
theorem sendReply_client (env : Env) (s : Session) (token : Int32) (data : Bytes) (d : Done)
    (h : s.sendReply env token data = some d) :
    d.session.client.handle = s.client.handle ∧ d.session.client.tokens ⊆ s.client.tokens := by
  have hstreams := sendReply_streams env s token data d h
  refine ⟨congrArg Streams.handle hstreams, ?_⟩
  have htokens : d.session.client.tokens = s.client.tokens.erase token :=
    congrArg Streams.tokens hstreams
  rw [htokens]
  exact Finset.erase_subset token s.client.tokens

theorem closes_reply (s s' : Server) (hrec : s.Recorded) (i : Nat) (env : Env) (z : ReadEnv)
    (h : s.reply i env z = some s') : Closes s s' := by
  unfold reply at h
  split at h
  · exact absurd h (by simp)
  next msg job hget =>
  split at h
  · exact absurd h (by simp)
  next p events hread =>
  obtain rfl := Option.some.inj h
  obtain ⟨rssl, rfl⟩ := hrec.replies msg job (List.mem_of_getElem? hget)
  have hclients : Closes s { s with provider := p } := by
    rcases (Provider.onReplySocket_spec env z s.provider p _ _ rssl events hread).2 with
      ⟨hsame, -⟩ | ⟨c, data, d, hc, -, hd, hupd, -⟩
    · exact closes_of_messages s _ hrec hsame rfl rfl rfl (fun _ hx => hx)
        fun _ _ hx => .inl hx
    · obtain ⟨hhandle, hsub⟩ := sendReply_client env _ _ _ d hd
      exact closes_of_clients s hrec p _ c _ hc (hhandle.trans (hrec.handle _ c hc)) hsub hupd
  refine ⟨hclients.clients, hclients.requests, fun msg' j hin => .inl ?_⟩
  simp only at hin
  split at hin
  · exact List.eraseIdx_subset hin
  · exact hin

/-! ## Steps of a client -/

/-- The server after an accepted request. -/
def withJob (s : Server) (env : Env) (p : Provider) (r : ItemRequest) : Server :=
  { s with
    provider := p
    requests := if env.onRequest
      then s.requests ++ [(requestImage r, ⟨s.session r.handle, s.nextSeq, r⟩)] else s.requests
    latest := Function.update s.latest r.handle
      (Function.update (s.latest r.handle) r.token (some ⟨s.session r.handle, s.nextSeq, r⟩))
    nextSeq := s.nextSeq + 1 }

/-- What a step of a client does, by whether it accepts a request. -/
theorem client_spec (s s' : Server) (hrec : s.Recorded) (handle : UInt64) (env : Env)
    (mem : Nat → UInt8) (input : Hitsuji.Input) (h : s.client handle env mem input = some s') :
    ∃ c c' p, s.provider.clients handle = some c ∧ c'.handle = handle
      ∧ p.clients = Function.update s.provider.clients handle (some c')
      ∧ ((s.newJob (.client handle env mem input) = none
          ∧ s.acceptedKey (.client handle env mem input) = none
          ∧ c'.tokens ⊆ c.tokens ∧ s' = { s with provider := p })
        ∨ ∃ r, s.newJob (.client handle env mem input) = some ⟨s.session handle, s.nextSeq, r⟩
          ∧ s.acceptedKey (.client handle env mem input) = some (handle, r.token)
          ∧ r.handle = handle ∧ handle ∉ s.dangling ∧ r.token ∉ c.tokens
          ∧ c'.tokens = insert r.token c.tokens ∧ s' = s.withJob env p r) := by
  unfold client at h
  split at h
  · exact absurd h (by simp)
  next c hc =>
  split at h
  · exact absurd h (by simp)
  split at h
  · exact absurd h (by simp)
  next hlinked =>
  split at h
  · exact absurd h (by simp)
  next d hd =>
  have hhandle := run_handle _ c d hd
  have hkeys := run_requests _ c d hd
  have hnext : Call.next c (s.callOf handle env input) = some d.session.client :=
    (next_eq_some _ _ _).mpr ⟨d, hd, rfl⟩
  refine ⟨c, d.session.client, s.provider.afterCall handle input d, hc,
    hhandle.trans (hrec.handle handle c hc), s.provider.afterCall_clients handle input d, ?_⟩
  simp only at h
  simp only [newJob, acceptedKey, hc, hd, Option.bind_some]
  cases hacc : Call.accepted c (s.callOf handle env input) with
  | none =>
      left
      simp only [Call.acceptedKey, hacc, Option.map_none, Option.toList_none, List.map_eq_nil_iff]
        at hkeys ⊢
      simp only [hkeys] at h ⊢
      refine ⟨rfl, trivial, fun t ht => ?_, (Option.some.inj h).symm⟩
      rcases mem_tokens_next c _ _ t hnext ht with hold | hnew
      · exact hold
      · rw [accepts, hacc] at hnew
        exact absurd hnew (by simp)
  | some token =>
      right
      obtain ⟨hfresh, htokens⟩ := tokens_of_accepted c _ _ token hnext hacc
      simp only [Call.acceptedKey, hacc, Option.map_some, Option.toList_some] at hkeys ⊢
      obtain ⟨r, hr, hkey⟩ := List.map_eq_singleton_iff.mp hkeys
      obtain ⟨hrh, rfl⟩ := Prod.mk.inj hkey
      have hrhandle : r.handle = handle := hrh.trans (hrec.handle handle c hc)
      simp only [hr, dispatch, encodeRequest_eq] at h
      have hmsg := isMsg_of_accepted c _ r.token hacc
      refine ⟨r, ?_, ?_, hrhandle, fun hdangling => hlinked ⟨hmsg, hdangling⟩, hfresh, htokens,
        (Option.some.inj h).symm⟩
      · simp only [hr, List.head?_cons, Option.map_some, hrhandle]
      · rw [hrec.handle handle c hc]

/-! ## Every step -/

/-- A step accepts a request of the client at its address, or accepts none. -/
theorem step_cases (s s' : Server) (hrec : s.Recorded) (e : Input) (h : s.step e = some s') :
    (s.newJob e = none ∧ s.acceptedKey e = none ∧ Closes s s')
      ∨ ∃ env p c c' r, s.newJob e = some ⟨s.session r.handle, s.nextSeq, r⟩
        ∧ s.acceptedKey e = some r.key ∧ s.provider.clients r.handle = some c
        ∧ r.handle ∉ s.dangling ∧ r.token ∉ c.tokens ∧ c'.tokens = insert r.token c.tokens
        ∧ c'.handle = r.handle
        ∧ p.clients = Function.update s.provider.clients r.handle (some c')
        ∧ s' = s.withJob env p r := by
  cases e with
  | accept handle channel directoryToken =>
      obtain rfl := Option.some.inj h
      exact .inl ⟨rfl, rfl, closes_accept s hrec handle channel directoryToken⟩
  | disconnect handle =>
      obtain rfl := Option.some.inj h
      exact .inl ⟨rfl, rfl, closes_disconnect s hrec handle⟩
  | client handle env mem input =>
      obtain ⟨c, c', p, hc, hhandle, hp, ⟨hjob, hkey, hsub, rfl⟩ | hacc⟩ :=
        client_spec s s' hrec handle env mem input h
      · exact .inl ⟨hjob, hkey, closes_of_clients s hrec p handle c c' hc hhandle hsub hp⟩
      · obtain ⟨r, hjob, hkey, rfl, hlinked, hfresh, htokens, rfl⟩ := hacc
        exact .inr ⟨env, p, c, c', r, hjob, hkey, hc, hlinked, hfresh, htokens, hhandle, hp, rfl⟩
  | worker i mem rssl => exact .inl ⟨rfl, rfl, closes_worker s s' hrec i mem rssl h⟩
  | workerStops i =>
      obtain rfl := Option.some.inj h
      exact .inl ⟨rfl, rfl, closes_of_messages s _ hrec rfl rfl rfl rfl List.eraseIdx_subset
        fun _ _ hx => .inl hx⟩
  | reply i env z => exact .inl ⟨rfl, rfl, closes_reply s s' hrec i env z h⟩
  | drift channels view outRfds outWfds outEfds =>
      obtain rfl := Option.some.inj h
      exact .inl ⟨rfl, rfl, closes_of_messages s _ hrec rfl rfl rfl rfl (fun _ hx => hx)
        fun _ _ hx => .inl hx⟩

theorem recorded_init (s : Server) (h : Initial s) : s.Recorded := by
  obtain ⟨hclients, hrequests, hreplies⟩ := h
  refine ⟨fun a c hc => ?_, fun msg j hmem => ?_, fun msg j hmem => ?_, fun a c t hc => ?_⟩
  · rw [hclients] at hc
    exact absurd hc (by simp)
  · rw [hrequests] at hmem
    exact absurd hmem List.not_mem_nil
  · rw [hreplies] at hmem
    exact absurd hmem List.not_mem_nil
  · rw [hclients] at hc
    exact absurd hc (by simp)

theorem recorded_step (s s' : Server) (hrec : s.Recorded) (e : Input) (h : s.step e = some s') :
    s'.Recorded := by
  rcases step_cases s s' hrec e h with ⟨-, -, hcloses⟩ | hacc
  · exact recorded_of_closes s s' hrec hcloses
  obtain ⟨env, p, c, c', r, -, -, hc, -, -, htokens, hhandle, hp, rfl⟩ := hacc
  refine ⟨fun a b hb => ?_, fun msg j hmem => ?_, hrec.replies, fun a b t hb ht => ?_⟩
  · simp only [withJob, hp, Function.update_apply] at hb
    split at hb
    · next heq =>
        obtain rfl := Option.some.inj hb
        exact hhandle.trans heq.symm
    · exact hrec.handle a b hb
  · simp only [withJob] at hmem
    split at hmem
    · rcases List.mem_append.mp hmem with hold | hnew
      · exact hrec.requests msg j hold
      · obtain ⟨rfl, rfl⟩ := Prod.mk.inj (List.mem_singleton.mp hnew)
        rfl
    · exact hrec.requests msg j hmem
  · simp only [withJob, hp, Function.update_apply] at hb ⊢
    split at hb
    · next heq =>
        obtain rfl := Option.some.inj hb
        subst heq
        rw [if_pos rfl, Function.update_apply]
        split
        · exact ⟨_, rfl, fun _ => rfl⟩
        · next hne =>
            rw [htokens] at ht
            exact hrec.latest _ c t hc ((Finset.mem_insert.mp ht).resolve_left hne)
    · next hne =>
        rw [if_neg hne]
        exact hrec.latest a b t hb ht

/-- The routing keys an input opens, with what they stand for. -/
def label (f : Job → τ) (s : Server) (e : Input) : Option ((UInt64 × Int32) × τ) :=
  (s.newJob e).map fun j => (j.request.key, f j)

/-- **The server routes replies by the key of the request.** -/
theorem routing_step (f : Job → τ) (s s' : Server) (hrec : s.Recorded) (e : Input)
    (h : s.step e = some s') : Routing.Step (s.routing f) (s.label f e) (s'.routing f) := by
  rcases step_cases s s' hrec e h with ⟨hjob, -, hcloses⟩ | hacc
  · rw [label, hjob]
    exact routing_of_closes f s s' hcloses
  obtain ⟨env, p, c, c', r, hjob, -, hc, -, -, htokens, -, hp, rfl⟩ := hacc
  rw [label, hjob]
  refine ⟨?_, fun key t hne hopen => ?_, fun x hx => ?_⟩
  · refine (opened_eq_some f _ r.key _).mpr ⟨c', _, ?_, ?_, ?_, rfl⟩
    · simp only [withJob, hp, ItemRequest.key, Function.update_self]
    · rw [htokens]
      exact Finset.mem_insert_self r.token c.tokens
    · simp only [withJob, ItemRequest.key, Function.update_self]
  · obtain ⟨b, j, hb, hmem, hj, hf⟩ := (opened_eq_some f _ key t).mp hopen
    refine (opened_eq_some f s key t).mpr ?_
    simp only [withJob, hp, Function.update_apply] at hb hj
    split at hb
    · next heq =>
        obtain rfl := Option.some.inj hb
        have htoken : key.2 ≠ r.token := fun h₂ => hne (Prod.ext heq h₂)
        rw [if_pos heq, Function.update_apply, if_neg htoken] at hj
        rw [htokens] at hmem
        rw [← heq] at hj hc
        exact ⟨c, j, hc, (Finset.mem_insert.mp hmem).resolve_left htoken, hj, hf⟩
    · next hout =>
        rw [if_neg hout] at hj
        exact ⟨b, j, hb, hmem, hj, hf⟩
  · obtain ⟨key, t⟩ := x
    obtain ⟨j, hj, hkey, hf⟩ := (mem_pending f _ key t).mp hx
    simp only [outstanding, withJob, List.map_append, List.mem_append] at hj
    rcases hj with hreq | hrep
    · split at hreq
      · rw [List.map_append] at hreq
        rcases List.mem_append.mp hreq with hold | hnew
        · refine .inl ((mem_pending f s key t).mpr ⟨j, ?_, hkey, hf⟩)
          rw [outstanding, List.map_append]
          exact List.mem_append_left _ hold
        · obtain rfl := List.mem_singleton.mp hnew
          exact .inr (by rw [← hkey, ← hf])
      · refine .inl ((mem_pending f s key t).mpr ⟨j, ?_, hkey, hf⟩)
        rw [outstanding, List.map_append]
        exact List.mem_append_left _ hreq
    · refine .inl ((mem_pending f s key t).mpr ⟨j, ?_, hkey, hf⟩)
      rw [outstanding, List.map_append]
      exact List.mem_append_right _ hrep

end Server

end Hitsuji
