import Hitsuji.Client.Writes
import Hitsuji.Pipeline.Isolation

set_option autoImplicit false

/-! # No accepted request is dropped

`SendReply` takes the token off the watchlist before it asks for a buffer, and nothing up the chain
`OnReply`, `OnRead`, `DoWork` acts on its failure. So a reply that RSSL does not take is lost,
unless the connection is being aborted anyway. -/

namespace Hitsuji

open ByteBuffer Transition

/-! ## What RSSL accepted -/

/-- The events hand a response on `token` over to RSSL. -/
def HandsOver (token : Int32) (events : List Event) : Prop :=
  ∃ data direct rc, Event.writeEx (.reply token data) direct rc ∈ events ∧ rc.accepted = true

theorem handsOver_submitOrRelease (env : Env) (s : Session) (token : Int32) (data : Bytes) :
    HandsOver token (s.submitOrRelease env (.reply token data)).events ↔
      env.writes.last.accepted = true := by
  have hrelease : ∀ b : Prop, [Decidable b] → ∀ out direct rc, Event.writeEx out direct rc ∉
      (if b then [] else [Event.releaseBuffer]) := by
    intro b _ out direct rc
    split <;> simp
  rw [submitOrRelease_eq]
  constructor
  · rintro ⟨data', direct, rc, hmem, hacc⟩
    simp only [List.cons_append, List.mem_cons, List.mem_append, reduceCtorEq, false_or,
      hrelease, or_false, mem_writeCalls] at hmem
    rcases hmem.2.2 with rfl | ⟨-, rfl⟩
    · exact hacc
    · exact absurd hacc (by decide)
  · intro hacc
    refine ⟨data, decide (s.channel.socketId ∉ s.provider.inWfds), env.writes.last, ?_, hacc⟩
    rw [List.cons_append]
    exact List.mem_cons_of_mem _ (List.mem_append_left _
      ((mem_writeCalls _ _ _ _ _ _ _).mpr ⟨rfl, rfl, .inl rfl⟩))

/-- A reply on the watchlist is handed over if there is a buffer and RSSL accepts it. -/
theorem handsOver_sendReply (env : Env) (s : Session) (token : Int32) (data : Bytes) (d : Done)
    (hmem : token ∈ s.client.tokens) (h : s.sendReply env token data = some d) :
    HandsOver token d.events ↔ env.getBuffer = true ∧ env.writes.last.accepted = true := by
  rcases sendReply_cases env s token data d h with ⟨hnot, -⟩ | ⟨-, hbuf, rfl⟩ | ⟨-, hbuf, rfl⟩
  · exact absurd hmem hnot
  · rw [handsOver_submitOrRelease]
    exact (and_iff_right hbuf).symm
  · simp [HandsOver, hbuf]

namespace Server

/-! ## One reply -/

/-- A token that reading a reply takes off the watchlist of a connected session is answered, unless
    the connection is marked for abort. -/
def NotDropped (s : Server) (e : Input) : Prop :=
  ∀ i env z msg job p events, e = .reply i env z → s.replies[i]? = some (msg, job) →
    s.provider.onReplySocket env z msg = some (p, events) →
    ∀ handle c c' token, s.provider.clients handle = some c → p.clients handle = some c' →
      token ∈ c.tokens → token ∉ c'.tokens →
      HandsOver token events ∨ (s.provider.channels handle).socketId ∈ p.outEfds

/-- RSSL has a buffer for the reply that is read and accepts it, if its token is still on the
    watchlist of a session that is not marked for abort. -/
def RsslAccepts (s : Server) (e : Input) : Prop :=
  ∀ i env z msg job view c, e = .reply i env z → s.replies[i]? = some (msg, job) →
    z.receives = true → decodeReply .lengthFirst msg = .ok view →
    s.provider.clients view.handle = some c → view.token ∈ c.tokens →
    (s.provider.channels view.handle).socketId ∉ s.provider.outEfds →
    env.getBuffer = true ∧ env.writes.last.accepted = true

theorem notDropped_iff (s s' : Server) (hrec : s.Recorded) (e : Input) (h : s.step e = some s') :
    s.NotDropped e ↔ s.RsslAccepts e := by
  constructor
  · intro hkeep i env z msg job view c he hget hrecv hview hc hmem hefds
    subst he
    obtain ⟨rssl, rfl⟩ := hrec.replies msg job (List.mem_of_getElem? hget)
    rw [decodeReply_image] at hview
    obtain rfl := Except.ok.inj hview
    simp only [step, reply, hget] at h
    split at h
    · exact absurd h (by simp)
    next p events hread =>
    obtain ⟨hout, ⟨-, -, hnone⟩ | ⟨c₁, data, d, hc₁, -, hd, hupd, rfl⟩⟩ :=
      Provider.onReplySocket_spec env z s.provider p _ _ rssl events hread
    · rw [hnone hrecv] at hc
      exact absurd hc (by simp)
    obtain rfl := Option.some.inj (hc₁.symm.trans hc)
    have htokens : d.session.client.tokens = c₁.tokens.erase job.request.token :=
      congrArg Streams.tokens (sendReply_streams env _ _ data d hd)
    have hgone : job.request.token ∉ d.session.client.tokens := by
      rw [htokens]
      exact Finset.notMem_erase _ _
    -- the token went, so either the reply was handed over or the connection was aborted before
    rcases hkeep i env z _ job p _ rfl hget hread _ c₁ d.session.client job.request.token hc
      (by rw [hupd, Function.update_self]) hmem hgone with hover | habort
    · exact (handsOver_sendReply env _ _ data d hmem hd).mp hover
    · rw [hout] at habort
      exact absurd habort hefds
  · intro hacc i env z msg job p events he hget hread handle c c' token hc hc' hmem hgone
    obtain ⟨rssl, rfl⟩ := hrec.replies msg job (List.mem_of_getElem? hget)
    obtain ⟨hout, ⟨hsame, -, -⟩ | ⟨c₁, data, d, hc₁, hrecv, hd, hupd, rfl⟩⟩ :=
      Provider.onReplySocket_spec env z s.provider p _ _ rssl events hread
    · rw [hsame, hc] at hc'
      obtain rfl := Option.some.inj hc'
      exact absurd hmem hgone
    by_cases hhandle : handle = job.request.handle
    · subst hhandle
      obtain rfl := Option.some.inj (hc₁.symm.trans hc)
      rw [hupd, Function.update_self] at hc'
      obtain rfl := Option.some.inj hc'
      have htokens : d.session.client.tokens = c₁.tokens.erase job.request.token :=
        congrArg Streams.tokens (sendReply_streams env _ _ data d hd)
      -- the only token a reply removes is its own
      obtain rfl : token = job.request.token := by
        by_contra hne
        exact hgone (htokens ▸ Finset.mem_erase.mpr ⟨hne, hmem⟩)
      by_cases hefds : (s.provider.channels job.request.handle).socketId ∈ s.provider.outEfds
      · exact .inr (hout ▸ hefds)
      · exact .inl ((handsOver_sendReply env _ _ data d hmem hd).mpr
          (hacc i env z _ job _ c₁ he hget hrecv (decodeReply_image _ _ rssl) hc hmem hefds))
    · rw [hupd, Function.update_of_ne hhandle, hc] at hc'
      obtain rfl := Option.some.inj hc'
      exact absurd hmem hgone

/-! ## Whole runs -/

/-- **No accepted request is dropped in a run exactly when RSSL has a buffer for every reply read
    for an open request and accepts it, connections marked for abort aside.** -/
theorem nothing_dropped_iff (s₀ : Server) (p : Steps Server Input)
    (hrun : serverSystem.Run s₀ p) :
    Along (fun s e _ => s.NotDropped e) s₀ p ↔ Along (fun s e _ => s.RsslAccepts e) s₀ p :=
  along_congr _ _ _ (fun s e s' h => notDropped_iff s s' h.2 e h.1) s₀ p (along_recorded s₀ p hrun)

/-- One request, answered. -/
def askedOnce : List Input :=
  connectAndAsk ++ answer

/-- The buffer pool is empty when the reply is read. -/
def poolEmpty : List Input :=
  connectAndAsk ++ [.worker 0 (fun _ => 0) emptyReply,
    .reply 0 { willingEnv with getBuffer := false } ⟨some true, true, true, true, some false⟩]

section Replay

set_option maxRecDepth 20000

theorem askedOnce_answered :
    ∃ p, replay Server.step idle askedOnce = some p
      ∧ Along (fun s e _ => s.NotDropped e) idle p := by
  refine ⟨_, rfl, (nothing_dropped_iff idle _
    (run_replay _ Server.step idle askedOnce _ idle_init rfl)).mpr ?_⟩
  refine ⟨?_, ?_, ?_, ?_, ?_, trivial⟩
  iterate 4 exact fun _ _ _ _ _ _ _ he => nomatch he
  rintro i env z msg job view c he - - - - - -
  obtain ⟨-, rfl, -⟩ := Input.reply.inj he
  exact ⟨rfl, rfl⟩

/-- Token 5 leaves the watchlist, the consumer stays connected, and nothing is written. -/
theorem poolEmpty_drops :
    ∃ p, serverSystem.Run idle p ∧ replay Server.step idle poolEmpty = some p
      ∧ ¬ Along (fun s e _ => s.NotDropped e) idle p := by
  refine ⟨_, run_replay _ Server.step idle poolEmpty _ idle_init rfl, rfl, fun h => ?_⟩
  rcases h.2.2.2.2.1 0 _ _ _ _ _ _ rfl rfl rfl 0x7f00 _ _ 5 rfl rfl (Finset.mem_insert_self 5 ∅)
    (Finset.notMem_empty 5) with ⟨data, direct, rc, hmem, -⟩ | habort
  · change _ ∈ [Event.getBuffer false] at hmem
    exact absurd hmem (by simp)
  · exact absurd habort (Finset.notMem_empty _)

end Replay

end Server

end Hitsuji
