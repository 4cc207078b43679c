import Hitsuji.Client.Writes
import Hitsuji.Pipeline.Isolation
import Hitsuji.Pipeline.Workers
import Hitsuji.Worker.Meaning

set_option autoImplicit false

/-! # Requests and what is made of them

The pipeline with its workers: any number of them take requests out of the queue, in any order and
between any two steps of the main thread, and run `OnTask` on them. Each task meets a database and
an encoder of its own.

Next to the server and the workers, an `Exchange` keeps a record that no function of the code reads:
the requests accepted, those that could not be sent, the tasks carried out, and the requests whose
reply was read. -/

namespace Hitsuji

open ByteBuffer Transition

/-! ## What passes through the server -/

namespace Server

/-- The calls on RSSL of a step, each with its channel. -/
def written (s : Server) : Input → List (UInt64 × Event)
  | .client handle env _ input =>
      ((s.provider.clients handle).bind fun c => (s.callOf handle env input).run c).elim []
        fun d => d.events.map fun ev => (handle, ev)
  | .reply i env z =>
      (s.replies[i]?.bind fun (msg, _) =>
        (decodeReply .lengthFirst msg).toOption.bind fun view =>
          (s.provider.onReplySocket env z msg).map fun (_, events) =>
            events.map fun ev => (view.handle, ev)).getD []
  | _ => []

/-- The request a step accepts and cannot send. -/
def unsent (s : Server) (e : Input) : List Job :=
  match e with
  | .client _ env _ _ => if env.onRequest then [] else (s.newJob e).toList
  | _ => []

/-- The request whose reply a step takes out of the queue. -/
def received (s : Server) : Input → List Job
  | .reply i _ z => if z.receives then (s.replies[i]?.map Prod.snd).toList else []
  | _ => []

/-- The steps of the main thread. -/
def Input.isMain : Input → Bool
  | .worker _ _ _ | .workerStops _ => false
  | _ => true

/-- What a step of the main thread does to the queues. -/
structure Moves (s : Server) (e : Input) (s' : Server) : Prop where
  requests : (s.requests.map Prod.snd ++ (s.newJob e).toList).Perm
    (s'.requests.map Prod.snd ++ s.unsent e)
  replies : (s.replies.map Prod.snd).Perm (s'.replies.map Prod.snd ++ s.received e)
  kept : s'.replies ⊆ s.replies
  seq : (s.newJob e = none ∧ s'.nextSeq = s.nextSeq)
    ∨ ∃ j, s.newJob e = some j ∧ j.seq = s.nextSeq ∧ s'.nextSeq = s.nextSeq + 1

/-- The queues are left alone. -/
theorem moves_of_same (s s' : Server) (e : Input) (hrequests : s'.requests = s.requests)
    (hreplies : s'.replies = s.replies) (hseq : s'.nextSeq = s.nextSeq)
    (hnew : s.newJob e = none) (hunsent : s.unsent e = []) (hreceived : s.received e = []) :
    s.Moves e s' where
  requests := by rw [hrequests, hnew, hunsent, Option.toList_none]
  replies := by rw [hreplies, hreceived, List.append_nil]
  kept := by rw [hreplies]; exact List.Subset.refl _
  seq := .inl ⟨hnew, hseq⟩

theorem moves_client (s s' : Server) (hrec : s.Recorded) (handle : UInt64) (env : Env)
    (mem : Nat → UInt8) (input : Hitsuji.Input) (h : s.client handle env mem input = some s') :
    s.Moves (.client handle env mem input) s' := by
  obtain ⟨c, c', p, -, -, -, ⟨hnew, -, -, rfl⟩ | ⟨r, hnew, -, hhandle, -, -, -, rfl⟩⟩ :=
    client_spec s s' hrec handle env mem input h
  · refine moves_of_same s _ _ rfl rfl rfl hnew ?_ rfl
    simp only [unsent, hnew, Option.toList_none, ite_self]
  · have hjob : s.newJob (.client handle env mem input)
        = some ⟨s.session r.handle, s.nextSeq, r⟩ := by rw [hnew, hhandle]
    refine ⟨?_, ?_, List.Subset.refl _, .inr ⟨_, hjob, rfl, rfl⟩⟩
    · simp only [withJob, unsent, hjob, Option.toList_some]
      cases env.onRequest with
      | true => simp
      | false => simp
    · simp [withJob, received]

theorem moves_reply (s s' : Server) (i : Nat) (env : Env) (z : ReadEnv)
    (h : s.reply i env z = some s') : s.Moves (.reply i env z) s' := by
  unfold reply at h
  split at h
  · exact absurd h (by simp)
  next msg job hget =>
  split at h
  · exact absurd h (by simp)
  next p events hread =>
  obtain rfl := Option.some.inj h
  obtain ⟨hlt, hat⟩ := List.getElem?_eq_some_iff.mp hget
  refine ⟨?_, ?_, ?_, .inl ⟨rfl, rfl⟩⟩
  · simp [newJob, unsent]
  · simp only [received, hget, Option.map_some, Option.toList_some]
    cases z.receives with
    | true =>
        have herase := (List.getElem_cons_eraseIdx_perm hlt).map Prod.snd
        rw [hat, List.map_cons] at herase
        exact herase.symm.trans (List.perm_append_singleton _ _).symm
    | false => simp
  · dsimp only
    split
    · exact List.eraseIdx_subset
    · exact List.Subset.refl _

theorem moves_step (s s' : Server) (hrec : s.Recorded) (e : Input) (hmain : e.isMain = true)
    (h : s.step e = some s') : s.Moves e s' := by
  cases e with
  | accept handle channel directoryToken =>
      obtain rfl := Option.some.inj h
      exact moves_of_same s _ _ rfl rfl rfl rfl rfl rfl
  | disconnect handle =>
      obtain rfl := Option.some.inj h
      exact moves_of_same s _ _ rfl rfl rfl rfl rfl rfl
  | client handle env mem input => exact moves_client s s' hrec handle env mem input h
  | worker i mem rssl => exact absurd hmain (by simp [Input.isMain])
  | workerStops i => exact absurd hmain (by simp [Input.isMain])
  | reply i env z => exact moves_reply s s' i env z h
  | drift channels view outRfds outWfds outEfds =>
      obtain rfl := Option.some.inj h
      exact moves_of_same s _ _ rfl rfl rfl rfl rfl rfl

/-! ## What is written -/

/-- A message of a client is not answered with a response of a worker. -/
theorem quiet_client (s : Server) (handle : UInt64) (env : Env) (mem : Nat → UInt8)
    (input : Hitsuji.Input) (s' : Server) (h : s.client handle env mem input = some s')
    (k : UInt64) (token : Int32) (data : Bytes) (direct : Bool) (rc : RsslRet) :
    (k, Event.writeEx (.reply token data) direct rc)
      ∉ s.written (.client handle env mem input) := by
  intro hmem
  unfold client at h
  split at h
  · exact absurd h (by simp)
  next c hc =>
  split at h
  · exact absurd h (by simp)
  next hreply =>
  split at h
  · exact absurd h (by simp)
  split at h
  · exact absurd h (by simp)
  next d hd =>
  have hquiet : ∀ t, d.events.any (Event.writesReply t) = false := by
    intro t
    cases hin : input with
    | msg m =>
        refine (onMsg_events (s.callOf handle env input) c m d hin ?_).2 t
        simpa only [Call.run, callOf, hin] using hd
    | reply t data => exact absurd (by rw [hin]; rfl) hreply
    | close => exact (quiet_of_provider_call _ c d hd (.inl hin)).2 t
    | sourceDirectoryUpdate => exact (quiet_of_provider_call _ c d hd (.inr hin)).2 t
  simp only [written, hc, Option.bind_some, hd, Option.elim_some, List.mem_map] at hmem
  obtain ⟨ev, hev, hpair⟩ := hmem
  obtain ⟨-, rfl⟩ := Prod.mk.inj hpair
  have hany := List.any_eq_false.mp (hquiet token) _ hev
  exact hany (by simp [Event.writesReply, Outgoing.isReplyOn])

/-- A client writes the data of a reply on its stream, if that is on the watchlist. -/
theorem sendReply_writes (env : Env) (s : Session) (token t : Int32) (data data' : Bytes)
    (direct : Bool) (rc : RsslRet) (d : Done) (h : s.sendReply env token data = some d)
    (hmem : Event.writeEx (.reply t data') direct rc ∈ d.events) :
    t = token ∧ data' = data ∧ token ∈ s.client.tokens := by
  rcases sendReply_cases env s token data d h with ⟨-, rfl⟩ | ⟨hin, -, rfl⟩ | ⟨-, -, rfl⟩
  · exact absurd hmem List.not_mem_nil
  · rw [submitOrRelease_eq, List.cons_append, List.mem_cons, List.mem_append] at hmem
    rcases hmem with hbuf | hwrite | hrelease
    · exact absurd hbuf (by simp)
    · obtain ⟨hout, -⟩ := (mem_writeCalls _ _ _ _ _ _ _).mp hwrite
      obtain ⟨ht, hdata⟩ := Outgoing.reply.inj hout
      exact ⟨ht, hdata, hin⟩
    · split at hrelease
      · exact absurd hrelease List.not_mem_nil
      · exact absurd hrelease (by simp)
  · exact absurd hmem (by simp)

/-- Reading a reply writes its payload, cut to the length byte, on its channel and stream. -/
theorem onReplySocket_writes (env : Env) (z : ReadEnv) (p p' : Provider) (handle : UInt64)
    (token t : Int32) (rssl : RsslBuf) (events : List Event) (data : Bytes) (direct : Bool)
    (rc : RsslRet)
    (h : p.onReplySocket env z (replyImage handle token rssl.length rssl.payload)
      = some (p', events))
    (hmem : Event.writeEx (.reply t data) direct rc ∈ events) :
    z.receives = true ∧ t = token ∧ data = rssl.payload.take (rssl.length % 256)
      ∧ ∃ c, p.clients handle = some c ∧ token ∈ c.tokens := by
  unfold Provider.onReplySocket at h
  obtain ⟨⟨again, p₁, events₁⟩, hread, hpair⟩ := Option.map_eq_some_iff.mp h
  obtain ⟨-, rfl⟩ := Prod.mk.inj hpair
  unfold Provider.onRead at hread
  split at hread
  · next hreceives =>
      obtain ⟨⟨ok, p₂, events₂⟩, hreply, hpair₂⟩ := Option.map_eq_some_iff.mp hread
      obtain ⟨-, rfl⟩ : _ ∧ events₂ = events₁ := (Prod.mk.inj (Prod.mk.inj hpair₂).2)
      unfold Provider.onReply at hreply
      rw [decodeReply_image] at hreply
      dsimp only at hreply
      rw [payload_image] at hreply
      unfold Provider.sendReply at hreply
      split at hreply
      · obtain rfl := (Prod.mk.inj (Prod.mk.inj (Option.some.inj hreply)).2).2
        exact absurd hmem List.not_mem_nil
      · next c hc =>
          obtain ⟨d, hd, hdone⟩ := Option.map_eq_some_iff.mp hreply
          obtain rfl := (Prod.mk.inj (Prod.mk.inj hdone).2).2
          obtain ⟨ht, hdata, hwatched⟩ := sendReply_writes env _ token t _ data direct rc d hd hmem
          exact ⟨hreceives, ht, hdata, c, hc, hwatched⟩
  · obtain rfl := (Prod.mk.inj (Prod.mk.inj (Option.some.inj hread)).2).2
    exact absurd hmem List.not_mem_nil

/-- A response that is written is the reply just read, cut to its length byte, on the channel and
    the stream of its request; the stream is on the watchlist of the client there. -/
theorem written_reply (s s' : Server) (hrec : s.Recorded) (e : Input) (h : s.step e = some s')
    (k : UInt64) (token : Int32) (data : Bytes) (direct : Bool) (rc : RsslRet)
    (hmem : (k, Event.writeEx (.reply token data) direct rc) ∈ s.written e) :
    ∃ (job : Job) (rssl : RsslBuf), job.request.key = (k, token)
      ∧ (replyImage k token rssl.length rssl.payload, job) ∈ s.replies
      ∧ s.received e = [job] ∧ data = rssl.payload.take (rssl.length % 256)
      ∧ ∃ c, s.provider.clients k = some c ∧ token ∈ c.tokens := by
  cases e with
  | client handle env mem input =>
      exact absurd hmem (quiet_client s handle env mem input s' h k token data direct rc)
  | reply i env z =>
      simp only [written] at hmem
      cases hget : s.replies[i]? with
      | none => simp [hget] at hmem
      | some found =>
          obtain ⟨msg, job⟩ := found
          have hin := List.mem_of_getElem? hget
          obtain ⟨rssl, rfl⟩ := hrec.replies msg job hin
          cases hread : s.provider.onReplySocket env z (replyImage job.request.handle
            job.request.token rssl.length rssl.payload) with
          | none => simp [hget, decodeReply_image, Except.toOption, hread] at hmem
          | some result =>
              obtain ⟨p, events⟩ := result
              simp only [hget, Option.bind_some, decodeReply_image, Except.toOption, hread,
                Option.map_some, Option.getD_some, List.mem_map] at hmem
              obtain ⟨ev, hev, hpair⟩ := hmem
              obtain ⟨rfl, rfl⟩ := Prod.mk.inj hpair
              obtain ⟨hreceives, rfl, hdata, hwatched⟩ := onReplySocket_writes env z s.provider p
                _ _ token rssl events data direct rc hread hev
              refine ⟨job, rssl, rfl, hin, ?_, hdata, hwatched⟩
              simp only [received, hreceives, if_true, hget, Option.map_some, Option.toList_some]
  | accept handle channel directoryToken => exact absurd hmem List.not_mem_nil
  | disconnect handle => exact absurd hmem List.not_mem_nil
  | worker i mem rssl => exact absurd hmem List.not_mem_nil
  | workerStops i => exact absurd hmem List.not_mem_nil
  | drift channels view outRfds outWfds outEfds => exact absurd hmem List.not_mem_nil

end Server

/-! ## The workers -/

/-- A task that was carried out: the request, what it met, the permission record the worker held,
    and the reply it sent. -/
structure Served where
  job : Job
  env : TaskEnv
  lock : Bytes
  reply : Option Bytes

/-- The server, the workers that are in their loops, and the record. -/
structure Exchange where
  server : Server
  workers : Nat → Option Worker
  asked : List Job
  unsent : List Job
  served : List Served
  received : List Job

/-- What the item of the request means where the task looked. -/
def Served.meaning (t : Served) : Option Bytes :=
  ((Item.of t.job.request.heard).effect t.env t.job.request.view t.job.request.heard t.lock).bind
    fun effect => effect.1.2

namespace Exchange

/-- What can happen. -/
inductive Input where
  /-- a step of the main thread -/
  | main (e : Server.Input)
  /-- the `n`-th worker takes the `i`-th request in flight; `zmq_msg_close` succeeds after it -/
  | task (n i : Nat) (env : TaskEnv) (msgClose : Bool)
  /-- the `n`-th worker leaves its loop without a request -/
  | leaves (n : Nat)

/-- A step of the main thread. -/
def main (s : Exchange) (e : Server.Input) : Option Exchange :=
  if e.isMain then
    (s.server.step e).map fun server => { s with
      server
      asked := s.asked ++ (s.server.newJob e).toList
      unsent := s.unsent ++ s.server.unsent e
      received := s.received ++ s.server.received e }
  else none

/-- An iteration of `worker_t::MainLoop` that receives a request. -/
def task (s : Exchange) (n i : Nat) (env : TaskEnv) (msgClose : Bool) : Option Exchange :=
  match s.workers n, s.server.requests[i]? with
  | some w, some (msg, job) =>
      (w.onTask env msg).map fun d => { s with
        server := { s.server with
          requests := s.server.requests.eraseIdx i
          replies := s.server.replies ++ (d.reply.map fun reply => (reply, job)).toList }
        workers := Function.update s.workers n (if d.ret && msgClose then some d.worker else none)
        served := s.served ++ [⟨job, env, w.dacsLock, d.reply⟩] }
  | _, _ => none

/-- One step. -/
def step (s : Exchange) : Input → Option Exchange
  | .main e => s.main e
  | .task n i env msgClose => s.task n i env msgClose
  | .leaves n => some { s with workers := Function.update s.workers n none }

/-- Nobody has asked for anything, and the workers are new. -/
structure Initial (s : Exchange) : Prop where
  server : s.server.Initial
  workers : ∀ n w, s.workers n = some w → ∃ rssl, w = .initial rssl
  asked : s.asked = []
  unsent : s.unsent = []
  served : s.served = []
  received : s.received = []

end Exchange

/-- The exchange over its lifetime. -/
def exchangeSystem : System Exchange Exchange.Input :=
  .ofFn Exchange.Initial Exchange.step

namespace Exchange

/-! ## Steps -/

/-- What a step does, by who takes it. -/
theorem step_spec (s s' : Exchange) (a : Input) (h : s.step a = some s') :
    (∃ e server, a = .main e ∧ e.isMain = true ∧ s.server.step e = some server
        ∧ s' = { s with
          server
          asked := s.asked ++ (s.server.newJob e).toList
          unsent := s.unsent ++ s.server.unsent e
          received := s.received ++ s.server.received e })
      ∨ (∃ n i env msgClose w msg job d, a = .task n i env msgClose ∧ s.workers n = some w
        ∧ s.server.requests[i]? = some (msg, job) ∧ w.onTask env msg = some d
        ∧ s' = { s with
          server := { s.server with
            requests := s.server.requests.eraseIdx i
            replies := s.server.replies ++ (d.reply.map fun reply => (reply, job)).toList }
          workers := Function.update s.workers n (if d.ret && msgClose then some d.worker else none)
          served := s.served ++ [⟨job, env, w.dacsLock, d.reply⟩] })
      ∨ ∃ n, a = .leaves n ∧ s' = { s with workers := Function.update s.workers n none } := by
  cases a with
  | main e =>
      left
      change s.main e = some s' at h
      unfold main at h
      split at h
      · next hmain =>
          obtain ⟨server, hserver, rfl⟩ := Option.map_eq_some_iff.mp h
          exact ⟨e, server, rfl, hmain, hserver, rfl⟩
      · exact absurd h (by simp)
  | task n i env msgClose =>
      right
      left
      change s.task n i env msgClose = some s' at h
      unfold task at h
      split at h
      · next w msg job hworker hget =>
          obtain ⟨d, hd, rfl⟩ := Option.map_eq_some_iff.mp h
          exact ⟨n, i, env, msgClose, w, msg, job, d, rfl, hworker, hget, hd, rfl⟩
      · exact absurd h (by simp)
  | leaves n => exact .inr (.inr ⟨n, rfl, (Option.some.inj h).symm⟩)

/-- What a step is for the server: a step of its own, which accepts a request only in the main
    thread, or nothing. -/
theorem server_step (s s' : Exchange) (a : Input) (h : s.step a = some s') :
    s'.server = s.server
      ∨ ∃ e, s.server.step e = some s'.server ∧ (a = .main e ∨ s.server.newJob e = none) := by
  rcases step_spec s s' a h with ⟨e, server, rfl, -, hserver, rfl⟩
    | ⟨n, i, env, msgClose, w, msg, job, d, -, -, hget, hd, rfl⟩ | ⟨n, -, rfl⟩
  · exact .inr ⟨e, hserver, .inl rfl⟩
  · right
    cases hreply : d.reply with
    | none =>
        refine ⟨.workerStops i, ?_, .inr rfl⟩
        simp [Server.step]
    | some reply =>
        obtain ⟨rssl, hrssl⟩ := onTask_workerReply w env msg reply d hd hreply
        refine ⟨.worker i env.mem rssl, ?_, .inr rfl⟩
        simp [Server.step, Server.worker, hget, hrssl]
  · exact .inl rfl

/-- **The exchange refines the pipeline**: a task is a worker's step there, with the message of its
    buffer for the reply, or without a reply. -/
theorem exchange_simulates : Simulates exchangeSystem serverSystem Exchange.server := by
  refine ⟨fun s h => h.server, fun s a s' h => ?_⟩
  rcases server_step s s' a h with hsame | ⟨e, he, -⟩
  · exact .inl hsame
  · exact .inr ⟨e, he⟩

/-! ## The ledger -/

/-- The requests that were answered. -/
def answered (s : Exchange) : List Job :=
  (s.served.filter fun t => t.reply.isSome).map Served.job

/-- Every request that was accepted could not be sent, is in the queue or was carried out by one
    task, and just one of these once; every answer is in the queue or was read once. -/
structure Ledger (s : Exchange) : Prop where
  asked : s.asked.Perm
    (s.unsent ++ s.server.requests.map Prod.snd ++ s.served.map Served.job)
  answered : s.answered.Perm (s.server.replies.map Prod.snd ++ s.received)
  distinct : (s.asked.map Job.seq).Nodup
  numbered : ∀ j ∈ s.asked, j.seq < s.server.nextSeq

theorem ledger_init (s : Exchange) (h : s.Initial) : s.Ledger := by
  obtain ⟨-, hrequests, hreplies⟩ := h.server
  refine ⟨?_, ?_, ?_, ?_⟩
  · rw [h.asked, h.unsent, h.served, hrequests]
    exact List.Perm.refl _
  · rw [answered, h.served, h.received, hreplies]
    exact List.Perm.refl _
  · rw [h.asked]
    exact List.nodup_nil
  · intro j hj
    rw [h.asked] at hj
    exact absurd hj List.not_mem_nil

theorem ledger_main (s : Exchange) (e : Server.Input) (server : Server) (hs : s.Ledger)
    (hmoves : s.server.Moves e server) :
    Ledger { s with
      server
      asked := s.asked ++ (s.server.newJob e).toList
      unsent := s.unsent ++ s.server.unsent e
      received := s.received ++ s.server.received e } where
  asked := by
    have hasked := List.perm_iff_count.mp hs.asked
    have hrequests := List.perm_iff_count.mp hmoves.requests
    refine List.perm_iff_count.mpr fun j => ?_
    have hj := hasked j
    have hj' := hrequests j
    simp only [List.count_append] at hj hj' ⊢
    omega
  answered := by
    have hanswered := List.perm_iff_count.mp hs.answered
    have hreplies := List.perm_iff_count.mp hmoves.replies
    refine List.perm_iff_count.mpr fun j => ?_
    have hj := hanswered j
    have hj' := hreplies j
    simp only [answered, List.count_append] at hj hj' ⊢
    omega
  distinct := by
    rcases hmoves.seq with ⟨hnone, -⟩ | ⟨j, hnew, hseq, -⟩
    · rw [hnone, Option.toList_none, List.append_nil]
      exact hs.distinct
    · rw [hnew, Option.toList_some, List.map_append, List.nodup_append]
      refine ⟨hs.distinct, by simp, ?_⟩
      intro a ha b hb
      obtain ⟨j', hj', rfl⟩ := List.mem_map.mp ha
      obtain rfl : b = j.seq := by simpa using hb
      exact Nat.ne_of_lt (hseq ▸ hs.numbered j' hj')
  numbered := by
    rcases hmoves.seq with ⟨hnone, hsame⟩ | ⟨j, hnew, hseq, hnext⟩
    · rw [hnone, Option.toList_none, List.append_nil, hsame]
      exact hs.numbered
    · intro j' hj'
      rw [hnew, Option.toList_some] at hj'
      show j'.seq < server.nextSeq
      rw [hnext]
      rcases List.mem_append.mp hj' with hold | hlast
      · exact Nat.lt_succ_of_lt (hs.numbered j' hold)
      · rw [List.mem_singleton.mp hlast, hseq]
        exact Nat.lt_succ_self _

theorem ledger_task (s : Exchange) (n i : Nat) (env : TaskEnv) (worker : Option Worker) (msg : Bytes)
    (job : Job) (lock : Bytes) (reply : Option Bytes) (hs : s.Ledger)
    (hget : s.server.requests[i]? = some (msg, job)) :
    Ledger { s with
      server := { s.server with
        requests := s.server.requests.eraseIdx i
        replies := s.server.replies ++ (reply.map fun reply => (reply, job)).toList }
      workers := Function.update s.workers n worker
      served := s.served ++ [⟨job, env, lock, reply⟩] } where
  asked := by
    obtain ⟨hlt, hat⟩ := List.getElem?_eq_some_iff.mp hget
    have herase := (List.getElem_cons_eraseIdx_perm hlt).map Prod.snd
    rw [hat, List.map_cons] at herase
    have hasked := List.perm_iff_count.mp hs.asked
    refine List.perm_iff_count.mpr fun j => ?_
    have hj := hasked j
    have hj' := List.perm_iff_count.mp herase j
    simp only [List.count_append, List.map_append, List.map_cons, List.map_nil, List.count_cons,
      List.count_nil] at hj hj' ⊢
    omega
  answered := by
    have hanswered := List.perm_iff_count.mp hs.answered
    refine List.perm_iff_count.mpr fun j => ?_
    have hj := hanswered j
    cases reply with
    | none => simpa [answered, List.count_append] using hj
    | some reply =>
        simp only [answered, Option.map_some, Option.toList_some, List.filter_append,
          List.filter_cons, List.filter_nil, Option.isSome_some, if_true, List.map_append,
          List.map_cons, List.map_nil, List.count_append, List.count_cons,
          List.count_nil] at hj ⊢
        omega
  distinct := hs.distinct
  numbered := hs.numbered

theorem ledger_step (s s' : Exchange) (a : Input) (hrec : s.server.Recorded) (hs : s.Ledger)
    (h : s.step a = some s') : s'.Ledger := by
  rcases step_spec s s' a h with ⟨e, server, -, hmain, hserver, rfl⟩
    | ⟨n, i, env, msgClose, w, msg, job, d, -, -, hget, -, rfl⟩ | ⟨n, -, rfl⟩
  · exact ledger_main s e server hs (Server.moves_step s.server server hrec e hmain hserver)
  · exact ledger_task s n i env _ msg job w.dacsLock d.reply hs hget
  · exact ⟨hs.asked, hs.answered, hs.distinct, hs.numbered⟩

/-! ## What replies are made of -/

/-- Replies in the queue come from tasks, and tasks answer by the meaning of their items. -/
structure Sourced (s : Exchange) : Prop where
  replies : ∀ msg job, (msg, job) ∈ s.server.replies →
    ∃ t ∈ s.served, t.job = job ∧ t.reply = some msg
  meant : ∀ t ∈ s.served, t.reply = t.meaning

theorem sourced_init (s : Exchange) (h : s.Initial) : s.Sourced := by
  obtain ⟨-, -, hreplies⟩ := h.server
  refine ⟨fun msg job hmem => ?_, fun t ht => ?_⟩
  · rw [hreplies] at hmem
    exact absurd hmem List.not_mem_nil
  · rw [h.served] at ht
    exact absurd ht List.not_mem_nil

/-- The reply of a task is the meaning of the item, whatever the worker did before. -/
theorem reply_meant (w : Worker) (env : TaskEnv) (job : Job) (d : TaskDone)
    (h : w.onTask env (requestImage job.request) = some d) :
    d.reply = Served.meaning ⟨job, env, w.dacsLock, d.reply⟩ := by
  have hmeant := onTask_image w env job.request
  rw [h] at hmeant
  unfold Served.meaning
  rw [← hmeant]
  rfl

theorem sourced_step (s s' : Exchange) (a : Input) (hrec : s.server.Recorded) (hs : s.Sourced)
    (h : s.step a = some s') : s'.Sourced := by
  rcases step_spec s s' a h with ⟨e, server, -, hmain, hserver, rfl⟩
    | ⟨n, i, env, msgClose, w, msg, job, d, -, -, hget, hd, rfl⟩ | ⟨n, -, rfl⟩
  · have hmoves := Server.moves_step s.server server hrec e hmain hserver
    exact ⟨fun msg job hmem => hs.replies msg job (hmoves.kept hmem), hs.meant⟩
  · rw [hrec.requests msg job (List.mem_of_getElem? hget)] at hd
    refine ⟨fun msg' job' hmem => ?_, fun t ht => ?_⟩
    · rcases List.mem_append.mp hmem with hold | hnew
      · obtain ⟨t, ht, hjob⟩ := hs.replies msg' job' hold
        exact ⟨t, List.mem_append_left _ ht, hjob⟩
      · obtain ⟨hreply, rfl⟩ : d.reply = some msg' ∧ job = job' := by simpa using hnew
        exact ⟨_, List.mem_append_right _ (List.mem_singleton.mpr rfl), rfl, hreply⟩
    · rcases List.mem_append.mp ht with hold | hnew
      · exact hs.meant t hold
      · rw [List.mem_singleton.mp hnew]
        exact reply_meant w env job d hd
  · exact ⟨hs.replies, hs.meant⟩

/-- The record is true in every state of a run. -/
theorem along_record (s₀ : Exchange) (p : Steps Exchange Input) (hrun : exchangeSystem.Run s₀ p) :
    Along (fun s a s' => (s.server.Recorded ∧ s.Ledger ∧ s.Sourced)
      ∧ s.step a = some s' ∧ s'.Ledger) s₀ p := by
  have hrecorded := along_simulates exchangeSystem serverSystem Exchange.server Server.Recorded
    exchange_simulates Server.recorded_init (fun s e s' hs h => Server.recorded_step s s' hs e h)
    s₀ p hrun
  have hinv := along_invariant
    (fun s a s' => s.server.Recorded ∧ exchangeSystem.step s a s' ∧ s'.server.Recorded)
    (fun s => s.Ledger ∧ s.Sourced)
    (fun s a s' hs h => ⟨ledger_step s s' a h.1 hs.1 h.2.1, sourced_step s s' a h.1 hs.2 h.2.1⟩)
    s₀ p ⟨ledger_init s₀ hrun.1, sourced_init s₀ hrun.1⟩ hrecorded
  refine along_imp _ _ ?_ s₀ p ((along_and _ _ s₀ p).mpr ⟨hrecorded, hinv.1⟩)
  rintro s a s' ⟨⟨hrec, hstep, -⟩, hs, hs'⟩
  exact ⟨⟨hrec, hs⟩, hstep, hs'.1⟩

/-! ## Whole runs -/

/-- What is written on a stream is, up to the length byte, what one task made of a request that was
    accepted under its channel pointer and token, of the session there or of an earlier one: the
    token is on the watchlist of the client there, the request was not answered before, and the task
    answered by the meaning of the item. -/
structure Publishes (s s' : Exchange) (k : UInt64) (token : Int32) (data : Bytes) (t : Served)
    (image : Bytes) : Prop where
  served : t ∈ s.served
  accepted : t.job ∈ s.asked
  stream : t.job.request.key = (k, token)
  watched : ∃ c, s.server.provider.clients k = some c ∧ token ∈ c.tokens
  unanswered : t.job ∉ s.received
  answered : s'.received = s.received ++ [t.job]
  meant : t.meaning = some (replyImage k token image.length image)
  data : data = image.take (image.length % 256)

/-- The calls on RSSL of a step, each with its channel. -/
def written (s : Exchange) : Input → List (UInt64 × Event)
  | .main e => s.server.written e
  | _ => []

/-- No request has two answers. -/
theorem notMem_received (s : Exchange) (hs : s.Ledger) (msg : Bytes) (job : Job)
    (h : (msg, job) ∈ s.server.replies) : job ∉ s.received := by
  have hasked : s.asked.Nodup := List.Nodup.of_map Job.seq hs.distinct
  have hserved : (s.served.map Served.job).Nodup :=
    (List.nodup_append.mp (hs.asked.nodup_iff.mp hasked)).2.1
  have hanswered : s.answered.Nodup := (List.filter_sublist.map Served.job).nodup hserved
  have hapart := (List.nodup_append.mp (hs.answered.nodup_iff.mp hanswered)).2.2
  intro hmem
  exact hapart job (List.mem_map_of_mem (f := Prod.snd) h) job hmem rfl

/-- A response is written for one task, which answered by the meaning of the item. -/
theorem publishes_step (s s' : Exchange) (a : Input) (hrec : s.server.Recorded)
    (hledger : s.Ledger) (hsourced : s.Sourced) (hstep : s.step a = some s') (k : UInt64)
    (token : Int32) (data : Bytes) (direct : Bool) (rc : RsslRet)
    (hmem : (k, .writeEx (.reply token data) direct rc) ∈ s.written a) :
    ∃ t image, s.Publishes s' k token data t image := by
  rcases step_spec s s' a hstep with ⟨e, server, rfl, -, hserver, rfl⟩
    | ⟨n, i, env, msgClose, w, msg, job, d, rfl, -⟩ | ⟨n, rfl, -⟩
  · obtain ⟨job, rssl, hstream, hreply, hreceived, hdata, hwatched⟩ :=
      Server.written_reply s.server server hrec e hserver k token data direct rc hmem
    obtain ⟨t, ht, rfl, hmsg⟩ := hsourced.replies _ job hreply
    have haccepted : t.job ∈ s.asked :=
      hledger.asked.mem_iff.mpr (List.mem_append_right _ (List.mem_map_of_mem ht))
    refine ⟨t, rssl.payload, ht, haccepted, hstream, hwatched,
      notMem_received s hledger _ _ hreply, ?_, ?_, ?_⟩
    · rw [hreceived]
    · rw [← hsourced.meant t ht, hmsg, RsslBuf.payload_length]
    · rw [hdata, RsslBuf.payload_length]
  · exact absurd hmem List.not_mem_nil
  · exact absurd hmem List.not_mem_nil

/-- No request is accepted under a channel pointer and token with an earlier one still in flight. -/
def NoEarlierReply (s : Exchange) : Input → Prop
  | .main e => s.server.NoEarlierReply e
  | _ => True

/-- Then what is in flight under a token belongs to the request it stands for. -/
theorem consistent_step (s s' : Exchange) (a : Input) (hrec : s.server.Recorded)
    (hcons : Routing.Consistent (s.server.routing id)) (hearlier : s.NoEarlierReply a)
    (h : s.step a = some s') : Routing.Consistent (s'.server.routing id) := by
  rcases server_step s s' a h with hsame | ⟨e, he, hnew⟩
  · rw [hsame]
    exact hcons
  · refine Routing.consistent_step _ _ _ hcons ?_ (Server.routing_step id _ _ hrec e he)
    rcases hnew with rfl | hnone
    · exact Server.clear_of_accepted id _ _ hrec e he fun job _ hacc _ j hj hkey =>
        absurd hkey (hearlier.1 _ hacc j hj)
    · rw [Server.label, hnone]
      trivial

/-- And what is published under it is for that request. -/
theorem latest_of_publishes (s s' : Exchange) (k : UInt64) (token : Int32) (data : Bytes)
    (t : Served) (image : Bytes) (hrec : s.server.Recorded) (hledger : s.Ledger)
    (hsourced : s.Sourced) (hcons : Routing.Consistent (s.server.routing id))
    (h : s.Publishes s' k token data t image) : s.server.latest k token = some t.job := by
  -- an answer that was not read is in the queue
  have hanswer : t.job ∈ s.answered := by
    refine List.mem_map_of_mem (List.mem_filter.mpr ⟨h.served, ?_⟩)
    rw [hsourced.meant t h.served, h.meant]
    rfl
  have hqueued : t.job ∈ s.server.replies.map Prod.snd :=
    (List.mem_append.mp (hledger.answered.mem_iff.mp hanswer)).resolve_right h.unanswered
  obtain ⟨c, hc, htoken⟩ := h.watched
  obtain ⟨j, hj, -⟩ := hrec.latest k c token hc htoken
  have hpending : ((k, token), t.job) ∈ (s.server.routing id).pending := by
    refine (Server.mem_pending id s.server _ _).mpr ⟨t.job, ?_, h.stream, rfl⟩
    rw [Server.outstanding, List.map_append]
    exact List.mem_append_right _ hqueued
  have hopen : (s.server.routing id).opened (k, token) = some j :=
    (Server.opened_eq_some id s.server _ _).mpr ⟨c, j, hc, htoken, hj, rfl⟩
  rw [hj, ← Routing.routed _ hcons _ _ _ hpending hopen]

theorem along_consistent (s₀ : Exchange) (p : Steps Exchange Input)
    (hrun : exchangeSystem.Run s₀ p) (hearlier : Along (fun s a _ => s.NoEarlierReply a) s₀ p) :
    Along (fun s _ _ => Routing.Consistent (s.server.routing id)) s₀ p := by
  have hinv := along_invariant _ (fun s => Routing.Consistent (s.server.routing id))
    (fun s a s' hcons (h : ((s.server.Recorded ∧ s.Ledger ∧ s.Sourced) ∧ s.step a = some s'
        ∧ s'.Ledger) ∧ s.NoEarlierReply a) =>
      consistent_step s s' a h.1.1.1 hcons h.2 h.1.2.1)
    s₀ p (Server.consistent_init s₀.server hrun.1.server id)
    ((along_and _ _ s₀ p).mpr ⟨along_record s₀ p hrun, hearlier⟩)
  exact along_imp _ _ (fun _ _ _ h => h.1) s₀ p hinv.1

/-- What is published in a run, and for which request where keys are consistent. -/
theorem along_publishes (s₀ : Exchange) (p : Steps Exchange Input)
    (hrun : exchangeSystem.Run s₀ p) :
    Along (fun s a s' => ∀ k token data direct rc,
      (k, .writeEx (.reply token data) direct rc) ∈ s.written a →
        ∃ t image, s.Publishes s' k token data t image
          ∧ (Routing.Consistent (s.server.routing id) →
            s.server.latest k token = some t.job)) s₀ p := by
  refine along_imp _ _ ?_ s₀ p (along_record s₀ p hrun)
  rintro s a s' ⟨⟨hrec, hledger, hsourced⟩, hstep, -⟩ k token data direct rc hmem
  obtain ⟨t, image, hp⟩ :=
    publishes_step s s' a hrec hledger hsourced hstep k token data direct rc hmem
  exact ⟨t, image, hp, fun hcons =>
    latest_of_publishes s s' k token data t image hrec hledger hsourced hcons hp⟩

/-- **No request is lost and none is carried out or answered twice**, in any state that any run
    reaches. -/
theorem requests_accounted (s : Exchange) (hs : exchangeSystem.Reachable s) : s.Ledger := by
  refine (exchangeSystem.reachable_invariant (fun s => s.server.Recorded ∧ s.Ledger) ?_ ?_ s hs).2
  · intro s h
    exact ⟨Server.recorded_init s.server h.server, ledger_init s h⟩
  · rintro s a s' ⟨hrec, hledger⟩ h
    refine ⟨?_, ledger_step s s' a hrec hledger h⟩
    rcases exchange_simulates.2 s a s' h with hsame | ⟨e, he⟩
    · rw [hsame]
      exact hrec
    · exact Server.recorded_step s.server s'.server hrec e he

/-! ## An exchange to compute with -/

/-- Two workers, and nobody connected. -/
def opening : Exchange where
  server := Server.idle
  workers n := if n < 2 then some freshWorker else none
  asked := []
  unsent := []
  served := []
  received := []

theorem opening_init : exchangeSystem.init opening := by
  refine ⟨⟨fun _ => rfl, rfl, rfl⟩, fun n w hw => ?_, rfl, rfl, rfl, rfl⟩
  obtain ⟨-, hw⟩ := Option.ite_none_right_eq_some.mp hw
  exact ⟨_, (Option.some.inj hw).symm⟩

/-- A consumer connects and asks, the second worker answers, and the reply is read. -/
def askAndAnswer : List Input :=
  Server.connectAndAsk.map .main
    ++ [.task 1 0 (taskEnv noRecords true) true,
      .main (.reply 0 willingEnv ⟨some true, true, true, true, some false⟩)]

section Replay

set_option maxRecDepth 20000

theorem askAndAnswer_accounted :
    ∃ p, replay step opening askAndAnswer = some p
      ∧ (last opening p).asked.length = 1 ∧ (last opening p).Ledger :=
  ⟨_, rfl, rfl, requests_accounted _
    ⟨opening, _, run_replay _ step opening askAndAnswer _ opening_init rfl, rfl⟩⟩

end Replay

end Exchange

end Hitsuji
