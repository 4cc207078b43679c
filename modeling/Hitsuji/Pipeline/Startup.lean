import Hitsuji.Pipeline.Application
import Mathlib.Data.List.Flatten
import Mathlib.Tactic.IntervalCases

set_option autoImplicit false

/-! # Starting

`hitsuji_t::Initialize` makes everything in order, and goes to `cleanup` with the first call that
fails or throws: one `Reset` undoes whatever there is. `Start` is the only caller, and tells its own
callers, `Run` and `init`, true in any case. -/

namespace Hitsuji

open Transition

/-- How a call ends. -/
inductive Fate (α : Type) where
  | returns (a : α)
  | throws
  | blocks
  /-- an assertion ends the process -/
  | terminates
  deriving DecidableEq

namespace Fate

variable {α β : Type}

def bind (x : Fate α) (f : α → Fate β) : Fate β :=
  match x with
  | .returns a => f a
  | .throws => .throws
  | .blocks => .blocks
  | .terminates => .terminates

@[simp] theorem returns_bind (a : α) (f : α → Fate β) : (returns a).bind f = f a := rfl

theorem bind_eq_returns (x : Fate α) (f : α → Fate β) (b : β) :
    x.bind f = .returns b ↔ ∃ a, x = .returns a ∧ f a = .returns b := by
  cases x <;> simp [bind]

end Fate

namespace Startup

/-! ## The calls -/

/-- What a call in `Initialize` does. What it throws is caught there. -/
inductive Outcome where
  | ok
  | failed
  | threw
  deriving DecidableEq

/-- The calls of `Initialize` that can fail or throw. -/
inductive InitCall where
  | zmqCtxNew
  | zmqCtxSet
  | requestSocket
  | requestBind
  | replySocket
  | replyBind
  | replyGetsockopt
  | newUpa
  | upaInitialize
  | newProvider
  | providerInitialize
  /-- `std::make_shared<worker_t> (zmq_context_)` -/
  | makeWorker (i : Nat)
  /-- `std::make_shared<boost::thread> (…)` -/
  | makeThread (i : Nat)
  /-- `workers_.emplace_front (…)` -/
  | emplaceFront (i : Nat)
  deriving DecidableEq

/-- What is made for one worker. -/
def workerCalls (i : Nat) : List InitCall :=
  [.makeWorker i, .makeThread i, .emplaceFront i]

/-- The calls of `Initialize` in their order. -/
def initCalls (workerCount : Nat) : List InitCall :=
  [.zmqCtxNew, .zmqCtxSet, .requestSocket, .requestBind, .replySocket, .replyBind, .replyGetsockopt,
    .newUpa, .upaInitialize, .newProvider, .providerInitialize]
    ++ (List.range workerCount).flatMap workerCalls

/-- The members of `hitsuji_t` that `Initialize` sets, whether they are null, and what became of the
    worker threads. -/
structure Members where
  zmqContext : Bool
  workerRequestSock : Bool
  workerReplySock : Bool
  upa : Bool
  provider : Bool
  /-- the threads of `workers_`, the last one first -/
  workers : List Nat
  /-- the threads that were started -/
  started : List Nat
  /-- the threads of `workers_` that are joined, with their `worker_t` released -/
  joined : List Nat
  deriving DecidableEq

/-- Before `Start`. -/
def Members.initial : Members :=
  ⟨false, false, false, false, false, [], [], []⟩

/-- What a call that succeeds leaves behind. -/
def InitCall.effect (m : Members) : InitCall → Members
  | .zmqCtxNew => { m with zmqContext := true }
  | .requestSocket => { m with workerRequestSock := true }
  | .replySocket => { m with workerReplySock := true }
  | .newUpa => { m with upa := true }
  | .newProvider => { m with provider := true }
  | .makeThread i => { m with started := i :: m.started }
  | .emplaceFront i => { m with workers := i :: m.workers }
  | .zmqCtxSet | .requestBind | .replyBind | .replyGetsockopt | .upaInitialize
  | .providerInitialize | .makeWorker _ => m

/-- What everything outside answers. -/
structure StartEnv where
  call : InitCall → Outcome
  workerCount : Nat
  /-- `AbortOneWorker`, for a thread of `workers_`; without a worker to send to it blocks -/
  abortOneWorker : Nat → Fate Bool
  /-- the thread of the worker ends, aborted or not -/
  ends : Nat → Bool
  /-- the event thread can be created -/
  eventThread : Bool
  /-- `MainLoop` ends -/
  mainLoopEnds : Bool

variable (env : StartEnv)

/-- One call after the other, to the first that does not succeed. -/
def runCalls (m : Members) : List InitCall → Bool × Members
  | [] => (true, m)
  | c :: rest =>
      match env.call c with
      | .ok => runCalls (c.effect m) rest
      | .failed | .threw => (false, m)

/-! ## Cleaning up -/

/-- The loop of `AbortWorkers` over the joinable threads. -/
def abortEach : List Nat → Fate Bool
  | [] => .returns true
  | i :: rest => (env.abortOneWorker i).bind fun sent => if sent then abortEach rest else .returns false

/-- The threads that `Reset` finds joinable. -/
def Members.joinable (m : Members) : List Nat :=
  m.workers.filter (· ∉ m.joined)

/-- `hitsuji_t::AbortWorkers`, of which `Reset` does not look at the result. -/
def abortWorkers (m : Members) : Fate Members :=
  (abortEach env m.joinable).bind fun sent =>
    if sent then
      if m.joinable.all env.ends then .returns { m with joined := m.joinable ++ m.joined }
      else .blocks
    else .returns m

/-- The `worker_t` that there still are, each with its own reference to the context: those of
    `workers_` that are not released, and those whose detached thread runs on. -/
def Members.alive (m : Members) : List Nat :=
  m.joinable ++ m.started.filter fun i => i ∉ m.workers ∧ env.ends i = false

/-- `hitsuji_t::Reset`; the sockets and the provider have no other owner. -/
def reset (m : Members) : Fate Members :=
  (if m.joinable = [] then .returns m else abortWorkers env m).bind fun m =>
    -- CHECK (zmq_context_.use_count() <= 1)
    if m.zmqContext = true ∧ m.alive env ≠ [] then .terminates
    else
      .returns { m with
        zmqContext := false
        workerRequestSock := false
        workerReplySock := false
        upa := false
        provider := false }

/-- `hitsuji_t::Initialize` -/
def initialise (m : Members) : Fate (Bool × Members) :=
  match runCalls env m (initCalls env.workerCount) with
  | (true, m) => .returns (true, m)
  | (false, m) => (reset env m).bind fun m => .returns (false, m)

/-! ## Starting -/

/-- What `Start` returns, and what it leaves. -/
structure Started where
  ret : Bool
  eventThread : Bool
  members : Members
  deriving DecidableEq

/-- `hitsuji_t::Start` -/
def start (shuttingDown : Bool) (m : Members) : Fate Started :=
  if shuttingDown then .returns ⟨true, false, m⟩
  else
    (initialise env m).bind fun (ok, m) =>
      if ok then
        if env.eventThread then .returns ⟨true, true, m⟩ else .throws
      else .returns ⟨true, false, m⟩

def exitSuccess : Int := 0

def exitFailure : Int := 1

/-- `hitsuji_t::Run`; `mainloop_shutdown_` is set by the event thread, when `MainLoop` is over. -/
def run (shuttingDown : Bool) (m : Members) : Fate Int :=
  (start env shuttingDown m).bind fun started =>
    if started.ret then
      if started.eventThread && env.mainLoopEnds then
        (reset env started.members).bind fun _ => .returns exitSuccess
      else .blocks
    else .returns exitFailure

/-- `hitsuji_t::init` of the plugin -/
def init (shuttingDown : Bool) (m : Members) : Fate Started :=
  (start env shuttingDown m).bind fun started =>
    if started.ret then .returns started else .throws

/-! ## What the calls leave -/

theorem runCalls_fst (m : Members) (cs : List InitCall) :
    (runCalls env m cs).1 = true ↔ ∀ c ∈ cs, env.call c = .ok := by
  induction cs generalizing m with
  | nil => simp [runCalls]
  | cons c rest ih =>
      rw [runCalls, List.forall_mem_cons]
      cases hcall : env.call c with
      | ok => simp [ih]
      | failed | threw => simp

/-- What each call that succeeds keeps, they all keep. -/
theorem runCalls_invariant (I : Members → Prop) (m : Members) (cs : List InitCall) (hm : I m)
    (heffect : ∀ m, ∀ c ∈ cs, I m → I (c.effect m)) : I (runCalls env m cs).2 := by
  induction cs generalizing m with
  | nil => exact hm
  | cons c rest ih =>
      rw [runCalls]
      cases env.call c with
      | ok =>
          exact ih (c.effect m) (heffect m c List.mem_cons_self hm)
            fun m c hc => heffect m c (List.mem_cons_of_mem _ hc)
      | failed | threw => exact hm

/-- What some call makes, and each keeps, is there if they all succeed. -/
theorem runCalls_makes (P : Members → Prop) (m : Members) (cs : List InitCall) (c : InitCall)
    (hc : c ∈ cs) (hok : ∀ c ∈ cs, env.call c = .ok) (hmake : ∀ m, P (c.effect m))
    (hkeep : ∀ m (c : InitCall), P m → P (c.effect m)) : P (runCalls env m cs).2 := by
  induction cs generalizing m with
  | nil => exact absurd hc List.not_mem_nil
  | cons c' rest ih =>
      have hrest : ∀ c ∈ rest, env.call c = .ok := fun c hc => hok c (List.mem_cons_of_mem c' hc)
      rw [runCalls, hok c' List.mem_cons_self]
      rcases List.mem_cons.mp hc with rfl | hc
      · exact runCalls_invariant env P _ rest (hmake m) fun m c _ => hkeep m c
      · exact ih _ hc hrest

/-- The members once there is a context: the threads are those of the first `count` workers, and
    none is joined. -/
structure Members.Sound (m : Members) (count : Nat) : Prop where
  context : m.zmqContext = true
  joined : m.joined = []
  started : ∀ i ∈ m.started, i < count
  workers : ∀ i ∈ m.workers, i < count

theorem sound_effect (m : Members) (count : Nat) (c : InitCall) (hm : m.Sound count)
    (hc : c ∈ initCalls count) : (c.effect m).Sound count := by
  cases c with
  | makeThread i =>
      have hi : i < count := by simpa [initCalls, workerCalls] using hc
      refine ⟨hm.context, hm.joined, fun j hj => ?_, hm.workers⟩
      rcases List.mem_cons.mp hj with rfl | hj
      · exact hi
      · exact hm.started j hj
  | emplaceFront i =>
      have hi : i < count := by simpa [initCalls, workerCalls] using hc
      refine ⟨hm.context, hm.joined, hm.started, fun j hj => ?_⟩
      rcases List.mem_cons.mp hj with rfl | hj
      · exact hi
      · exact hm.workers j hj
  | zmqCtxNew => exact ⟨rfl, hm.joined, hm.started, hm.workers⟩
  | zmqCtxSet | requestSocket | requestBind | replySocket | replyBind | replyGetsockopt | newUpa
  | upaInitialize | newProvider | providerInitialize | makeWorker =>
      exact ⟨hm.context, hm.joined, hm.started, hm.workers⟩

/-- Either nothing was made, or there is a context. -/
theorem runCalls_sound :
    (runCalls env .initial (initCalls env.workerCount)).2 = .initial
      ∨ (runCalls env .initial (initCalls env.workerCount)).2.Sound env.workerCount := by
  have hcalls : ∃ rest, initCalls env.workerCount = .zmqCtxNew :: rest := ⟨_, rfl⟩
  obtain ⟨rest, hrest⟩ := hcalls
  rw [hrest, runCalls]
  cases env.call .zmqCtxNew with
  | failed | threw => exact .inl rfl
  | ok =>
      refine .inr (runCalls_invariant env (·.Sound env.workerCount) _ rest ?_ fun m c hc hm => ?_)
      · exact ⟨rfl, rfl, nofun, nofun⟩
      · exact sound_effect m _ c hm (hrest ▸ List.mem_cons_of_mem _ hc)

/-! ## What `Reset` leaves -/

/-- The members that `Initialize` sets are null. -/
structure Members.Released (m : Members) : Prop where
  zmqContext : m.zmqContext = false
  workerRequestSock : m.workerRequestSock = false
  workerReplySock : m.workerReplySock = false
  upa : m.upa = false
  provider : m.provider = false

/-- The thread has been joined, or is not on `workers_` and over by itself. -/
def Members.Settled (m : Members) (i : Nat) : Prop :=
  i ∈ m.joined ∨ i ∉ m.workers ∧ env.ends i = true

theorem settled_of_not_alive (m : Members) (i : Nat) (hstarted : i ∈ m.started)
    (h : m.alive env = []) : m.Settled env i := by
  obtain ⟨hjoinable, hdetached⟩ := List.append_eq_nil_iff.mp h
  by_cases hworker : i ∈ m.workers
  · have hjoined := List.filter_eq_nil_iff.mp hjoinable i hworker
    exact .inl (by simpa using hjoined)
  · have hended := List.filter_eq_nil_iff.mp hdetached i hstarted
    exact .inr ⟨hworker, by simpa [hworker] using hended⟩

/-- What `Reset` does before its assertions. -/
theorem abortWorkers_eq_returns (m m' : Members) (h : abortWorkers env m = .returns m') :
    m' = m ∨ m' = { m with joined := m.joinable ++ m.joined } := by
  obtain ⟨sent, -, h⟩ := (Fate.bind_eq_returns _ _ _).mp h
  split at h
  · split at h
    · exact .inr (Fate.returns.inj h).symm
    · exact absurd h (by simp)
  · exact .inl (Fate.returns.inj h).symm

/-- **Where `Reset` returns, everything is released**, and no worker that was started is left. -/
theorem reset_released (m m' : Members) (h : reset env m = .returns m') :
    m'.Released ∧ m'.started = m.started
      ∧ (m.zmqContext = true → ∀ i ∈ m'.started, m'.Settled env i) := by
  obtain ⟨m₁, hjoin, h⟩ := (Fate.bind_eq_returns _ _ _).mp h
  have hsame : m₁.zmqContext = m.zmqContext ∧ m₁.started = m.started := by
    split at hjoin
    · obtain rfl := Fate.returns.inj hjoin
      exact ⟨rfl, rfl⟩
    · rcases abortWorkers_eq_returns env m m₁ hjoin with rfl | rfl <;> exact ⟨rfl, rfl⟩
  split at h
  · exact absurd h (by simp)
  · next halive =>
      obtain rfl := Fate.returns.inj h
      refine ⟨⟨rfl, rfl, rfl, rfl, rfl⟩, hsame.2, fun hcontext i hi => ?_⟩
      rw [hsame.1, hcontext, not_and, not_not] at halive
      exact settled_of_not_alive env m₁ i hi (halive rfl)

theorem abortEach_sent (ws : List Nat) (h : ∀ i ∈ ws, env.abortOneWorker i = .returns true) :
    abortEach env ws = .returns true := by
  induction ws with
  | nil => rfl
  | cons i rest ih =>
      rw [abortEach, h i List.mem_cons_self, Fate.returns_bind, if_pos rfl]
      exact ih fun j hj => h j (List.mem_cons_of_mem i hj)

/-- It returns if every abort is sent and every thread ends. -/
theorem reset_returns (m : Members)
    (hsent : ∀ i ∈ m.workers, env.abortOneWorker i = .returns true)
    (hworkers : ∀ i ∈ m.workers, env.ends i = true)
    (hstarted : ∀ i ∈ m.started, env.ends i = true) :
    ∃ m', reset env m = .returns m' := by
  have hjoinable : ∀ i ∈ m.joinable, i ∈ m.workers := fun i hi => (List.mem_filter.mp hi).1
  have hdetached : m.started.filter (fun i => i ∉ m.workers ∧ env.ends i = false) = [] := by
    refine List.filter_eq_nil_iff.mpr fun i hi => ?_
    simp [hstarted i hi]
  have hjoin : ∃ m₁, (if m.joinable = [] then .returns m else abortWorkers env m) = .returns m₁
      ∧ m₁.alive env = [] := by
    by_cases hnone : m.joinable = []
    · exact ⟨m, if_pos hnone, List.append_eq_nil_iff.mpr ⟨hnone, hdetached⟩⟩
    · have hall : m.joinable.all env.ends = true := List.all_eq_true.mpr fun i hi =>
        hworkers i (hjoinable i hi)
      refine ⟨{ m with joined := m.joinable ++ m.joined }, ?_,
        List.append_eq_nil_iff.mpr ⟨?_, hdetached⟩⟩
      · rw [if_neg hnone, abortWorkers, abortEach_sent env _ fun i hi => hsent i (hjoinable i hi),
          Fate.returns_bind, if_pos rfl, if_pos hall]
      · refine List.filter_eq_nil_iff.mpr fun i hi => ?_
        by_cases hjoined : i ∈ m.joined
        · simp [hjoined]
        · have : i ∈ m.joinable := List.mem_filter.mpr ⟨hi, by simpa using hjoined⟩
          simp [this]
  obtain ⟨m₁, hm₁, halive⟩ := hjoin
  have hfree : ¬ (m₁.zmqContext = true ∧ m₁.alive env ≠ []) := fun h => h.2 halive
  rw [reset, hm₁, Fate.returns_bind, if_neg hfree]
  exact ⟨_, rfl⟩

/-! ## Starting that fails -/

/-- Some call of `Initialize` does not succeed. -/
def Fails : Prop :=
  ∃ c ∈ initCalls env.workerCount, env.call c ≠ .ok

theorem runCalls_fails (h : Fails env) (m : Members) :
    (runCalls env m (initCalls env.workerCount)).1 = false := by
  obtain ⟨c, hc, hcall⟩ := h
  exact Bool.eq_false_iff.mpr fun hok => hcall ((runCalls_fst env m _).mp hok c hc)

theorem initialise_fails (h : Fails env) (m : Members) :
    initialise env m
      = (reset env (runCalls env m (initCalls env.workerCount)).2).bind fun m =>
          .returns (false, m) := by
  have hfails := runCalls_fails env h m
  unfold initialise
  generalize runCalls env m (initCalls env.workerCount) = ran at hfails
  obtain ⟨ok, m'⟩ := ran
  obtain rfl : ok = false := hfails
  rfl

/-- The members that `Initialize` sets are set. -/
structure Members.Made (m : Members) : Prop where
  zmqContext : m.zmqContext = true
  workerRequestSock : m.workerRequestSock = true
  workerReplySock : m.workerReplySock = true
  upa : m.upa = true
  provider : m.provider = true

theorem runCalls_made (h : ∀ c ∈ initCalls env.workerCount, env.call c = .ok) (m : Members) :
    (runCalls env m (initCalls env.workerCount)).2.Made := by
  have hmakes : ∀ (field : Members → Bool) (c : InitCall), c ∈ initCalls env.workerCount →
      (∀ m, field (c.effect m) = true) →
      (∀ m (c : InitCall), field m = true → field (c.effect m) = true) →
      field (runCalls env m (initCalls env.workerCount)).2 = true :=
    fun field c hc hmake hkeep => runCalls_makes env _ m _ c hc h hmake hkeep
  have hkeep : ∀ (m : Members) (c : InitCall),
      (m.zmqContext = true → (c.effect m).zmqContext = true)
        ∧ (m.workerRequestSock = true → (c.effect m).workerRequestSock = true)
        ∧ (m.workerReplySock = true → (c.effect m).workerReplySock = true)
        ∧ (m.upa = true → (c.effect m).upa = true)
        ∧ (m.provider = true → (c.effect m).provider = true) := by
    intro m c
    cases c <;> simp [InitCall.effect]
  exact ⟨hmakes _ .zmqCtxNew (by simp [initCalls]) (fun _ => rfl) fun m c => (hkeep m c).1,
    hmakes _ .requestSocket (by simp [initCalls]) (fun _ => rfl) fun m c => (hkeep m c).2.1,
    hmakes _ .replySocket (by simp [initCalls]) (fun _ => rfl) fun m c => (hkeep m c).2.2.1,
    hmakes _ .newUpa (by simp [initCalls]) (fun _ => rfl) fun m c => (hkeep m c).2.2.2.1,
    hmakes _ .newProvider (by simp [initCalls]) (fun _ => rfl) fun m c => (hkeep m c).2.2.2.2⟩

theorem initialise_succeeds (h : ∀ c ∈ initCalls env.workerCount, env.call c = .ok) (m : Members) :
    ∃ m', initialise env m = .returns (true, m') ∧ m'.Made := by
  have hok := (runCalls_fst env m _).mpr h
  have hmade := runCalls_made env h m
  unfold initialise
  generalize runCalls env m (initCalls env.workerCount) = ran at hok hmade
  obtain ⟨ok, m'⟩ := ran
  obtain rfl : ok = true := hok
  exact ⟨m', rfl, hmade⟩

/-- **Where an `Initialize` that failed returns, its `Reset` has undone everything**, wherever it
    failed: the members are null again and no worker thread is left running. -/
theorem initialise_released (h : Fails env) (ok : Bool) (m : Members)
    (hreturns : initialise env .initial = .returns (ok, m)) :
    ok = false ∧ m.Released ∧ ∀ i ∈ m.started, m.Settled env i := by
  rw [initialise_fails env h] at hreturns
  obtain ⟨m', hreset, hm'⟩ := (Fate.bind_eq_returns _ _ _).mp hreturns
  obtain ⟨rfl, rfl⟩ := Prod.mk.inj (Fate.returns.inj hm')
  obtain ⟨hreleased, hstarted, hsettled⟩ := reset_released env _ _ hreset
  refine ⟨rfl, hreleased, ?_⟩
  rcases runCalls_sound env with hnothing | hsound
  · rw [hstarted, hnothing]
    exact nofun
  · exact hsettled hsound.context

/-- And it does return where the workers can be aborted and their threads end. -/
theorem initialise_returns (h : Fails env)
    (hsent : ∀ i < env.workerCount, env.abortOneWorker i = .returns true)
    (hends : ∀ i < env.workerCount, env.ends i = true) :
    ∃ m, initialise env .initial = .returns (false, m) := by
  have hreset : ∃ m, reset env (runCalls env .initial (initCalls env.workerCount)).2
      = .returns m := by
    rcases runCalls_sound env with hnothing | hsound
    · rw [hnothing]
      exact reset_returns env _ nofun nofun nofun
    · exact reset_returns env _ (fun i hi => hsent i (hsound.workers i hi))
        (fun i hi => hends i (hsound.workers i hi)) fun i hi => hends i (hsound.started i hi)
  obtain ⟨m, hm⟩ := hreset
  exact ⟨m, by rw [initialise_fails env h, hm, Fate.returns_bind]⟩

/-- `Start` returns nothing but true. -/
theorem start_ret (shuttingDown : Bool) (m : Members) (started : Started)
    (h : start env shuttingDown m = .returns started) : started.ret = true := by
  unfold start at h
  split at h
  · rw [← Fate.returns.inj h]
  · obtain ⟨⟨ok, m'⟩, -, h⟩ := (Fate.bind_eq_returns _ _ _).mp h
    dsimp only at h
    split at h
    · split at h
      · rw [← Fate.returns.inj h]
      · exact absurd h (by simp)
    · rw [← Fate.returns.inj h]

/-- A start-up that fails is reported by `Start` and its callers with everything undone, and one
    that `Start` reports to have succeeded has an event thread. -/
structure Reported (shuttingDown : Bool) : Prop where
  failure : shuttingDown = false → Fails env →
    (∃ started, start env shuttingDown .initial = .returns started ∧ started.ret = false
        ∧ started.members.Released
        ∧ ∀ i ∈ started.members.started, i ∈ started.members.joined)
      ∧ run env shuttingDown .initial = .returns exitFailure
      ∧ init env shuttingDown .initial = .throws
  success : ∀ started, start env shuttingDown .initial = .returns started → started.ret = true →
    started.eventThread = true

/-- **Start-up is reported truly exactly where there is nothing else to report than success.** -/
theorem startup_reported_iff (shuttingDown : Bool) :
    Reported env shuttingDown
      ↔ shuttingDown = false ∧ ∀ c ∈ initCalls env.workerCount, env.call c = .ok := by
  constructor
  · rintro ⟨hfailure, hsuccess⟩
    have hdown : shuttingDown = false :=
      Bool.eq_false_iff.mpr fun hset =>
        absurd (hsuccess ⟨true, false, .initial⟩ (by rw [start, if_pos hset]) rfl) (by decide)
    refine ⟨hdown, fun c hc => ?_⟩
    by_contra hcall
    obtain ⟨⟨started, hstart, hret, -⟩, -⟩ := hfailure hdown ⟨c, hc, hcall⟩
    exact absurd (hret.symm.trans (start_ret env _ _ _ hstart)) (by decide)
  · rintro ⟨rfl, hok⟩
    refine ⟨fun _ ⟨c, hc, hcall⟩ => absurd (hok c hc) hcall, fun started hstart _ => ?_⟩
    obtain ⟨m, hm, -⟩ := initialise_succeeds env hok .initial
    rw [start, if_neg (by decide), hm, Fate.returns_bind] at hstart
    dsimp only at hstart
    rw [if_pos rfl] at hstart
    split at hstart
    · rw [← Fate.returns.inj hstart]
    · exact absurd hstart (by simp)

/-- Everything succeeds but this call. -/
def failing (call : InitCall) (outcome : Outcome) : StartEnv where
  call c := if c = call then outcome else .ok
  workerCount := 6
  abortOneWorker _ := .returns true
  ends _ := true
  eventThread := true
  mainLoopEnds := true

/-- A socket that cannot be bound, and the fourth of six worker threads that cannot be created:
    everything is undone and three threads are joined, `Start` returns true, `Run` waits and `init`
    returns. -/
theorem failedStart_unreported :
    (start (failing .requestBind .failed) false .initial = .returns ⟨true, false, .initial⟩
        ∧ run (failing .requestBind .failed) false .initial = .blocks
        ∧ init (failing .requestBind .failed) false .initial = .returns ⟨true, false, .initial⟩)
      ∧ (start (failing (.makeThread 3) .threw) false .initial
          = .returns ⟨true, false, { Members.initial with
              workers := [2, 1, 0], started := [2, 1, 0], joined := [2, 1, 0] }⟩
        ∧ run (failing (.makeThread 3) .threw) false .initial = .blocks)
      ∧ ¬ Reported (failing .requestBind .failed) false
      ∧ ¬ Reported (failing (.makeThread 3) .threw) false := by
  have hunreported : ∀ env, run env false .initial = .blocks → Fails env →
      ¬ Reported env false := by
    intro env hblocks hfails hreported
    exact absurd ((hreported.failure rfl hfails).2.1.symm.trans hblocks) (by decide)
  refine ⟨⟨by decide, by decide, by decide⟩, ⟨by decide, by decide⟩, ?_, ?_⟩
  · exact hunreported _ (by decide) ⟨.requestBind, by decide, by decide⟩
  · exact hunreported _ (by decide) ⟨.makeThread 3, by decide, by decide⟩

/-! ## Among the other threads

`Application` has a step for each stage of `Initialize`, and the steps of the other threads. -/

/-- The calls of each stage, in order. -/
def stages (workerCount : Nat) : List (List InitCall) :=
  [[.zmqCtxNew, .zmqCtxSet, .requestSocket, .requestBind, .replySocket, .replyBind,
      .replyGetsockopt],
    [.newUpa, .upaInitialize], [.newProvider], [.providerInitialize],
    (List.range workerCount).flatMap workerCalls]

theorem stages_flatten (workerCount : Nat) : (stages workerCount).flatten = initCalls workerCount := by
  simp [stages, initCalls]

/-- Every call of the stage succeeds. -/
def stageOk (cs : List InitCall) : Bool :=
  cs.all fun c => env.call c = .ok

/-- The steps of `Application` that the stages are. -/
def stageActs : List (List InitCall) → List Application.Act
  | [] => [.spawn]
  | cs :: rest =>
      if stageOk env cs then .stage true :: stageActs rest else [.stage false, .cleanup]

/-- The steps of `Application` that a `Start` is. -/
def startActs (shuttingDown : Bool) : List Application.Act :=
  if shuttingDown then [.start] else .start :: stageActs env (stages env.workerCount)

end Startup

namespace Application

/-- `Start` has returned and there is no event thread. -/
structure Unattended (s : Application) : Prop where
  run : s.run = .test ∨ s.run = .waiting
  event : s.event = .absent
  shutdown : s.mainloopShutdown = false

theorem unattended_step (dcheckIsOn : Bool) (s s' : Application) (a : Act) (hs : s.Unattended)
    (h : s.step dcheckIsOn a = some s') : s'.Unattended := by
  obtain ⟨hrun, hevent, hshutdown⟩ := hs
  cases a with
  | start | cleanup | spawn | reset =>
      obtain ⟨hpc, -⟩ := Option.ite_none_right_eq_some.mp h
      rcases hrun with hrun | hrun <;> exact absurd (hrun.symm.trans hpc) (by decide)
  | stage ok =>
      rcases hrun with hrun | hrun <;> simp [step, hrun] at h
  | testShutdown =>
      obtain ⟨-, h⟩ := Option.ite_none_right_eq_some.mp h
      obtain rfl := Option.some.inj h
      exact ⟨.inr (if_neg (ne_true_of_eq_false hshutdown)), hevent, hshutdown⟩
  | wake =>
      obtain ⟨-, h⟩ := Option.ite_none_right_eq_some.mp h
      obtain rfl := Option.some.inj h
      exact ⟨.inl rfl, hevent, hshutdown⟩
  | enter =>
      obtain ⟨⟨hpc, -⟩, -⟩ := Option.ite_none_right_eq_some.mp h
      exact absurd (hevent.symm.trans hpc) (by decide)
  | doWork | selected | leave | signal =>
      obtain ⟨hpc, -⟩ := Option.ite_none_right_eq_some.mp h
      exact absurd (hevent.symm.trans hpc) (by decide)
  | testRunning => simp [step, hevent] at h
  | quitStore | quitTest | quitCall =>
      obtain ⟨-, h⟩ := Option.ite_none_right_eq_some.mp h
      obtain rfl := Option.some.inj h
      exact ⟨hrun, hevent, hshutdown⟩

/-- **`Run` waits for good** once it has been started without an event thread, whatever the other
    threads do. -/
theorem unattended_waits (dcheckIsOn : Bool) (s : Application) (p : Steps Application Act)
    (hs : s.Unattended) (hp : Along (fun s a s' => s.step dcheckIsOn a = some s') s p) :
    (last s p).run ≠ .finished := by
  obtain ⟨-, hlast⟩ := along_invariant _ Unattended
    (fun s a s' hs h => unattended_step dcheckIsOn s s' a hs h) s p hs hp
  rcases hlast.run with hrun | hrun <;> simp [hrun]

end Application

namespace Startup

variable (env : StartEnv)

theorem stageActs_ok (css : List (List InitCall)) (h : ∀ cs ∈ css, stageOk env cs = true) :
    stageActs env css = List.replicate css.length (.stage true) ++ [.spawn] := by
  induction css with
  | nil => rfl
  | cons cs rest ih =>
      rw [stageActs, if_pos (h cs List.mem_cons_self),
        ih fun cs hcs => h cs (List.mem_cons_of_mem _ hcs)]
      rfl

/-- It stops at the first stage that fails. -/
theorem stageActs_failed (css : List (List InitCall)) (h : ∃ cs ∈ css, stageOk env cs = false) :
    ∃ n < css.length,
      stageActs env css = List.replicate n (.stage true) ++ [.stage false, .cleanup] := by
  induction css with
  | nil => simp at h
  | cons cs rest ih =>
      rw [stageActs]
      cases hstage : stageOk env cs with
      | false => exact ⟨0, Nat.succ_pos _, rfl⟩
      | true =>
          obtain ⟨cs', hcs', hfalse⟩ := h
          rcases List.mem_cons.mp hcs' with rfl | hcs'
          · exact absurd (hstage.symm.trans hfalse) (by decide)
          · obtain ⟨n, hn, hacts⟩ := ih ⟨cs', hcs', hfalse⟩
            exact ⟨n + 1, Nat.succ_lt_succ hn, by rw [if_pos rfl, hacts]; rfl⟩

theorem stageOk_iff :
    (∀ cs ∈ stages env.workerCount, stageOk env cs = true)
      ↔ ∀ c ∈ initCalls env.workerCount, env.call c = .ok := by
  rw [← stages_flatten]
  simp only [stageOk, List.all_eq_true, decide_eq_true_eq, List.mem_flatten, forall_exists_index,
    and_imp]
  exact ⟨fun h c cs hcs hc => h cs hcs c hc, fun h cs hcs c hc => h c cs hcs hc⟩

/-- Where `Start` returns, its steps in `Application` end with the same event thread and the same
    provider. -/
theorem start_replayed (dcheckIsOn shuttingDown : Bool) (quits : Nat → Application.QuitPc)
    (started : Started) (h : start env shuttingDown .initial = .returns started) :
    ∃ p, replay (Application.step dcheckIsOn) ⟨shuttingDown, false, none, .start, .absent, quits⟩
        (startActs env shuttingDown) = some p
      ∧ last ⟨shuttingDown, false, none, .start, .absent, quits⟩ p
        = ⟨shuttingDown, false, if started.members.provider then some true else none, .test,
            if started.eventThread then .created else .absent, quits⟩ := by
  cases shuttingDown with
  | true =>
      obtain rfl := Fate.returns.inj h
      exact ⟨_, rfl, rfl⟩
  | false =>
      obtain ⟨⟨ok, m⟩, hinit, h⟩ := (Fate.bind_eq_returns _ _ _).mp h
      by_cases hok : ∀ c ∈ initCalls env.workerCount, env.call c = .ok
      · obtain ⟨m', hm', hmade⟩ := initialise_succeeds env hok .initial
        obtain ⟨rfl, rfl⟩ := Prod.mk.inj (Fate.returns.inj (hm'.symm.trans hinit))
        have hacts : startActs env false
            = .start :: (List.replicate 5 (.stage true) ++ [.spawn]) :=
          congrArg _ (stageActs_ok env _ ((stageOk_iff env).mpr hok))
        dsimp only at h
        rw [if_pos rfl] at h
        split at h
        · obtain rfl := Fate.returns.inj h
          rw [hacts, hmade.provider]
          exact ⟨_, rfl, rfl⟩
        · exact absurd h (by simp)
      · have hfailed : ∃ cs ∈ stages env.workerCount, stageOk env cs = false := by
          by_contra hnone
          refine hok ((stageOk_iff env).mp fun cs hcs => ?_)
          exact eq_true_of_ne_false fun hfalse => hnone ⟨cs, hcs, hfalse⟩
        obtain ⟨n, hn, hacts⟩ := stageActs_failed env _ hfailed
        have hfails : Fails env := by
          simpa only [Fails, not_forall, exists_prop] using hok
        obtain ⟨rfl, hreleased, -⟩ := initialise_released env hfails ok m hinit
        obtain rfl := Fate.returns.inj h
        have hstart : startActs env false
            = .start :: (List.replicate n (.stage true) ++ [.stage false, .cleanup]) :=
          congrArg _ hacts
        rw [hstart, hreleased.provider]
        have hn : n < 5 := hn
        interval_cases n <;> exact ⟨_, rfl, rfl⟩

/-- **A start-up that fails is waited for**: if `Start` returns without an event thread, `Run` does
    not finish, whatever the other threads do. -/
theorem failedStart_waits (dcheckIsOn shuttingDown : Bool) (quits : Nat → Application.QuitPc)
    (started : Started) (h : start env shuttingDown .initial = .returns started)
    (habsent : started.eventThread = false) :
    ∃ p, replay (Application.step dcheckIsOn) ⟨shuttingDown, false, none, .start, .absent, quits⟩
        (startActs env shuttingDown) = some p
      ∧ ∀ q, Along (fun s a s' => s.step dcheckIsOn a = some s')
          (last ⟨shuttingDown, false, none, .start, .absent, quits⟩ p) q →
        (last (last ⟨shuttingDown, false, none, .start, .absent, quits⟩ p) q).run ≠ .finished := by
  obtain ⟨p, hp, hlast⟩ := start_replayed env dcheckIsOn shuttingDown quits started h
  refine ⟨p, hp, fun q hq => Application.unattended_waits dcheckIsOn _ q ?_ hq⟩
  rw [hlast, habsent]
  exact ⟨.inl rfl, rfl, rfl⟩

end Startup

end Hitsuji
