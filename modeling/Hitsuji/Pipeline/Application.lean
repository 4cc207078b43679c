import Hitsuji.Lib.Transition
import Mathlib.Logic.Function.Basic

set_option autoImplicit false

/-! # Quitting the application

The application build: `hitsuji_t::Run` starts the provider and waits for the event thread, and the
console control handler calls `Quit` on threads of its own, at any time. A quit is kept in two
flags, which are read at different times: `shutting_down_`, once at the beginning of `Start`, and
`keep_running_` of the provider, which does not exist before the middle of `Initialize`.

The model has a step for each access to what the threads share. A step that would end the process,
by an assertion or by an exception that nothing catches, is not enabled. -/

namespace Hitsuji

open Transition

namespace Application

/-! ## State -/

/-- What is left of `Initialize`; each stage may fail, and goes to `cleanup` then. -/
inductive InitStage where
  | zmq
  | upa
  /-- `provider_.reset (new provider_t (…))` -/
  | provider
  | providerInitialize
  | workers
  deriving DecidableEq

/-- Where `hitsuji_t::Run` is, from the registration of the handler on. -/
inductive RunPc where
  | start
  | initialising (stage : InitStage)
  | cleanup
  | spawn
  /-- before the test of `mainloop_shutdown_`, under `mainloop_lock_` -/
  | test
  /-- in `mainloop_cond_.wait` -/
  | waiting
  | reset
  | finished
  deriving DecidableEq

/-- Where the event thread is. -/
inductive EventPc where
  | absent
  | created
  /-- before `DoWork` -/
  | doWork
  /-- before the test of `keep_running_` -/
  | test (didWork : Bool)
  | select
  /-- before `keep_running_ = true` -/
  | leave
  /-- before `mainloop_shutdown_` is set -/
  | signal
  | over
  deriving DecidableEq

/-- `provider_t::Run` comes to no further `DoWork`. -/
def EventPc.isDone : EventPc → Bool
  | .signal | .over => true
  | _ => false

/-- Where a call of `Quit` is. -/
inductive QuitPc where
  | outside
  /-- `shutting_down_` is set -/
  | stored
  /-- there is a provider to call -/
  | found
  | returned
  deriving DecidableEq

end Application

/-- The members of `hitsuji_t` that the threads share, and the threads. -/
structure Application where
  shuttingDown : Bool
  mainloopShutdown : Bool
  /-- `keep_running_`, while there is a provider -/
  provider : Option Bool
  run : Application.RunPc
  event : Application.EventPc
  /-- the calls of `Quit`, each on a thread of its own -/
  quits : Nat → Application.QuitPc

namespace Application

/-! ## Steps -/

/-- What can happen. -/
inductive Act where
  /-- `Start` tests `shutting_down_` -/
  | start
  /-- a stage of `Initialize` -/
  | stage (ok : Bool)
  /-- `Reset` at the end of an `Initialize` that failed -/
  | cleanup
  /-- the event thread is created -/
  | spawn
  /-- `Run` tests `mainloop_shutdown_` -/
  | testShutdown
  /-- `mainloop_cond_.wait` returns, notified or not -/
  | wake
  /-- `Reset` at the end of `Run` -/
  | reset
  /-- the event thread enters `provider_t::Run` -/
  | enter
  /-- `DoWork` starts, and what it returns; `none` if it throws -/
  | doWork (didWork : Option Bool)
  | testRunning
  | selected
  | leave
  | signal
  /-- the three steps of `Quit` -/
  | quitStore (i : Nat)
  | quitTest (i : Nat)
  | quitCall (i : Nat)
  deriving DecidableEq

/-- The stage after a stage of `Initialize`. -/
def InitStage.next : InitStage → RunPc
  | .zmq => .initialising .upa
  | .upa => .initialising .provider
  | .provider => .initialising .providerInitialize
  | .providerInitialize => .initialising .workers
  | .workers => .spawn

/-- One step. `Start` returns true whether or not it created the event thread. -/
def step (dcheckIsOn : Bool) (s : Application) : Act → Option Application
  | .start =>
      if s.run = .start then
        some { s with run := if s.shuttingDown then .test else .initialising .zmq }
      else none
  | .stage ok =>
      match s.run with
      | .initialising stage =>
          if ok then
            some { s with
              run := stage.next
              provider := if stage = .provider then some true else s.provider }
          else some { s with run := .cleanup }
      | _ => none
  | .cleanup => if s.run = .cleanup then some { s with run := .test, provider := none } else none
  | .spawn => if s.run = .spawn then some { s with run := .test, event := .created } else none
  | .testShutdown =>
      if s.run = .test then
        some { s with run := if s.mainloopShutdown then .reset else .waiting }
      else none
  | .wake => if s.run = .waiting then some { s with run := .test } else none
  | .reset => if s.run = .reset then some { s with run := .finished, provider := none } else none
  | .enter =>
      -- DCHECK (keep_running_)
      if s.event = .created ∧ (dcheckIsOn = true → s.provider = some true) then
        some { s with event := .doWork }
      else none
  | .doWork didWork =>
      if s.event = .doWork then
        some { s with event := didWork.elim .signal .test }
      else none
  | .testRunning =>
      match s.event with
      | .test didWork =>
          if s.provider = some true then
            some { s with event := if didWork then .doWork else .select }
          else some { s with event := .leave }
      | _ => none
  | .selected => if s.event = .select then some { s with event := .doWork } else none
  | .leave =>
      if s.event = .leave then
        some { s with event := .signal, provider := s.provider.map fun _ => true }
      else none
  | .signal =>
      if s.event = .signal then some { s with event := .over, mainloopShutdown := true } else none
  | .quitStore i =>
      if s.quits i = .outside then
        some { s with shuttingDown := true, quits := Function.update s.quits i .stored }
      else none
  | .quitTest i =>
      if s.quits i = .stored then
        some { s with
          quits := Function.update s.quits i (if s.provider.isSome then .found else .returned) }
      else none
  | .quitCall i =>
      if s.quits i = .found then
        some { s with
          provider := s.provider.map fun _ => false
          quits := Function.update s.quits i .returned }
      else none

/-- Before `Start`, with the handler registered. -/
def initial : Application where
  shuttingDown := false
  mainloopShutdown := false
  provider := none
  run := .start
  event := .absent
  quits := fun _ => .outside

/-- The application, in a build with or without assertions. -/
def system (dcheckIsOn : Bool) : System Application Act :=
  .ofFn (· = initial) (step dcheckIsOn)

/-! ## What a quit is for -/

/-- A call of `Quit` has returned. -/
def QuitReturned (s : Application) : Prop :=
  ∃ i, s.quits i = .returned

/-- `provider_t::Run` does not start `DoWork` while it is to keep running after a quit. -/
def Stops (s : Application) (a : Act) : Prop :=
  ∀ didWork, a = .doWork didWork → s.QuitReturned → s.provider ≠ some true

/-- `Run` waits for an event thread that was never created. -/
def WaitsInVain (s : Application) : Prop :=
  s.run = .waiting ∧ s.mainloopShutdown = false ∧ s.event = .absent

/-- No quit is lost in a step. -/
def QuitKept (s : Application) (a : Act) (s' : Application) : Prop :=
  s.Stops a ∧ ¬ s'.WaitsInVain

/-- No quit is there for `Start` to see, `Initialize` succeeds, and a quit that looks for the
    provider finds it or comes after the pump. -/
def Clear (s : Application) : Act → Prop
  | .start => s.shuttingDown = false
  | .stage ok => ok = true
  | .quitTest _ => s.provider.isSome = true ∨ s.event.isDone = true
  | _ => True

instance decidableClear (s : Application) : (a : Act) → Decidable (s.Clear a)
  | .start => inferInstanceAs (Decidable (s.shuttingDown = false))
  | .stage ok => inferInstanceAs (Decidable (ok = true))
  | .quitTest _ =>
      inferInstanceAs (Decidable (s.provider.isSome = true ∨ s.event.isDone = true))
  | .cleanup | .spawn | .testShutdown | .wake | .reset | .enter | .doWork _ | .testRunning
  | .selected | .leave | .signal | .quitStore _ | .quitCall _ => .isTrue trivial

/-! ## An invariant -/

/-- The provider and the event thread that there are once `Run` has come this far; it does not come
    to `cleanup`. -/
def RunPc.Meets (provider : Option Bool) (event : EventPc) : RunPc → Prop
  | .start | .initialising .zmq | .initialising .upa | .initialising .provider =>
      provider = none ∧ event = .absent
  | .initialising .providerInitialize | .initialising .workers | .spawn =>
      provider.isSome = true ∧ event = .absent
  | .test | .waiting => provider.isSome = true ∧ event ≠ .absent
  | .reset | .finished => event = .over
  | .cleanup => False

/-- What a quit that found the provider, or has returned, relies on and has done. -/
structure Sound (s : Application) : Prop where
  run : s.run.Meets s.provider s.event
  shutdown : s.mainloopShutdown = true → s.event = .over
  found : ∀ i, s.quits i = .found → s.provider.isSome = true ∨ s.event.isDone = true
  returned : ∀ i, s.quits i = .returned → s.provider = some false ∨ s.event.isDone = true

theorem sound_initial : initial.Sound where
  run := ⟨rfl, rfl⟩
  shutdown := nofun
  found := nofun
  returned := nofun

theorem meets_of_sound (s : Application) (run : RunPc) (hs : s.Sound) (hrun : s.run = run) :
    run.Meets s.provider s.event := by
  rw [← hrun]
  exact hs.run

/-- Storing into `keep_running_` neither makes a provider nor takes it away. -/
theorem meets_store (run : RunPc) (provider : Option Bool) (event : EventPc) (keep : Bool)
    (h : run.Meets provider event) : run.Meets (provider.map fun _ => keep) event := by
  rcases run with _ | (_ | _ | _ | _ | _) | _ | _ | _ | _ | _ | _
  case cleanup => exact h
  all_goals simpa [RunPc.Meets] using h

/-- A running event thread has been created, and `Run` does not go past it. -/
theorem meets_event (run : RunPc) (provider : Option Bool) (event event' : EventPc)
    (h : run.Meets provider event) (habsent : event ≠ .absent) (hover : event ≠ .over)
    (habsent' : event' ≠ .absent) : run.Meets provider event' := by
  rcases run with _ | (_ | _ | _ | _ | _) | _ | _ | _ | _ | _ | _
  case test | waiting => exact ⟨h.1, habsent'⟩
  case reset | finished => exact absurd h hover
  case cleanup => exact h
  all_goals exact absurd h.2 habsent

/-- A step of the event thread that leaves the flags alone. -/
theorem sound_event (s : Application) (event : EventPc) (hs : s.Sound) (habsent : s.event ≠ .absent)
    (hdone : s.event.isDone = false) (habsent' : event ≠ .absent) :
    Sound { s with event := event } where
  run := meets_event s.run s.provider s.event event hs.run habsent
    (fun hover => absurd (hover ▸ hdone) (by decide)) habsent'
  shutdown h := absurd (hs.shutdown h ▸ hdone) (by decide)
  found i h := .inl ((hs.found i h).resolve_right (by simp [hdone]))
  returned i h := .inl ((hs.returned i h).resolve_right (by simp [hdone]))

/-- A step of `Run` that leaves the flags and the provider alone. -/
theorem sound_run (s : Application) (run : RunPc) (hs : s.Sound)
    (hrun : run.Meets s.provider s.event) : Sound { s with run := run } where
  run := hrun
  shutdown := hs.shutdown
  found := hs.found
  returned := hs.returned

/-- A stage of `Initialize` that succeeds. -/
theorem sound_stage (s : Application) (stage : InitStage) (hs : s.Sound)
    (hrun : s.run = .initialising stage) :
    Sound { s with
      run := stage.next
      provider := if stage = .provider then some true else s.provider } := by
  have hmeets := meets_of_sound s _ hs hrun
  cases stage with
  | zmq | upa | providerInitialize | workers => exact sound_run s _ hs hmeets
  | provider =>
      obtain ⟨hprovider, hevent⟩ := hmeets
      refine ⟨⟨rfl, hevent⟩, hs.shutdown, fun i h => .inl rfl, fun i h => ?_⟩
      -- before there is a provider no quit returns
      rcases hs.returned i h with hfalse | hdone
      · exact absurd (hprovider ▸ hfalse) (by simp)
      · exact .inr hdone

/-- After a step of one call of `Quit`, a call is where it was or is the one that moved. -/
theorem quit_update (s : Application) (i j : Nat) (pc pc' : QuitPc)
    (h : Function.update s.quits i pc j = pc') : s.quits j = pc' ∨ j = i ∧ pc = pc' := by
  by_cases hj : j = i
  · subst hj
    rw [Function.update_self] at h
    exact .inr ⟨rfl, h⟩
  · rw [Function.update_of_ne hj] at h
    exact .inl h

/-- A step of one call of `Quit`. -/
theorem sound_quit (s : Application) (i : Nat) (pc : QuitPc) (hs : s.Sound)
    (hfound : pc = .found → s.provider.isSome = true ∨ s.event.isDone = true)
    (hreturned : pc = .returned → s.provider = some false ∨ s.event.isDone = true) :
    Sound { s with quits := Function.update s.quits i pc } where
  run := hs.run
  shutdown := hs.shutdown
  found j hj := by
    rcases quit_update s i j _ _ hj with hsame | ⟨-, hpc⟩
    · exact hs.found j hsame
    · exact hfound hpc
  returned j hj := by
    rcases quit_update s i j _ _ hj with hsame | ⟨-, hpc⟩
    · exact hs.returned j hsame
    · exact hreturned hpc

/-- `provider_t::Quit` -/
theorem sound_providerQuit (s : Application) (hs : s.Sound) :
    Sound { s with provider := s.provider.map fun _ => false } where
  run := meets_store _ _ _ false hs.run
  shutdown := hs.shutdown
  found j hj := (hs.found j hj).imp_left fun hsome => by simpa using hsome
  returned j hj := (hs.returned j hj).imp_left fun hfalse => by simp [hfalse]

/-- **A clear step keeps the invariant.** -/
theorem sound_step (dcheckIsOn : Bool) (s s' : Application) (a : Act) (hs : s.Sound)
    (hclear : s.Clear a) (h : s.step dcheckIsOn a = some s') : s'.Sound := by
  cases a with
  | start =>
      obtain ⟨hrun, h⟩ := Option.ite_none_right_eq_some.mp h
      obtain rfl := Option.some.inj h
      have hmeets := meets_of_sound s _ hs hrun
      have hinit : (if s.shuttingDown then RunPc.test else .initialising .zmq)
          = .initialising .zmq := if_neg (ne_true_of_eq_false hclear)
      rw [hinit]
      exact sound_run s (.initialising .zmq) hs hmeets
  | stage ok =>
      simp only [step] at h
      split at h
      · next stage hrun =>
          obtain rfl : ok = true := hclear
          obtain rfl := Option.some.inj h
          exact sound_stage s stage hs hrun
      · exact absurd h (by simp)
  | cleanup =>
      obtain ⟨hrun, h⟩ := Option.ite_none_right_eq_some.mp h
      have hmeets := meets_of_sound s _ hs hrun
      exact hmeets.elim
  | spawn =>
      obtain ⟨hrun, h⟩ := Option.ite_none_right_eq_some.mp h
      obtain rfl := Option.some.inj h
      have hmeets := meets_of_sound s _ hs hrun
      obtain ⟨hprovider, hevent⟩ := hmeets
      have hdone : s.event.isDone = false := hevent ▸ rfl
      refine ⟨⟨hprovider, nofun⟩, fun hset => ?_, fun i h => .inl hprovider, fun i h => ?_⟩
      · exact absurd (hevent.symm.trans (hs.shutdown hset)) (by decide)
      · exact .inl ((hs.returned i h).resolve_right (by simp [hdone]))
  | testShutdown =>
      obtain ⟨hrun, h⟩ := Option.ite_none_right_eq_some.mp h
      obtain rfl := Option.some.inj h
      have hmeets := meets_of_sound s _ hs hrun
      refine sound_run s _ hs ?_
      split
      · next hset => exact hs.shutdown hset
      · exact hmeets
  | wake =>
      obtain ⟨hrun, h⟩ := Option.ite_none_right_eq_some.mp h
      obtain rfl := Option.some.inj h
      have hmeets := meets_of_sound s _ hs hrun
      exact sound_run s _ hs hmeets
  | reset =>
      obtain ⟨hrun, h⟩ := Option.ite_none_right_eq_some.mp h
      obtain rfl := Option.some.inj h
      have hmeets := meets_of_sound s _ hs hrun
      have hover : s.event = .over := hmeets
      have hdone : s.event.isDone = true := hover ▸ rfl
      exact ⟨hover, hs.shutdown, fun _ _ => .inr hdone, fun _ _ => .inr hdone⟩
  | enter =>
      obtain ⟨⟨hevent, -⟩, h⟩ := Option.ite_none_right_eq_some.mp h
      obtain rfl := Option.some.inj h
      exact sound_event s .doWork hs (hevent ▸ nofun) (hevent ▸ rfl) nofun
  | doWork didWork =>
      obtain ⟨hevent, h⟩ := Option.ite_none_right_eq_some.mp h
      obtain rfl := Option.some.inj h
      refine sound_event s _ hs (hevent ▸ nofun) (hevent ▸ rfl) ?_
      cases didWork <;> exact nofun
  | testRunning =>
      simp only [step] at h
      split at h
      · next didWork hevent =>
          split at h
          · obtain rfl := Option.some.inj h
            refine sound_event s _ hs (hevent ▸ nofun) (hevent ▸ rfl) ?_
            cases didWork <;> exact nofun
          · obtain rfl := Option.some.inj h
            exact sound_event s .leave hs (hevent ▸ nofun) (hevent ▸ rfl) nofun
      · exact absurd h (by simp)
  | selected =>
      obtain ⟨hevent, h⟩ := Option.ite_none_right_eq_some.mp h
      obtain rfl := Option.some.inj h
      exact sound_event s .doWork hs (hevent ▸ nofun) (hevent ▸ rfl) nofun
  | leave =>
      obtain ⟨hevent, h⟩ := Option.ite_none_right_eq_some.mp h
      obtain rfl := Option.some.inj h
      refine ⟨?_, fun hset => ?_, fun _ _ => .inr rfl, fun _ _ => .inr rfl⟩
      · exact meets_store _ _ _ true
          (meets_event s.run s.provider s.event .signal hs.run (hevent ▸ nofun) (hevent ▸ nofun)
            nofun)
      · exact absurd (hevent.symm.trans (hs.shutdown hset)) (by decide)
  | signal =>
      obtain ⟨hevent, h⟩ := Option.ite_none_right_eq_some.mp h
      obtain rfl := Option.some.inj h
      refine ⟨?_, fun _ => rfl, fun _ _ => .inr rfl, fun _ _ => .inr rfl⟩
      exact meets_event s.run s.provider s.event .over hs.run (hevent ▸ nofun) (hevent ▸ nofun)
        nofun
  | quitStore i =>
      obtain ⟨-, h⟩ := Option.ite_none_right_eq_some.mp h
      obtain rfl := Option.some.inj h
      have hset : Sound { s with shuttingDown := true } :=
        ⟨hs.run, hs.shutdown, hs.found, hs.returned⟩
      exact sound_quit _ i .stored hset nofun nofun
  | quitTest i =>
      obtain ⟨-, h⟩ := Option.ite_none_right_eq_some.mp h
      obtain rfl := Option.some.inj h
      have hseen : s.provider.isSome = true ∨ s.event.isDone = true := hclear
      refine sound_quit s i _ hs (fun _ => hseen) fun hreturns => ?_
      -- it returns here only if there is no provider
      refine .inr (hseen.resolve_left fun hsome => ?_)
      rw [if_pos hsome] at hreturns
      exact absurd hreturns (by decide)
  | quitCall i =>
      obtain ⟨hfound, h⟩ := Option.ite_none_right_eq_some.mp h
      obtain rfl := Option.some.inj h
      refine sound_quit _ i .returned (sound_providerQuit s hs) nofun fun _ => ?_
      refine (hs.found i hfound).imp_left fun hsome => ?_
      obtain ⟨keep, hkeep⟩ := Option.isSome_iff_exists.mp hsome
      simp [hkeep]

/-! ## Quits are kept -/

/-- In a sound state, `DoWork` does not start to keep running after a quit. -/
theorem stops_of_sound (dcheckIsOn : Bool) (s s' : Application) (a : Act) (hs : s.Sound)
    (h : s.step dcheckIsOn a = some s') : s.Stops a := by
  rintro didWork rfl ⟨i, hi⟩
  obtain ⟨hevent, -⟩ := Option.ite_none_right_eq_some.mp h
  rcases hs.returned i hi with hfalse | hdone
  · rw [hfalse]
    simp
  · exact absurd (hevent ▸ hdone) (by decide)

/-- In a sound state, `Run` waits for an event thread that was created. -/
theorem not_waitsInVain (s : Application) (hs : s.Sound) : ¬ s.WaitsInVain := by
  rintro ⟨hwaiting, -, habsent⟩
  have hmeets := hs.run
  rw [hwaiting] at hmeets
  exact hmeets.2 habsent

/-- **No quit is lost**, whatever the order of the threads' steps, in a run whose steps are all
    clear. -/
theorem quits_kept (dcheckIsOn : Bool) (s₀ : Application) (p : Steps Application Act)
    (hrun : (system dcheckIsOn).Run s₀ p) (hclear : Along (fun s a _ => s.Clear a) s₀ p) :
    Along QuitKept s₀ p := by
  obtain ⟨rfl, hsteps⟩ := hrun
  have hboth := (along_and _ _ _ p).mpr ⟨hsteps, hclear⟩
  obtain ⟨hsound, -⟩ := along_invariant _ Sound
    (fun s a s' hs h => sound_step dcheckIsOn s s' a hs h.2 h.1) initial p sound_initial hboth
  refine along_imp _ _ (fun s a s' h => ?_) initial p ((along_and _ _ _ p).mpr ⟨hsound, hsteps⟩)
  exact ⟨stops_of_sound dcheckIsOn s s' a h.1.1 h.2, not_waitsInVain s' h.1.2⟩

/-! ## Nothing else would do -/

/-- From here on a quit can be lost. -/
def CanLose (dcheckIsOn : Bool) (s : Application) : Prop :=
  ∃ p, Along (fun s a s' => s.step dcheckIsOn a = some s') s p ∧ ¬ Along QuitKept s p

section

variable (dcheckIsOn : Bool) (s s' : Application) (a : Act)

theorem canLose_of_lost (h : s.step dcheckIsOn a = some s') (hlost : ¬ s.QuitKept a s') :
    s.CanLose dcheckIsOn :=
  ⟨[(a, s')], ⟨h, trivial⟩, fun hkept => hlost hkept.1⟩

theorem canLose_of_step (h : s.step dcheckIsOn a = some s') (hlose : s'.CanLose dcheckIsOn) :
    s.CanLose dcheckIsOn := by
  obtain ⟨p, hp, hlost⟩ := hlose
  exact ⟨(a, s') :: p, ⟨h, hp⟩, fun hkept => hlost hkept.2⟩

/-- `Start` has returned without an event thread. -/
theorem canLose_test (hrun : s.run = .test) (hevent : s.event = .absent)
    (hshutdown : s.mainloopShutdown = false) : s.CanLose dcheckIsOn := by
  refine canLose_of_lost dcheckIsOn s { s with run := .waiting } .testShutdown ?_ ?_
  · simp [step, hrun, hshutdown]
  · exact fun hkept => hkept.2 ⟨rfl, hshutdown, hevent⟩

/-- A quit has returned, and the provider is created next. -/
theorem canLose_provider (hrun : s.run = .initialising .provider) (hquit : s.QuitReturned) :
    s.CanLose dcheckIsOn := by
  let made : Application :=
    { s with run := .initialising .providerInitialize, provider := some true }
  have hmade : s.step dcheckIsOn (.stage true) = some made := by
    simp [step, hrun, made, InitStage.next]
  refine canLose_of_step dcheckIsOn s made (.stage true) hmade ?_
  refine canLose_of_step dcheckIsOn made { made with run := .initialising .workers } (.stage true)
    (by simp [step, made, InitStage.next]) ?_
  refine canLose_of_step dcheckIsOn _ { made with run := .spawn } (.stage true)
    (by simp [step, made, InitStage.next]) ?_
  refine canLose_of_step dcheckIsOn _ { made with run := .test, event := .created } .spawn
    (by simp [step, made]) ?_
  refine canLose_of_step dcheckIsOn _ { made with run := .test, event := .doWork } .enter
    (by simp [step, made]) ?_
  refine canLose_of_lost dcheckIsOn _ { made with run := .test, event := .test false }
    (.doWork (some false)) (by simp [step, made]) ?_
  exact fun hkept => hkept.1 (some false) rfl hquit rfl

/-- The same two stages before. -/
theorem canLose_upa (hrun : s.run = .initialising .upa) (hquit : s.QuitReturned) :
    s.CanLose dcheckIsOn := by
  refine canLose_of_step dcheckIsOn s { s with run := .initialising .provider } (.stage true)
    (by simp [step, hrun, InitStage.next]) ?_
  exact canLose_provider dcheckIsOn _ rfl hquit

theorem canLose_zmq (hrun : s.run = .initialising .zmq) (hquit : s.QuitReturned) :
    s.CanLose dcheckIsOn := by
  refine canLose_of_step dcheckIsOn s { s with run := .initialising .upa } (.stage true)
    (by simp [step, hrun, InitStage.next]) ?_
  exact canLose_upa dcheckIsOn _ rfl hquit

/-- And wherever else there is no provider yet. -/
theorem canLose_early (hmeets : s.run.Meets s.provider s.event) (hprovider : s.provider = none)
    (hdone : s.event.isDone = false) (hshutdown : s.mainloopShutdown = true → s.event = .over)
    (hquit : s.QuitReturned) : s.CanLose dcheckIsOn := by
  have hunset : s.mainloopShutdown = false :=
    Bool.eq_false_iff.mpr fun hset => absurd (hshutdown hset ▸ hdone) (by decide)
  cases hrun : s.run with
  | start =>
      rw [hrun] at hmeets
      refine canLose_of_step dcheckIsOn s
        { s with run := if s.shuttingDown then .test else .initialising .zmq } .start
        (by simp [step, hrun]) ?_
      by_cases hset : s.shuttingDown = true
      · exact canLose_test dcheckIsOn _ (if_pos hset) hmeets.2 hunset
      · exact canLose_zmq dcheckIsOn _ (if_neg hset) hquit
  | initialising stage =>
      rw [hrun] at hmeets
      cases stage with
      | zmq => exact canLose_zmq dcheckIsOn s hrun hquit
      | upa => exact canLose_upa dcheckIsOn s hrun hquit
      | provider => exact canLose_provider dcheckIsOn s hrun hquit
      | providerInitialize | workers => exact absurd (hprovider ▸ hmeets.1) (by decide)
  | spawn | test | waiting =>
      rw [hrun] at hmeets
      exact absurd (hprovider ▸ hmeets.1) (by decide)
  | reset | finished =>
      rw [hrun] at hmeets
      have hover : s.event = .over := hmeets
      exact absurd (hover ▸ hdone) (by decide)
  | cleanup =>
      rw [hrun] at hmeets
      exact hmeets.elim

/-- **A step that is not clear can lose a quit**: the run that took it can be continued to a wait in
    vain or to a pump that runs on. -/
theorem canLose_of_not_clear (hs : s.Sound) (h : s.step dcheckIsOn a = some s')
    (hnot : ¬ s.Clear a) : s'.CanLose dcheckIsOn := by
  have hshutdown : s.event = .absent → s.mainloopShutdown = false := fun hevent =>
    Bool.eq_false_iff.mpr fun hset => absurd (hevent.symm.trans (hs.shutdown hset)) (by decide)
  have hmeets := hs.run
  cases a with
  | start =>
      obtain ⟨hrun, h⟩ := Option.ite_none_right_eq_some.mp h
      obtain rfl := Option.some.inj h
      rw [hrun] at hmeets
      have hset : s.shuttingDown = true := eq_true_of_ne_false hnot
      exact canLose_test dcheckIsOn _ (if_pos hset) hmeets.2 (hshutdown hmeets.2)
  | stage ok =>
      obtain rfl : ok = false := Bool.eq_false_iff.mpr hnot
      simp only [step] at h
      split at h
      · next stage hrun =>
          obtain rfl := Option.some.inj h
          have hevent : s.event = .absent := by
            rw [hrun] at hmeets
            cases stage <;> exact hmeets.2
          refine canLose_of_step dcheckIsOn _ { s with run := .test, provider := none } .cleanup
            (by simp [step]) ?_
          exact canLose_test dcheckIsOn _ rfl hevent (hshutdown hevent)
      · exact absurd h (by simp)
  | quitTest i =>
      obtain ⟨-, h⟩ := Option.ite_none_right_eq_some.mp h
      obtain rfl := Option.some.inj h
      obtain ⟨hnone, hdone⟩ := not_or.mp hnot
      rw [Bool.not_eq_true] at hdone
      refine canLose_early dcheckIsOn _ hmeets (Option.not_isSome_iff_eq_none.mp hnone) hdone
        hs.shutdown ⟨i, ?_⟩
      show Function.update s.quits i _ i = _
      rw [Function.update_self, if_neg hnone]
  | cleanup | spawn | testShutdown | wake | reset | enter | doWork | testRunning | selected | leave
  | signal | quitStore | quitCall => exact absurd trivial hnot

end

/-- The provider is started, with all its stages. -/
def started : List Act :=
  [.start, .stage true, .stage true, .stage true, .stage true, .stage true, .spawn]

/-- Quit while the pump waits in `select`. -/
def quitWhilePumping : List Act :=
  started ++ [.testShutdown, .enter, .doWork (some false), .testRunning, .quitStore 0, .quitTest 0,
    .quitCall 0, .selected, .doWork (some true), .testRunning, .leave, .signal, .wake,
    .testShutdown, .reset]

theorem quitWhilePumping_kept : ∃ p, replay (step true) initial quitWhilePumping = some p
    ∧ Along QuitKept initial p ∧ (last initial p).run = .finished :=
  ⟨_, rfl, quits_kept true initial _
    (run_replay _ (step true) initial quitWhilePumping _ rfl rfl) (by decide), rfl⟩

/-- Quit before `Start` tests `shutting_down_`. -/
def quitBeforeStart : List Act :=
  [.quitStore 0, .quitTest 0, .start, .testShutdown]

/-- Quit before there is a provider. -/
def quitBeforeProvider : List Act :=
  [.start, .quitStore 0, .quitTest 0, .stage true, .stage true, .stage true, .stage true,
    .stage true, .spawn, .enter, .doWork (some false)]

/-- The first stage fails. -/
def initializeFails : List Act :=
  [.start, .stage false, .cleanup, .testShutdown]

/-- A quit that comes too early is lost: `Run` waits for a thread that `Start` did not create, or
    the pump runs on. Where `Initialize` fails, it waits without any quit. -/
theorem quitBeforeStart_lost :
    (∃ p, (system false).Run initial p ∧ replay (step false) initial quitBeforeStart = some p
      ∧ (last initial p).QuitReturned ∧ ¬ Along QuitKept initial p)
    ∧ (∃ p, (system false).Run initial p ∧ replay (step false) initial quitBeforeProvider = some p
      ∧ (last initial p).QuitReturned ∧ ¬ Along QuitKept initial p)
    ∧ ∃ p, (system false).Run initial p ∧ replay (step false) initial initializeFails = some p
      ∧ ¬ Along QuitKept initial p := by
  refine ⟨⟨_, run_replay _ (step false) initial quitBeforeStart _ rfl rfl, rfl, ⟨0, rfl⟩, ?_⟩,
    ⟨_, run_replay _ (step false) initial quitBeforeProvider _ rfl rfl, rfl, ⟨0, rfl⟩, ?_⟩,
    _, run_replay _ (step false) initial initializeFails _ rfl rfl, rfl, ?_⟩
  · rintro ⟨-, -, -, ⟨-, hwaits⟩, -⟩
    exact hwaits ⟨rfl, rfl, rfl⟩
  · rintro ⟨-, -, -, -, -, -, -, -, -, -, ⟨hstops, -⟩, -⟩
    exact hstops (some false) rfl ⟨0, rfl⟩ rfl
  · rintro ⟨-, -, -, ⟨-, hwaits⟩, -⟩
    exact hwaits ⟨rfl, rfl, rfl⟩

end Application

end Hitsuji
