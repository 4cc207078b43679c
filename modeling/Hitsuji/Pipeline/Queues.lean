import Hitsuji.Lib.Transition
import Mathlib.Algebra.Order.BigOperators.Group.Finset
import Mathlib.Data.Fintype.Basic

set_option autoImplicit false

/-! # The bounded queues between the main thread and the workers

The main thread pushes requests into one ZeroMQ pipe per worker and pulls replies from another, all
bounded, and each blocking send waits for room. `Pipeline.Server` says what the messages do; here is
only where each thread stands and how full each pipe is.

The main thread is the one consumer of replies, at most one in a pass of `DoWork`, and pushes up to
one request per connection in the same pass. It cannot get stuck as long as no request is accepted
once the pipes and workers can hold no more. -/

namespace Hitsuji

open Transition

/-! ## Threads and pipes -/

/-- Where a worker is in `worker_t::MainLoop`. -/
inductive WorkerPc where
  /-- in `zmq_msg_recv` -/
  | receiving
  /-- in `OnTask` -/
  | working
  /-- in `zmq_msg_send` of `SendReply` -/
  | sending
  /-- the loop is left -/
  | stopped
  deriving DecidableEq

/-- A worker with its request pipe and its reply pipe. -/
structure Lane where
  requests : Nat
  worker : WorkerPc
  replies : Nat
  deriving DecidableEq

/-- The requests a worker has in its hands. -/
def WorkerPc.holds : WorkerPc → Nat
  | .working | .sending => 1
  | .receiving | .stopped => 0

/-- The requests a worker has, in its pipes and in its hands. -/
def Lane.load (l : Lane) : Nat :=
  l.requests + l.worker.holds + l.replies

/-- Where the main thread is. -/
inductive MainPc where
  /-- in `select`, or between two passes of `DoWork` -/
  | polling
  /-- in the loop over the connections, so many left -/
  | serving (left : Nat)
  /-- in `zmq_msg_send` of `OnRequest`, so many left -/
  | sending (left : Nat)
  deriving DecidableEq

/-- How much the pipes hold. -/
structure Capacities (n : Nat) where
  request : Fin n → Nat
  reply : Fin n → Nat
  request_pos : ∀ i, 0 < request i
  reply_pos : ∀ i, 0 < reply i

/-- What the pipes and the workers can hold together. -/
def Capacities.total {n : Nat} (cap : Capacities n) : Nat :=
  ∑ i, (cap.request i + 1 + cap.reply i)

/-- The threads and the pipes between them. -/
structure Queues (n : Nat) where
  main : MainPc
  lanes : Fin n → Lane

/-! ## Steps -/

/-- What a worker does. -/
inductive WorkerAct where
  | take
  | finish
  | reply
  | stop
  deriving DecidableEq

/-- A step of a worker whose reply pipe holds `capacity` messages. -/
def Lane.step (capacity : Nat) (l : Lane) : WorkerAct → Option Lane
  | .take =>
      if l.worker = .receiving ∧ 0 < l.requests then
        some { l with requests := l.requests - 1, worker := .working }
      else none
  | .finish => if l.worker = .working then some { l with worker := .sending } else none
  | .reply =>
      if l.worker = .sending ∧ l.replies < capacity then
        some { l with worker := .receiving, replies := l.replies + 1 }
      else none
  | .stop => some { l with worker := .stopped }

namespace Queues

variable {n : Nat}

/-- What can happen. -/
inductive Act (n : Nat) where
  /-- a pass of `DoWork` over so many connections begins, reading a reply if there is one -/
  | pass (connections : Nat) (reply : Option (Fin n))
  /-- a connection brings nothing, or a message other than an item request -/
  | skip
  /-- a connection brings an item request, and `OnRequest` sends it -/
  | request
  /-- the request goes to a worker -/
  | send (i : Fin n)
  /-- `zmq_msg_send` fails -/
  | sendFails
  /-- all connections are served -/
  | endPass
  | worker (i : Fin n) (a : WorkerAct)
  deriving DecidableEq

/-- One step. -/
def step (cap : Capacities n) (s : Queues n) : Act n → Option (Queues n)
  | .pass connections reply =>
      match s.main, reply with
      | .polling, none => some { s with main := .serving connections }
      | .polling, some i =>
          let l := s.lanes i
          if 0 < l.replies then
            some ⟨.serving connections,
              Function.update s.lanes i { l with replies := l.replies - 1 }⟩
          else none
      | _, _ => none
  | .skip =>
      match s.main with
      | .serving (left + 1) => some { s with main := .serving left }
      | _ => none
  | .request =>
      match s.main with
      | .serving (left + 1) => some { s with main := .sending left }
      | _ => none
  | .send i =>
      match s.main with
      | .sending left =>
          let l := s.lanes i
          if l.requests < cap.request i then
            some ⟨.serving left,
              Function.update s.lanes i { l with requests := l.requests + 1 }⟩
          else none
      | _ => none
  | .sendFails =>
      match s.main with
      | .sending left => some { s with main := .serving left }
      | _ => none
  | .endPass =>
      match s.main with
      | .serving 0 => some { s with main := .polling }
      | _ => none
  | .worker i a =>
      ((s.lanes i).step (cap.reply i) a).map fun l =>
        { s with lanes := Function.update s.lanes i l }

/-- Every pipe is empty and every worker waits. -/
def Initial (s : Queues n) : Prop :=
  s.main = .polling ∧ ∀ i, s.lanes i = ⟨0, .receiving, 0⟩

end Queues

/-- The threads over their lifetime. -/
def queueSystem {n : Nat} (cap : Capacities n) : System (Queues n) (Queues.Act n) :=
  .ofFn Queues.Initial (Queues.step cap)

namespace Queues

variable {n : Nat}

/-! ## Deadlock -/

/-- The main thread waits for room in a request pipe. -/
def MainBlocked (cap : Capacities n) (s : Queues n) : Prop :=
  (∃ left, s.main = .sending left) ∧ ∀ i, cap.request i ≤ (s.lanes i).requests

/-- A worker waits for room in its reply pipe. -/
def WorkerBlocked (cap : Capacities n) (s : Queues n) (i : Fin n) : Prop :=
  (s.lanes i).worker = .sending ∧ cap.reply i ≤ (s.lanes i).replies

/-- Everyone waits for someone else. -/
def Deadlocked (cap : Capacities n) (s : Queues n) : Prop :=
  s.MainBlocked cap ∧ ∀ i, s.WorkerBlocked cap i

/-- Nothing but a failure gets anyone out of a deadlock. -/
theorem deadlocked_stuck (cap : Capacities n) (s s' : Queues n) (hs : s.Deadlocked cap)
    (a : Act n) (h : s.step cap a = some s') :
    a = .sendFails ∨ ∃ i, a = .worker i .stop := by
  obtain ⟨⟨⟨left, hmain⟩, hfull⟩, hblocked⟩ := hs
  cases a with
  | sendFails => exact .inl rfl
  | pass connections reply =>
      simp only [step, hmain] at h
      exact absurd h (by simp)
  | skip | request | endPass =>
      simp only [step, hmain] at h
      exact absurd h (by simp)
  | send i =>
      simp only [step, hmain, if_neg (Nat.not_lt.mpr (hfull i))] at h
      exact absurd h (by simp)
  | worker i a =>
      obtain ⟨hsending, hreplies⟩ := hblocked i
      cases a with
      | stop => exact .inr ⟨i, rfl⟩
      | take | finish | reply =>
          simp [step, Lane.step, hsending, Nat.not_lt.mpr hreplies] at h

/-! ## Requests in flight -/

/-- The requests accepted whose reply the main thread has not read. -/
def inFlight (s : Queues n) : Nat :=
  ∑ i, (s.lanes i).load

theorem inFlight_update (lanes : Fin n → Lane) (main main' : MainPc) (i : Fin n) (l : Lane) :
    inFlight ⟨main', Function.update lanes i l⟩ + (lanes i).load
      = inFlight ⟨main, lanes⟩ + l.load := by
  have hrest : ∑ j ∈ Finset.univ.erase i, (Function.update lanes i l j).load
      = ∑ j ∈ Finset.univ.erase i, (lanes j).load :=
    Finset.sum_congr rfl fun j hj => by rw [Function.update_of_ne (Finset.ne_of_mem_erase hj)]
  have hnew := Finset.add_sum_erase Finset.univ
    (fun j => (Function.update lanes i l j).load) (Finset.mem_univ i)
  have hold := Finset.add_sum_erase Finset.univ (fun j => (lanes j).load) (Finset.mem_univ i)
  simp only [Function.update_self, hrest] at hnew
  simp only [inFlight]
  omega

/-- A worker moves requests along or loses them. -/
theorem load_step (capacity : Nat) (l l' : Lane) (a : WorkerAct) (h : l.step capacity a = some l') :
    l'.load ≤ l.load := by
  cases a with
  | take =>
      obtain ⟨⟨hpc, hpos⟩, h⟩ := Option.ite_none_right_eq_some.mp h
      obtain rfl := Option.some.inj h
      simp only [Lane.load, hpc, WorkerPc.holds]
      omega
  | finish =>
      obtain ⟨hpc, h⟩ := Option.ite_none_right_eq_some.mp h
      obtain rfl := Option.some.inj h
      simp only [Lane.load, hpc, WorkerPc.holds, Nat.le_refl]
  | reply =>
      obtain ⟨⟨hpc, -⟩, h⟩ := Option.ite_none_right_eq_some.mp h
      obtain rfl := Option.some.inj h
      simp only [Lane.load, hpc, WorkerPc.holds]
      omega
  | stop =>
      obtain rfl := Option.some.inj h
      simp only [Lane.load, WorkerPc.holds]
      omega

theorem inFlight_worker (cap : Capacities n) (s s' : Queues n) (i : Fin n) (a : WorkerAct)
    (h : s.step cap (.worker i a) = some s') : s'.main = s.main ∧ s'.inFlight ≤ s.inFlight := by
  obtain ⟨l, hl, rfl⟩ := Option.map_eq_some_iff.mp h
  have hload := load_step (cap.reply i) (s.lanes i) l a hl
  have hsum := inFlight_update s.lanes s.main s.main i l
  refine ⟨rfl, ?_⟩
  change inFlight ⟨s.main, Function.update s.lanes i l⟩ ≤ inFlight ⟨s.main, s.lanes⟩
  omega

/-! ## Within the window -/

/-- A request is only accepted while the pipes and the workers have room for it. -/
def WithinWindow (cap : Capacities n) (s : Queues n) (a : Act n) : Prop :=
  a = .request → s.inFlight < cap.total

/-- There is room for the request being sent. -/
def Roomy (cap : Capacities n) (s : Queues n) : Prop :=
  ∀ left, s.main = .sending left → s.inFlight < cap.total

theorem roomy_step (cap : Capacities n) (s s' : Queues n) (hs : s.Roomy cap) (a : Act n)
    (hwindow : s.WithinWindow cap a) (h : s.step cap a = some s') : s'.Roomy cap := by
  intro left hmain
  cases a with
  | worker i a =>
      obtain ⟨hsame, hload⟩ := inFlight_worker cap s s' i a h
      exact Nat.lt_of_le_of_lt hload (hs left (hsame ▸ hmain))
  | request =>
      simp only [step] at h
      split at h
      · obtain rfl := Option.some.inj h
        exact hwindow rfl
      · exact absurd h (by simp)
  | pass connections reply =>
      simp only [step] at h
      split at h
      · obtain rfl := Option.some.inj h
        exact absurd hmain (by simp)
      · split at h
        · obtain rfl := Option.some.inj h
          exact absurd hmain (by simp)
        · exact absurd h (by simp)
      · exact absurd h (by simp)
  | send i =>
      simp only [step] at h
      split at h
      · split at h
        · obtain rfl := Option.some.inj h
          exact absurd hmain (by simp)
        · exact absurd h (by simp)
      · exact absurd h (by simp)
  | skip | sendFails | endPass =>
      simp only [step] at h
      split at h
      · obtain rfl := Option.some.inj h
        exact absurd hmain (by simp)
      · exact absurd h (by simp)

/-- In a deadlock everything is full. -/
theorem total_le_of_deadlocked (cap : Capacities n) (s : Queues n) (hs : s.Deadlocked cap) :
    cap.total ≤ s.inFlight := by
  refine Finset.sum_le_sum fun i _ => ?_
  have hrequests := hs.1.2 i
  obtain ⟨hworker, hreplies⟩ := hs.2 i
  simp only [Lane.load, hworker, WorkerPc.holds]
  omega

/-- **No deadlock is reached in a run that accepts no request over what the pipes and the workers
    can hold.** -/
theorem never_deadlocked (cap : Capacities n) (s₀ : Queues n) (p : Steps (Queues n) (Act n))
    (hrun : (queueSystem cap).Run s₀ p)
    (hwindow : Along (fun s a _ => s.WithinWindow cap a) s₀ p) :
    ¬ s₀.Deadlocked cap ∧ Along (fun _ _ s' => ¬ s'.Deadlocked cap) s₀ p := by
  have hroomy : ∀ s : Queues n, s.Roomy cap → ¬ s.Deadlocked cap := by
    intro s hs hdead
    obtain ⟨left, hmain⟩ := hdead.1.1
    exact absurd (total_le_of_deadlocked cap s hdead) (Nat.not_le.mpr (hs left hmain))
  have hinit : s₀.Roomy cap := by
    intro left hmain
    rw [hrun.1.1] at hmain
    exact absurd hmain (by simp)
  have hinv := along_invariant _ (Roomy cap)
    (fun s a s' hs h => roomy_step cap s s' hs a h.2 h.1) s₀ p hinit
    ((along_and _ _ s₀ p).mpr ⟨hrun.2, hwindow⟩)
  exact ⟨hroomy s₀ hinit, along_imp _ _ (fun _ _ s' h => hroomy s' h.2) s₀ p hinv.1⟩

/-- One worker, and pipes that hold one message each. -/
def smallest : Capacities 1 :=
  ⟨fun _ => 1, fun _ => 1, fun _ => Nat.one_pos, fun _ => Nat.one_pos⟩

/-- Nothing happened yet. -/
def quiet : Queues 1 :=
  ⟨.polling, fun _ => ⟨0, .receiving, 0⟩⟩

theorem quiet_init : (queueSystem smallest).init quiet :=
  ⟨rfl, fun _ => rfl⟩

/-- Two connections ask in one pass, and the answer to the first is read in the next. -/
def twoAsk : List (Act 1) :=
  [.pass 2 none, .request, .send 0, .worker 0 .take, .worker 0 .finish, .worker 0 .reply,
    .request, .send 0, .endPass, .pass 2 (some 0)]

theorem twoAsk_runs :
    ∃ p, replay (Queues.step smallest) quiet twoAsk = some p
      ∧ Along (fun _ _ s' => ¬ s'.Deadlocked smallest) quiet p := by
  refine ⟨_, rfl, (never_deadlocked smallest quiet _
    (run_replay _ (Queues.step smallest) quiet twoAsk _ quiet_init rfl) ?_).2⟩
  refine ⟨nofun, fun _ => by decide, nofun, nofun, nofun, nofun, fun _ => by decide, nofun, nofun,
    nofun, trivial⟩

/-- Four connections ask in one pass: the first answer fills the reply pipe, the second keeps the
    worker, the third request fills the request pipe. -/
def fourAsk : List (Act 1) :=
  [.pass 4 none, .request, .send 0, .worker 0 .take, .worker 0 .finish, .worker 0 .reply,
    .request, .send 0, .worker 0 .take, .worker 0 .finish, .request, .send 0, .request]

theorem fourAsk_deadlocks :
    ∃ p, (queueSystem smallest).Run quiet p
      ∧ replay (Queues.step smallest) quiet fourAsk = some p
      ∧ (last quiet p).Deadlocked smallest := by
  refine ⟨_, run_replay _ (Queues.step smallest) quiet fourAsk _ quiet_init rfl, rfl,
    ⟨⟨0, rfl⟩, ?_⟩, ?_⟩
  · decide
  · exact fun i => ⟨by revert i; decide, by revert i; decide⟩

/-! ## Over the window -/

/-- No pipe holds more than it can. -/
def Bounded (cap : Capacities n) (s : Queues n) : Prop :=
  ∀ i, (s.lanes i).requests ≤ cap.request i ∧ (s.lanes i).replies ≤ cap.reply i

theorem bounded_update (cap : Capacities n) (s : Queues n) (hs : s.Bounded cap) (main : MainPc)
    (i : Fin n) (l : Lane) (hrequests : l.requests ≤ cap.request i)
    (hreplies : l.replies ≤ cap.reply i) :
    Bounded cap ⟨main, Function.update s.lanes i l⟩ := by
  intro j
  by_cases hj : j = i
  · subst hj
    simp only [Function.update_self]
    exact ⟨hrequests, hreplies⟩
  · simp only [Function.update_of_ne hj]
    exact hs j

theorem bounded_step (cap : Capacities n) (s s' : Queues n) (hs : s.Bounded cap) (a : Act n)
    (h : s.step cap a = some s') : s'.Bounded cap := by
  cases a with
  | worker i a =>
      obtain ⟨l, hl, rfl⟩ := Option.map_eq_some_iff.mp h
      obtain ⟨hrequests, hreplies⟩ := hs i
      cases a with
      | take | reply =>
          obtain ⟨hpc, hl⟩ := Option.ite_none_right_eq_some.mp hl
          obtain rfl := Option.some.inj hl
          exact bounded_update cap s hs _ i _ (by simp only; omega) (by simp only; omega)
      | finish =>
          obtain ⟨-, hl⟩ := Option.ite_none_right_eq_some.mp hl
          obtain rfl := Option.some.inj hl
          exact bounded_update cap s hs _ i _ hrequests hreplies
      | stop =>
          obtain rfl := Option.some.inj hl
          exact bounded_update cap s hs _ i _ hrequests hreplies
  | pass connections reply =>
      simp only [step] at h
      split at h
      · obtain rfl := Option.some.inj h
        exact hs
      · next i _ =>
          obtain ⟨-, h⟩ := Option.ite_none_right_eq_some.mp h
          obtain rfl := Option.some.inj h
          exact bounded_update cap s hs _ i _ (hs i).1 (Nat.le_trans (Nat.sub_le _ _) (hs i).2)
      · exact absurd h (by simp)
  | send i =>
      simp only [step] at h
      split at h
      · obtain ⟨hroom, h⟩ := Option.ite_none_right_eq_some.mp h
        obtain rfl := Option.some.inj h
        exact bounded_update cap s hs _ i _ hroom (hs i).2
      · exact absurd h (by simp)
  | skip | request | sendFails | endPass =>
      simp only [step] at h
      split at h
      · obtain rfl := Option.some.inj h
        exact hs
      · exact absurd h (by simp)

theorem bounded_reachable (cap : Capacities n) (s : Queues n)
    (hs : (queueSystem cap).Reachable s) : s.Bounded cap := by
  refine System.reachable_invariant (queueSystem cap) (Bounded cap) ?_
    (fun s a s' hs h => bounded_step cap s s' hs a h) s hs
  intro s₀ hinit i
  rw [hinit.2 i]
  exact ⟨Nat.zero_le _, Nat.zero_le _⟩

/-- Every pipe is full and every worker has a request in its hands. -/
def Full (cap : Capacities n) (s : Queues n) : Prop :=
  ∀ i, (s.lanes i).requests = cap.request i ∧ (s.lanes i).replies = cap.reply i
    ∧ (s.lanes i).worker.holds = 1

theorem full_of_total_le (cap : Capacities n) (s : Queues n) (hs : s.Bounded cap)
    (hover : cap.total ≤ s.inFlight) : s.Full cap := by
  have hholds : ∀ w : WorkerPc, w.holds ≤ 1 := fun w => by cases w <;> decide
  have hle : ∀ i ∈ Finset.univ, (s.lanes i).load ≤ cap.request i + 1 + cap.reply i := fun i _ =>
    Nat.add_le_add (Nat.add_le_add (hs i).1 (hholds _)) (hs i).2
  -- a sum that reaches its bound reaches it in every term
  have heq := (Finset.sum_eq_sum_iff_of_le hle).mp
    (Nat.le_antisymm (Finset.sum_le_sum hle) hover)
  intro i
  have hload := heq i (Finset.mem_univ i)
  have hbound := hs i
  have hone := hholds (s.lanes i).worker
  unfold Lane.load at hload
  exact ⟨by omega, by omega, by omega⟩

/-- Once everything is full and the main thread is sending, the workers only have to finish. -/
theorem deadlock_of_full (cap : Capacities n) (s : Queues n) (left : Nat)
    (hmain : s.main = .sending left) (hfull : s.Full cap) :
    ∃ p, Along (queueSystem cap).step s p ∧ (last s p).Deadlocked cap := by
  -- induction on how many workers are still in OnTask
  induction hw : (Finset.univ.filter fun i => (s.lanes i).worker = .working).card
    generalizing s with
  | zero =>
      refine ⟨[], trivial, ⟨⟨left, hmain⟩, fun i => (hfull i).1.ge⟩, fun i => ?_⟩
      refine ⟨?_, (hfull i).2.1.ge⟩
      have hnone : (s.lanes i).worker ≠ .working := by
        have hempty := Finset.card_eq_zero.mp hw
        intro hwork
        exact absurd (hempty ▸ Finset.mem_filter.mpr ⟨Finset.mem_univ i, hwork⟩)
          (Finset.notMem_empty i)
      have hholds := (hfull i).2.2
      cases hpc : (s.lanes i).worker with
      | sending => exact hpc
      | working => exact absurd hpc hnone
      | receiving | stopped =>
          rw [hpc] at hholds
          exact absurd hholds (by decide)
  | succ k ih =>
      obtain ⟨i, hi⟩ := Finset.card_pos.mp (Nat.lt_of_lt_of_eq (Nat.succ_pos k) hw.symm)
      have hwork := (Finset.mem_filter.mp hi).2
      let l : Lane := { s.lanes i with worker := .sending }
      let s' : Queues n := ⟨s.main, Function.update s.lanes i l⟩
      have hstep : s.step cap (.worker i .finish) = some s' := by
        simp only [step, Lane.step, if_pos hwork, Option.map_some, s', l]
      have hfull' : s'.Full cap := by
        intro j
        by_cases hj : j = i
        · subst hj
          simp only [s', Function.update_self, l]
          exact ⟨(hfull j).1, (hfull j).2.1, rfl⟩
        · simp only [s', Function.update_of_ne hj]
          exact hfull j
      have hcard : (Finset.univ.filter fun j => (s'.lanes j).worker = .working).card = k := by
        have herase : (Finset.univ.filter fun j => (s'.lanes j).worker = .working)
            = (Finset.univ.filter fun j => (s.lanes j).worker = .working).erase i := by
          ext j
          by_cases hj : j = i
          · subst hj
            simp [s', l]
          · simp [s', hj]
        rw [herase, Finset.card_erase_of_mem hi, hw, Nat.add_sub_cancel]
      obtain ⟨p, hp, hdead⟩ := ih s' hmain hfull' hcard
      exact ⟨(.worker i .finish, s') :: p, ⟨hstep, hp⟩, hdead⟩

/-- **A request accepted over what the pipes and the workers can hold may end in a deadlock**: the
    bound of `never_deadlocked` cannot be raised. -/
theorem deadlock_over_window (cap : Capacities n) (s : Queues n)
    (hs : (queueSystem cap).Reachable s) (left : Nat) (hmain : s.main = .serving (left + 1))
    (hover : ¬ s.WithinWindow cap .request) :
    ∃ p, Along (queueSystem cap).step s p ∧ (last s p).Deadlocked cap := by
  have hbounded := bounded_reachable cap s hs
  have htotal : cap.total ≤ s.inFlight := by
    by_contra hlt
    exact hover fun _ => Nat.lt_of_not_le hlt
  have hstep : s.step cap .request = some { s with main := .sending left } := by
    simp only [step, hmain]
  obtain ⟨p, hp, hdead⟩ := deadlock_of_full cap { s with main := .sending left } left rfl
    (full_of_total_le cap s hbounded htotal)
  exact ⟨(.request, _) :: p, ⟨hstep, hp⟩, hdead⟩

end Queues

end Hitsuji
