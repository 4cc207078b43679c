import Hitsuji.Pipeline.Queues

set_option autoImplicit false

/-! # Joining the workers

`hitsuji_t::AbortWorkers` sends one abort for each worker and waits until their threads have ended.
Meanwhile no request is sent and no reply is read. A worker comes to the abort in its pipe once the
replies to the requests before it are in its other pipe, and which worker an abort goes to is up to
ZeroMQ. -/

namespace Hitsuji

open Transition

/-! ## Steps -/

/-- Where `AbortWorkers` is. -/
inductive JoinPc (n : Nat) where
  /-- in the loop over `AbortOneWorker`, so many left -/
  | aborting (left : Nat)
  /-- in the loop over `join`, with the threads left -/
  | joining (left : List (Fin n))
  | returned (ok : Bool)
  deriving DecidableEq

/-- The threads and the pipes between them. The aborts in a request pipe are behind the requests. -/
structure Joining (n : Nat) where
  main : JoinPc n
  lanes : Fin n → Lane
  aborts : Fin n → Nat

/-- A worker whose `OnTask` returns false leaves its loop. -/
def Lane.quit (l : Lane) : Lane :=
  { l with worker := .stopped }

namespace Joining

variable {n : Nat}

/-- What can happen. -/
inductive Act (n : Nat) where
  /-- `AbortOneWorker` sends an abort, and it goes to a worker -/
  | abort (i : Fin n)
  /-- `AbortOneWorker` fails -/
  | abortFails
  /-- all aborts are sent -/
  | endAborts
  /-- the next thread has ended -/
  | join
  /-- all threads are joined -/
  | endJoins
  | worker (i : Fin n) (a : WorkerAct)
  /-- a worker takes an abort and leaves its loop -/
  | quit (i : Fin n)
  deriving DecidableEq

/-- One step. -/
def step (cap : Capacities n) (s : Joining n) : Act n → Option (Joining n)
  | .abort i =>
      match s.main with
      | .aborting (left + 1) =>
          if (s.lanes i).requests + s.aborts i < cap.request i then
            some { s with
              main := .aborting left
              aborts := Function.update s.aborts i (s.aborts i + 1) }
          else none
      | _ => none
  | .abortFails =>
      match s.main with
      | .aborting (_ + 1) => some { s with main := .returned false }
      | _ => none
  | .endAborts =>
      match s.main with
      | .aborting 0 => some { s with main := .joining (List.finRange n).reverse }
      | _ => none
  | .join =>
      match s.main with
      | .joining (i :: rest) =>
          if (s.lanes i).worker = .stopped then some { s with main := .joining rest } else none
      | _ => none
  | .endJoins =>
      match s.main with
      | .joining [] => some { s with main := .returned true }
      | _ => none
  | .worker i a =>
      ((s.lanes i).step (cap.reply i) a).map fun l =>
        { s with lanes := Function.update s.lanes i l }
  | .quit i =>
      let l := s.lanes i
      if l.worker = .receiving ∧ l.requests = 0 ∧ 0 < s.aborts i then
        some { s with
          lanes := Function.update s.lanes i l.quit
          aborts := Function.update s.aborts i (s.aborts i - 1) }
      else none

/-- `Reset` comes upon the threads and pipes as they are. -/
def start (q : Queues n) : Joining n :=
  ⟨.aborting n, q.lanes, fun _ => 0⟩

end Joining

/-- `AbortWorkers` from any state of the pipeline. -/
def joiningSystem {n : Nat} (cap : Capacities n) : System (Joining n) (Joining.Act n) :=
  .ofFn (fun s => ∃ q, (queueSystem cap).Reachable q ∧ s = .start q) (Joining.step cap)

namespace Joining

variable {n : Nat}

/-- A failure of ZeroMQ or of a task. -/
def Act.fails : Act n → Bool
  | .abortFails | .worker _ .stop => true
  | _ => false

/-- The worker that an abort goes to. -/
def Act.target : Act n → Option (Fin n)
  | .abort i => some i
  | _ => none

/-- The workers that the aborts of a run went to, in order. -/
def targets (p : Steps (Joining n) (Act n)) : List (Fin n) :=
  p.filterMap fun t => t.1.target

/-- A step that does not fail. -/
inductive Moves (cap : Capacities n) (s : Joining n) : Act n → Joining n → Prop where
  | abort (i : Fin n) (left : Nat) (hmain : s.main = .aborting (left + 1))
      (hroom : (s.lanes i).requests + s.aborts i < cap.request i) :
      Moves cap s (.abort i) { s with
        main := .aborting left
        aborts := Function.update s.aborts i (s.aborts i + 1) }
  | endAborts (hmain : s.main = .aborting 0) :
      Moves cap s .endAborts { s with main := .joining (List.finRange n).reverse }
  | join (i : Fin n) (rest : List (Fin n)) (hmain : s.main = .joining (i :: rest))
      (hstopped : (s.lanes i).worker = .stopped) :
      Moves cap s .join { s with main := .joining rest }
  | endJoins (hmain : s.main = .joining []) :
      Moves cap s .endJoins { s with main := .returned true }
  | worker (i : Fin n) (a : WorkerAct) (l : Lane) (ha : a ≠ .stop)
      (hl : (s.lanes i).step (cap.reply i) a = some l) :
      Moves cap s (.worker i a) { s with lanes := Function.update s.lanes i l }
  | quit (i : Fin n) (hworker : (s.lanes i).worker = .receiving)
      (hrequests : (s.lanes i).requests = 0) (haborts : 0 < s.aborts i) :
      Moves cap s (.quit i) { s with
        lanes := Function.update s.lanes i (s.lanes i).quit
        aborts := Function.update s.aborts i (s.aborts i - 1) }

theorem moves_step (cap : Capacities n) (s s' : Joining n) (a : Act n) (ha : a.fails = false)
    (h : s.step cap a = some s') : s.Moves cap a s' := by
  cases a with
  | abortFails => exact absurd ha (by simp [Act.fails])
  | abort i =>
      simp only [step] at h
      split at h
      · next left hmain =>
          obtain ⟨hroom, h⟩ := Option.ite_none_right_eq_some.mp h
          obtain rfl := Option.some.inj h
          exact .abort i left hmain hroom
      · exact absurd h (by simp)
  | endAborts =>
      simp only [step] at h
      split at h
      · next hmain =>
          obtain rfl := Option.some.inj h
          exact .endAborts hmain
      · exact absurd h (by simp)
  | join =>
      simp only [step] at h
      split at h
      · next i rest hmain =>
          obtain ⟨hstopped, h⟩ := Option.ite_none_right_eq_some.mp h
          obtain rfl := Option.some.inj h
          exact .join i rest hmain hstopped
      · exact absurd h (by simp)
  | endJoins =>
      simp only [step] at h
      split at h
      · next hmain =>
          obtain rfl := Option.some.inj h
          exact .endJoins hmain
      · exact absurd h (by simp)
  | worker i a =>
      obtain ⟨l, hl, rfl⟩ := Option.map_eq_some_iff.mp h
      refine .worker i a l (fun hstop => ?_) hl
      subst hstop
      exact absurd ha (by simp [Act.fails])
  | quit i =>
      obtain ⟨⟨hworker, hrequests, haborts⟩, h⟩ := Option.ite_none_right_eq_some.mp h
      obtain rfl := Option.some.inj h
      exact .quit i hworker hrequests haborts

/-! ## Every step is one fewer -/

end Joining

/-- The steps a worker has left in its iteration. -/
def WorkerPc.rank : WorkerPc → Nat
  | .working => 3
  | .sending => 2
  | .receiving => 1
  | .stopped => 0

/-- The steps a worker has left before its abort. -/
def Lane.rank (l : Lane) : Nat :=
  3 * l.requests + l.worker.rank

/-- The steps `AbortWorkers` has left, and those of the workers with their aborts. -/
def JoinPc.rank {n : Nat} : JoinPc n → Nat
  | .aborting left => 2 * left + n + 2
  | .joining left => left.length + 1
  | .returned _ => 0

/-- The aborts that are not sent yet. -/
def JoinPc.left {n : Nat} : JoinPc n → Nat
  | .aborting left => left
  | .joining _ | .returned _ => 0

/-- A worker that had so many requests at first. -/
structure Lane.Sound (capacity load : Nat) (l : Lane) : Prop where
  load : l.load = load
  replies : l.replies ≤ capacity
  drained : l.worker = .stopped → l.requests = 0

/-- What an iteration of a worker does to its pipes. -/
theorem lane_moves (capacity : Nat) (l l' : Lane) (a : WorkerAct) (ha : a ≠ .stop)
    (h : l.step capacity a = some l') :
    l'.load = l.load ∧ (l.replies ≤ capacity → l'.replies ≤ capacity)
      ∧ l.worker ≠ .stopped ∧ l'.worker ≠ .stopped ∧ l'.rank < l.rank := by
  cases a with
  | take =>
      obtain ⟨⟨hpc, hpos⟩, h⟩ := Option.ite_none_right_eq_some.mp h
      obtain rfl := Option.some.inj h
      simp only [Lane.load, Lane.rank, hpc, WorkerPc.holds, WorkerPc.rank]
      exact ⟨by omega, id, by simp, by simp, by omega⟩
  | finish =>
      obtain ⟨hpc, h⟩ := Option.ite_none_right_eq_some.mp h
      obtain rfl := Option.some.inj h
      simp only [Lane.load, Lane.rank, hpc, WorkerPc.holds, WorkerPc.rank]
      exact ⟨trivial, id, by simp, by simp, by omega⟩
  | reply =>
      obtain ⟨⟨hpc, hroom⟩, h⟩ := Option.ite_none_right_eq_some.mp h
      obtain rfl := Option.some.inj h
      simp only [Lane.load, Lane.rank, hpc, WorkerPc.holds, WorkerPc.rank]
      exact ⟨by omega, fun _ => hroom, by simp, by simp, by omega⟩
  | stop => exact absurd rfl ha

theorem lane_quits (l : Lane) (h : l.worker = .receiving) :
    l.quit.load = l.load ∧ l.quit.rank + 1 = l.rank := by
  simp only [Lane.quit, Lane.load, Lane.rank, h, WorkerPc.holds, WorkerPc.rank, and_self]

namespace Joining

variable {n : Nat}

/-- The steps left. -/
def rank (s : Joining n) : Nat :=
  s.main.rank + ∑ i, ((s.lanes i).rank + s.aborts i)

/-- A sum that changes at one place. -/
theorem sum_changed (f f' : Fin n → Nat) (i : Fin n) (h : ∀ j, j ≠ i → f' j = f j) :
    ∑ j, f' j + f i = ∑ j, f j + f' i := by
  have hrest : ∑ j ∈ Finset.univ.erase i, f' j = ∑ j ∈ Finset.univ.erase i, f j :=
    Finset.sum_congr rfl fun j hj => h j (Finset.ne_of_mem_erase hj)
  have hnew := Finset.add_sum_erase Finset.univ f' (Finset.mem_univ i)
  have hold := Finset.add_sum_erase Finset.univ f (Finset.mem_univ i)
  omega

/-- **Every step leaves fewer to take.** -/
theorem rank_lt (cap : Capacities n) (s s' : Joining n) (a : Act n) (h : s.Moves cap a s') :
    s'.rank < s.rank := by
  cases h with
  | abort i left hmain _ =>
      have hsum := sum_changed (fun j => (s.lanes j).rank + s.aborts j)
        (fun j => (s.lanes j).rank + Function.update s.aborts i (s.aborts i + 1) j) i
        fun j hj => by rw [Function.update_of_ne hj]
      simp only [Function.update_self] at hsum
      simp only [rank, hmain, JoinPc.rank]
      omega
  | endAborts hmain =>
      simp only [rank, hmain, JoinPc.rank, List.length_reverse, List.length_finRange]
      omega
  | join i rest hmain _ =>
      simp only [rank, hmain, JoinPc.rank, List.length_cons]
      omega
  | endJoins hmain =>
      simp only [rank, hmain, JoinPc.rank, List.length_nil]
      omega
  | worker i a l ha hl =>
      obtain ⟨-, -, -, -, hlt⟩ := lane_moves (cap.reply i) (s.lanes i) l a ha hl
      have hsum := sum_changed (fun j => (s.lanes j).rank + s.aborts j)
        (fun j => (Function.update s.lanes i l j).rank + s.aborts j) i
        fun j hj => by rw [Function.update_of_ne hj]
      simp only [Function.update_self] at hsum
      simp only [rank]
      omega
  | quit i hworker hrequests haborts =>
      have hsum := sum_changed (fun j => (s.lanes j).rank + s.aborts j)
        (fun j => (Function.update s.lanes i (s.lanes i).quit j).rank
          + Function.update s.aborts i (s.aborts i - 1) j) i
        fun j hj => by rw [Function.update_of_ne hj, Function.update_of_ne hj]
      obtain ⟨-, hlt⟩ := lane_quits (s.lanes i) hworker
      simp only [Function.update_self] at hsum
      simp only [rank]
      omega

/-! ## What stays as it is -/

/-- The aborts that a worker was given, the one it took included. -/
def given (s : Joining n) (i : Fin n) : Nat :=
  s.aborts i + if (s.lanes i).worker = .stopped then 1 else 0

/-- What holds while the threads are joined. -/
structure Sound (cap : Capacities n) (loads : Fin n → Nat) (s : Joining n) : Prop where
  lanes : ∀ i, (s.lanes i).Sound (cap.reply i) (loads i)
  joined : ∀ left, s.main = .joining left → ∀ i, i ∉ left → (s.lanes i).worker = .stopped
  returned : ∀ ok, s.main = .returned ok → ok = true ∧ ∀ i, (s.lanes i).worker = .stopped

/-- What a step does to the aborts. -/
theorem given_moves (cap : Capacities n) (s s' : Joining n) (a : Act n) (h : s.Moves cap a s') :
    (∀ i, s'.given i = s.given i + (a.target.toList).count i)
      ∧ a.target.toList.length + s'.main.left = s.main.left := by
  cases h with
  | abort i left hmain _ =>
      refine ⟨fun j => ?_, ?_⟩
      · by_cases hj : j = i
        · subst hj
          simp only [given, Function.update_self, Act.target, Option.toList_some,
            List.count_cons_self, List.count_nil]
          omega
        · simp only [given, Function.update_of_ne hj, Act.target, Option.toList_some]
          rw [List.count_cons_of_ne (Ne.symm hj), List.count_nil]
          rfl
      · simp only [hmain, JoinPc.left, Act.target, Option.toList_some, List.length_singleton]
        omega
  | endAborts hmain | join i rest hmain _ | endJoins hmain =>
      exact ⟨fun _ => rfl, by simp [hmain, JoinPc.left, Act.target]⟩
  | worker i a l ha hl =>
      obtain ⟨-, -, hbefore, hafter, -⟩ := lane_moves (cap.reply i) (s.lanes i) l a ha hl
      refine ⟨fun j => ?_, by simp [Act.target]⟩
      by_cases hj : j = i
      · subst hj
        simp [given, Act.target, hbefore, hafter]
      · simp [given, Act.target, Function.update_of_ne hj]
  | quit i hworker hrequests haborts =>
      refine ⟨fun j => ?_, by simp [Act.target]⟩
      by_cases hj : j = i
      · subst hj
        simp only [given, Act.target, Function.update_self, Lane.quit, hworker, Option.toList_none,
          List.count_nil, reduceCtorEq, if_false, if_true]
        omega
      · simp [given, Act.target, Function.update_of_ne hj]

/-- In a run, the workers are given the aborts that went to them. -/
theorem given_run (cap : Capacities n) (s : Joining n) (p : Steps (Joining n) (Act n))
    (hp : Along (fun s a s' => s.Moves cap a s') s p) :
    (∀ i, (last s p).given i = s.given i + (targets p).count i)
      ∧ (targets p).length + (last s p).main.left = s.main.left := by
  induction p generalizing s with
  | nil => exact ⟨fun _ => rfl, Nat.zero_add _⟩
  | cons t rest ih =>
      obtain ⟨hgiven, hleft⟩ := given_moves cap s t.2 t.1 hp.1
      obtain ⟨hgivens, hlefts⟩ := ih t.2 hp.2
      have htargets : targets (t :: rest) = t.1.target.toList ++ targets rest := by
        rw [targets, List.filterMap_cons]
        cases t.1.target with
        | none => rfl
        | some i => rfl
      refine ⟨fun i => ?_, ?_⟩
      · rw [last, hgivens i, hgiven i, htargets, List.count_append, Nat.add_assoc]
      · rw [last, htargets, List.length_append]
        omega

/-- One worker does something. -/
theorem sound_lane (cap : Capacities n) (loads : Fin n → Nat) (s : Joining n) (i : Fin n)
    (l : Lane) (aborts : Fin n → Nat) (hs : s.Sound cap loads) (hl : l.Sound (cap.reply i) (loads i))
    (hstays : (s.lanes i).worker = .stopped → l.worker = .stopped) :
    Sound cap loads ⟨s.main, Function.update s.lanes i l, aborts⟩ := by
  have hstopped : ∀ j, (s.lanes j).worker = .stopped →
      (Function.update s.lanes i l j).worker = .stopped := by
    intro j hj
    by_cases hji : j = i
    · subst hji
      rw [Function.update_self]
      exact hstays hj
    · rw [Function.update_of_ne hji]
      exact hj
  refine ⟨fun j => ?_, fun left hmain j hj => hstopped j (hs.joined left hmain j hj), ?_⟩
  · by_cases hji : j = i
    · subst hji
      simp only [Function.update_self]
      exact hl
    · simp only [Function.update_of_ne hji]
      exact hs.lanes j
  · intro ok hmain
    obtain ⟨hok, hall⟩ := hs.returned ok hmain
    exact ⟨hok, fun j => hstopped j (hall j)⟩

/-- **What a step preserves.** -/
theorem sound_moves (cap : Capacities n) (loads : Fin n → Nat) (s s' : Joining n) (a : Act n)
    (hs : s.Sound cap loads) (h : s.Moves cap a s') : s'.Sound cap loads := by
  cases h with
  | abort i left hmain _ =>
      exact ⟨hs.lanes, fun _ h => absurd h (by simp), fun _ h => absurd h (by simp)⟩
  | endAborts hmain =>
      refine ⟨hs.lanes, fun left h i hi => ?_, fun _ h => absurd h (by simp)⟩
      obtain rfl := JoinPc.joining.inj h
      exact absurd (List.mem_reverse.mpr (List.mem_finRange i)) hi
  | join i rest hmain hstopped =>
      refine ⟨hs.lanes, fun left h j hj => ?_, fun _ h => absurd h (by simp)⟩
      obtain rfl := JoinPc.joining.inj h
      by_cases hji : j = i
      · exact hji ▸ hstopped
      · exact hs.joined _ hmain j (by simp [hji, hj])
  | endJoins hmain =>
      refine ⟨hs.lanes, fun _ h => absurd h (by simp), fun ok h => ?_⟩
      exact ⟨(JoinPc.returned.inj h).symm, fun i => hs.joined [] hmain i List.not_mem_nil⟩
  | worker i a l ha hl =>
      obtain ⟨hload, hreplies, hbefore, hafter, -⟩ :=
        lane_moves (cap.reply i) (s.lanes i) l a ha hl
      refine sound_lane cap loads s i l s.aborts hs ⟨?_, ?_, ?_⟩ fun h => absurd h hbefore
      · exact hload.trans (hs.lanes i).load
      · exact hreplies (hs.lanes i).replies
      · exact fun h => absurd h hafter
  | quit i hworker hrequests haborts =>
      obtain ⟨hload, -⟩ := lane_quits (s.lanes i) hworker
      refine sound_lane cap loads s i _ _ hs ⟨?_, (hs.lanes i).replies, fun _ => hrequests⟩ ?_
      · exact hload.trans (hs.lanes i).load
      · exact fun _ => rfl

/-! ## When nothing is left to do -/

/-- Nobody can take a step any more, failures aside. -/
def Over (cap : Capacities n) (s : Joining n) : Prop :=
  ∀ a : Act n, a.fails = false → s.step cap a = none

/-- A worker has left its loop, waits for a message, or waits for room for its reply. -/
def LaneRests (cap : Capacities n) (s : Joining n) (i : Fin n) : Prop :=
  (s.lanes i).worker = .stopped
    ∨ ((s.lanes i).worker = .receiving ∧ (s.lanes i).requests = 0 ∧ s.aborts i = 0)
    ∨ ((s.lanes i).worker = .sending ∧ cap.reply i ≤ (s.lanes i).replies)

instance (cap : Capacities n) (s : Joining n) (i : Fin n) : Decidable (s.LaneRests cap i) :=
  inferInstanceAs (Decidable (_ ∨ _ ∨ _))

/-- `AbortWorkers` has returned, waits for a thread, or waits for room for an abort. -/
def MainRests (cap : Capacities n) (s : Joining n) : Prop :=
  (∃ ok, s.main = .returned ok)
    ∨ (∃ i rest, s.main = .joining (i :: rest) ∧ (s.lanes i).worker ≠ .stopped)
    ∨ ∃ left, s.main = .aborting (left + 1)
      ∧ ∀ i, cap.request i ≤ (s.lanes i).requests + s.aborts i

theorem laneRests_of_over (cap : Capacities n) (s : Joining n) (hover : s.Over cap) (i : Fin n) :
    s.LaneRests cap i := by
  unfold LaneRests
  cases hworker : (s.lanes i).worker with
  | stopped => exact .inl rfl
  | receiving =>
      have htake := hover (.worker i .take) rfl
      have hquit := hover (.quit i) rfl
      have hrequests : (s.lanes i).requests = 0 := by
        by_contra hne
        simp [step, Lane.step, hworker, Nat.pos_of_ne_zero hne] at htake
      refine .inr (.inl ⟨rfl, hrequests, ?_⟩)
      by_contra hne
      simp [step, hworker, hrequests, Nat.pos_of_ne_zero hne] at hquit
  | working =>
      have hfinish := hover (.worker i .finish) rfl
      simp [step, Lane.step, hworker] at hfinish
  | sending =>
      have hreply := hover (.worker i .reply) rfl
      refine .inr (.inr ⟨rfl, ?_⟩)
      by_contra hroom
      simp [step, Lane.step, hworker, Nat.lt_of_not_le hroom] at hreply

theorem mainRests_of_over (cap : Capacities n) (s : Joining n) (hover : s.Over cap) :
    s.MainRests cap := by
  unfold MainRests
  cases hmain : s.main with
  | returned ok => exact .inl ⟨ok, rfl⟩
  | joining left =>
      cases left with
      | nil =>
          have hend := hover .endJoins rfl
          simp [step, hmain] at hend
      | cons i rest =>
          have hjoin := hover .join rfl
          refine .inr (.inl ⟨i, rest, rfl, fun hstopped => ?_⟩)
          simp [step, hmain, hstopped] at hjoin
  | aborting left =>
      cases left with
      | zero =>
          have hend := hover .endAborts rfl
          simp [step, hmain] at hend
      | succ left =>
          refine .inr (.inr ⟨left, rfl, fun i => ?_⟩)
          have habort := hover (.abort i) rfl
          by_contra hroom
          simp [step, hmain, Nat.lt_of_not_le hroom] at habort

/-- Everyone at rest is all there is to it. -/
theorem over_of_rests (cap : Capacities n) (s : Joining n) (hmain : s.MainRests cap)
    (hlanes : ∀ i, s.LaneRests cap i) : s.Over cap := by
  intro a ha
  refine Option.eq_none_iff_forall_ne_some.mpr fun s' h => ?_
  cases moves_step cap s s' a ha h with
  | abort i left haborting hroom =>
      rcases hmain with ⟨ok, hm⟩ | ⟨j, rest, hm, -⟩ | ⟨left, -, hfull⟩
      · exact absurd (hm.symm.trans haborting) (by simp)
      · exact absurd (hm.symm.trans haborting) (by simp)
      · exact absurd (hfull i) (Nat.not_le.mpr hroom)
  | endAborts hend | endJoins hend =>
      rcases hmain with ⟨ok, hm⟩ | ⟨j, rest, hm, -⟩ | ⟨left, hm, -⟩ <;>
      exact absurd (hm.symm.trans hend) (by simp)
  | join i rest hjoining hstopped =>
      rcases hmain with ⟨ok, hm⟩ | ⟨j, rest', hm, hruns⟩ | ⟨left, hm, -⟩
      · exact absurd (hm.symm.trans hjoining) (by simp)
      · obtain ⟨rfl, -⟩ := List.cons.inj (JoinPc.joining.inj (hm.symm.trans hjoining))
        exact hruns hstopped
      · exact absurd (hm.symm.trans hjoining) (by simp)
  | worker i a l hstop hl =>
      rcases hlanes i with hworker | ⟨hworker, hrequests, -⟩ | ⟨hworker, hfull⟩
      · exact (lane_moves _ _ _ _ hstop hl).2.2.1 hworker
      · cases a with
        | take | finish | reply => simp [Lane.step, hworker, hrequests] at hl
        | stop => exact hstop rfl
      · cases a with
        | take | finish | reply => simp [Lane.step, hworker, Nat.not_lt.mpr hfull] at hl
        | stop => exact hstop rfl
  | quit i hreceiving hrequests haborts =>
      rcases hlanes i with hworker | ⟨-, -, hnone⟩ | ⟨hworker, -⟩
      · exact absurd (hworker.symm.trans hreceiving) (by simp)
      · omega
      · exact absurd (hworker.symm.trans hreceiving) (by simp)

/-! ## Whole runs -/

/-- Of all workers that have left their loops each one was given one abort, and had room. -/
theorem returned_spread (cap : Capacities n) (loads : Fin n → Nat) (s : Joining n)
    (sent : List (Fin n)) (hs : s.Sound cap loads) (hgiven : ∀ i, s.given i = sent.count i)
    (hlength : sent.length + s.main.left = n) (hmain : s.main = .returned true) :
    sent.Nodup ∧ ∀ i, loads i ≤ cap.reply i := by
  obtain ⟨-, hstopped⟩ := hs.returned true hmain
  rw [hmain, JoinPc.left, Nat.add_zero] at hlength
  refine ⟨?_, fun i => ?_⟩
  · have hmem : List.finRange n ⊆ sent := by
      intro i _
      have hi := hgiven i
      rw [given, if_pos (hstopped i)] at hi
      exact List.count_pos_iff.mp (hi ▸ Nat.succ_pos _)
    have hperm := ((List.nodup_finRange n).subperm hmem).perm_of_length_le
      (by rw [List.length_finRange, hlength])
    exact hperm.nodup_iff.mp (List.nodup_finRange n)
  · have hload := (hs.lanes i).load
    rw [Lane.load, hstopped i, (hs.lanes i).drained (hstopped i), WorkerPc.holds] at hload
    have hreplies := (hs.lanes i).replies
    omega

/-- Where every worker has room, the aborts of different workers get everyone home. -/
theorem spread_returned (cap : Capacities n) (loads : Fin n → Nat) (s : Joining n)
    (sent : List (Fin n)) (hs : s.Sound cap loads) (hgiven : ∀ i, s.given i = sent.count i)
    (hlength : sent.length + s.main.left = n) (hover : s.Over cap) (hnodup : sent.Nodup)
    (hfits : ∀ i, loads i ≤ cap.reply i) : s.main = .returned true := by
  have hrests : ∀ i, (s.lanes i).worker = .stopped
      ∨ ((s.lanes i).worker = .receiving ∧ (s.lanes i).requests = 0 ∧ s.aborts i = 0) := by
    intro i
    rcases laneRests_of_over cap s hover i with hstopped | hidle | ⟨hsending, hfull⟩
    · exact .inl hstopped
    · exact .inr hidle
    · have hload := (hs.lanes i).load
      rw [Lane.load, hsending, WorkerPc.holds] at hload
      have hroom := hfits i
      omega
  have hnone : ∀ i, (s.lanes i).worker = .receiving → s.aborts i = 0 → i ∉ sent := by
    intro i hreceiving haborts
    refine List.count_eq_zero.mp ?_
    rw [← hgiven i, given, hreceiving, haborts, if_neg (by simp)]
  rcases mainRests_of_over cap s hover with
    ⟨ok, hmain⟩ | ⟨i, rest, hmain, hruns⟩ | ⟨left, hmain, hfull⟩
  · rw [hmain, (hs.returned ok hmain).1]
  · -- all aborts are sent, one of them to this worker
    rw [hmain, JoinPc.left, Nat.add_zero] at hlength
    have hperm := (hnodup.subperm fun i _ => List.mem_finRange i).perm_of_length_le
      (by rw [List.length_finRange, hlength])
    rcases hrests i with hstopped | ⟨hreceiving, -, haborts⟩
    · exact absurd hstopped hruns
    · exact absurd (hperm.mem_iff.mpr (List.mem_finRange i)) (hnone i hreceiving haborts)
  · -- a worker that was given none has room for it
    rw [hmain, JoinPc.left] at hlength
    have hmissing : ∃ i, i ∉ sent := by
      by_contra hall
      have hmem : List.finRange n ⊆ sent := fun i _ => by_contra fun hi => hall ⟨i, hi⟩
      have hle := ((List.nodup_finRange n).subperm hmem).length_le
      rw [List.length_finRange] at hle
      omega
    obtain ⟨i, hi⟩ := hmissing
    have hcount := hgiven i
    rw [List.count_eq_zero.mpr hi, given] at hcount
    rcases hrests i with hstopped | ⟨-, hrequests, haborts⟩
    · rw [if_pos hstopped] at hcount
      exact absurd hcount (Nat.succ_ne_zero _)
    · have hpos := cap.request_pos i
      have hle := hfull i
      omega

/-- **`AbortWorkers` returns exactly when its aborts go to different workers and no worker has more
    to answer than its reply pipe holds**, failures aside: there is a bound on the steps, and when
    nobody can take another one it has returned or waits forever. -/
theorem joined_iff (cap : Capacities n) (s₀ : Joining n) (p : Steps (Joining n) (Act n))
    (hrun : (joiningSystem cap).Run s₀ p)
    (hgood : Along (fun _ a _ => a.fails = false) s₀ p)
    (hloops : ∀ i, (s₀.lanes i).worker ≠ .stopped) :
    p.length ≤ s₀.rank
      ∧ ((last s₀ p).Over cap → ((last s₀ p).main = .returned true
        ↔ (targets p).Nodup ∧ ∀ i, (s₀.lanes i).load ≤ cap.reply i)) := by
  obtain ⟨⟨q, hq, rfl⟩, hsteps⟩ := hrun
  have hmoves : Along (fun s a s' => s.Moves cap a s') (start q) p :=
    along_imp _ _ (fun s a s' h => moves_step cap s s' a h.2 h.1) _ p
      ((along_and _ _ _ p).mpr ⟨hsteps, hgood⟩)
  have hbounded := Queues.bounded_reachable cap q hq
  have hsound : (start q).Sound cap fun i => (q.lanes i).load :=
    ⟨fun i => ⟨rfl, (hbounded i).2, fun h => absurd h (hloops i)⟩,
      fun _ h => absurd h (by simp [start]), fun _ h => absurd h (by simp [start])⟩
  have hlast := (along_invariant _ (fun s => s.Sound cap fun i => (q.lanes i).load)
    (fun s a s' hs h => sound_moves cap _ s s' a hs h) (start q) p hsound hmoves).2
  obtain ⟨hgivens, hlength⟩ := given_run cap (start q) p hmoves
  have hgiven : ∀ i, (last (start q) p).given i = (targets p).count i := by
    intro i
    rw [hgivens i, given, if_neg (hloops i)]
    exact Nat.zero_add _
  have hrank := length_le_rank _ rank (fun s a s' h => rank_lt cap s s' a h) (start q) p hmoves
  refine ⟨Nat.le_of_add_right_le hrank, fun hover => ⟨?_, ?_⟩⟩
  · exact returned_spread cap _ _ (targets p) hlast hgiven hlength
  · rintro ⟨hnodup, hfits⟩
    exact spread_returned cap _ _ (targets p) hlast hgiven hlength hover hnodup hfits

/-- Two workers, with room for one message in each pipe. -/
def pair : Capacities 2 :=
  ⟨fun _ => 1, fun _ => 1, fun _ => Nat.one_pos, fun _ => Nat.one_pos⟩

/-- Both workers wait for requests. -/
def idle : Queues 2 :=
  ⟨.polling, fun _ => ⟨0, .receiving, 0⟩⟩

/-- Each worker is sent an abort. -/
def abortBoth : List (Act 2) :=
  [.abort 0, .quit 0, .abort 1, .endAborts, .quit 1, .join, .join, .endJoins]

theorem idle_start : (joiningSystem pair).init (start idle) :=
  ⟨idle, ⟨idle, [], ⟨⟨rfl, fun _ => rfl⟩, trivial⟩, rfl⟩, rfl⟩

theorem abortBoth_joined :
    ∃ p, replay (step pair) (start idle) abortBoth = some p
      ∧ (last (start idle) p).main = .returned true
      ∧ p.length ≤ (start idle).rank ∧ (targets p).Nodup := by
  obtain ⟨hlength, hjoined⟩ := joined_iff pair (start idle) _
    (run_replay _ (step pair) (start idle) abortBoth _ idle_start rfl) (by decide) (by decide)
  refine ⟨_, rfl, rfl, hlength, ((hjoined ?_).mp rfl).1⟩
  exact over_of_rests _ _ (.inl ⟨_, rfl⟩) fun i => .inl (by revert i; decide)

/-- The reply to one request is not read yet, and another request is waiting. -/
def unread : List (Queues.Act 2) :=
  [.pass 1 none, .request, .send 0, .worker 0 .take, .worker 0 .finish, .worker 0 .reply, .endPass,
    .pass 1 none, .request, .send 0, .endPass]

/-- The first worker has no room for its second reply. -/
def abortUnread : List (Act 2) :=
  [.worker 0 .take, .worker 0 .finish, .abort 0, .abort 1, .endAborts, .quit 1, .join]

/-- `Reset` waits for the first worker forever, and the worker for somebody to read its reply. -/
theorem abortUnread_waits :
    ∃ q p, replay (Queues.step pair) idle unread = some q
      ∧ replay (step pair) (start (last idle q)) abortUnread = some p
      ∧ (joiningSystem pair).init (start (last idle q))
      ∧ (last (start (last idle q)) p).Over pair
      ∧ (last (start (last idle q)) p).main = .joining [0] := by
  refine ⟨_, _, rfl, rfl, ?_, ?_, rfl⟩
  · have hrun := run_replay Queues.Initial (Queues.step pair) idle unread _ ⟨rfl, fun _ => rfl⟩ rfl
    exact ⟨_, ⟨idle, _, hrun, rfl⟩, rfl⟩
  · refine over_of_rests _ _ (.inr (.inl ⟨0, [], rfl, by decide⟩)) fun i => ?_
    revert i
    decide

end Joining

end Hitsuji
