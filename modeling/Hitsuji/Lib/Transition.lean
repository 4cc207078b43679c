import Mathlib.Data.List.Basic

set_option autoImplicit false

/-! # Labelled transition systems and their runs

A system is a set of initial states and a labelled step relation. A run is the list of its steps,
each label with the state it leads to, so that a property can speak about every step taken
(`Along`): the step relation itself, a condition on the step's input, or what the step achieved.

The two rules every model uses are `along_invariant`, which lifts what one step preserves to a whole
run, and `along_iff`, which lifts an exact condition for one step to an exact condition for
a whole run. -/

namespace Transition

universe u v

/-- A labelled transition system. -/
structure System (σ : Type u) (ε : Type v) where
  init : σ → Prop
  step : σ → ε → σ → Prop

variable {σ : Type u} {ε : Type v}

/-- The steps of a run in order: each label with the state it leads to. -/
abbrev Steps (σ : Type u) (ε : Type v) := List (ε × σ)

/-- `P` holds of every step (source, label, target) taken from `s`. -/
def Along (P : σ → ε → σ → Prop) : σ → Steps σ ε → Prop
  | _, [] => True
  | s, (e, s') :: rest => P s e s' ∧ Along P s' rest

/-- The state a run from `s` ends in. -/
def last : σ → Steps σ ε → σ
  | s, [] => s
  | _, (_, s') :: rest => last s' rest

@[simp] theorem last_nil (s : σ) : last s ([] : Steps σ ε) = s := rfl

instance decidableAlong (P : σ → ε → σ → Prop) [∀ s e s', Decidable (P s e s')] :
    (s : σ) → (p : Steps σ ε) → Decidable (Along P s p)
  | _, [] => .isTrue trivial
  | s, (e, s') :: rest =>
      have := decidableAlong P s' rest
      inferInstanceAs (Decidable (P s e s' ∧ Along P s' rest))

/-! ## Properties along a run -/

theorem along_append (P : σ → ε → σ → Prop) (s : σ) (p q : Steps σ ε) :
    Along P s (p ++ q) ↔ Along P s p ∧ Along P (last s p) q := by
  induction p generalizing s with
  | nil => simp [Along]
  | cons t rest ih =>
      simp only [List.cons_append, Along, last, ih, and_assoc]

theorem along_imp (P Q : σ → ε → σ → Prop) (h : ∀ s e s', P s e s' → Q s e s') (s : σ)
    (p : Steps σ ε) (hp : Along P s p) : Along Q s p := by
  induction p generalizing s with
  | nil => trivial
  | cons t rest ih => exact ⟨h s t.1 t.2 hp.1, ih t.2 hp.2⟩

theorem along_and (P Q : σ → ε → σ → Prop) (s : σ) (p : Steps σ ε) :
    Along (fun s e s' => P s e s' ∧ Q s e s') s p ↔ Along P s p ∧ Along Q s p := by
  induction p generalizing s with
  | nil => simp [Along]
  | cons t rest ih =>
      simp only [Along, ih]
      tauto

/-- What every step preserves holds of every state of a run, its last one included. -/
theorem along_invariant (R : σ → ε → σ → Prop) (I : σ → Prop)
    (hstep : ∀ s e s', I s → R s e s' → I s') (s : σ) (p : Steps σ ε) (hs : I s)
    (hp : Along R s p) : Along (fun s _ s' => I s ∧ I s') s p ∧ I (last s p) := by
  induction p generalizing s with
  | nil => exact ⟨trivial, hs⟩
  | cons t rest ih =>
      have hnext : I t.2 := hstep s t.1 t.2 hs hp.1
      obtain ⟨hrest, hlast⟩ := ih t.2 hnext hp.2
      exact ⟨⟨⟨hs, hnext⟩, hrest⟩, hlast⟩

/-- If one step keeps `I` exactly when its input meets `G`, then a run keeps `I` throughout exactly
    when all its inputs meet `G`. `J` is what holds of every state anyway. -/
theorem along_iff (R : σ → ε → σ → Prop) (J I : σ → Prop) (G : σ → ε → Prop)
    (hJ : ∀ s e s', J s → R s e s' → J s')
    (hstep : ∀ s e s', J s → I s → R s e s' → (I s' ↔ G s e)) (s : σ) (p : Steps σ ε)
    (hs : J s) (hi : I s) (hp : Along R s p) :
    Along (fun _ _ s' => I s') s p ↔ Along (fun s e _ => G s e) s p := by
  induction p generalizing s with
  | nil => exact Iff.rfl
  | cons t rest ih =>
      have hhead := hstep s t.1 t.2 hs hi hp.1
      have hnext : J t.2 := hJ s t.1 t.2 hs hp.1
      constructor
      · rintro ⟨hi', hrest⟩
        exact ⟨hhead.mp hi', (ih t.2 hnext hi' hp.2).mp hrest⟩
      · rintro ⟨hg, hrest⟩
        have hi' : I t.2 := hhead.mpr hg
        exact ⟨hi', (ih t.2 hnext hi' hp.2).mpr hrest⟩

/-- If a step changes `f` by a function of its label, a run folds that function over its labels. -/
theorem last_foldl {τ : Type u} (R : σ → ε → σ → Prop) (f : σ → τ) (update : τ → ε → τ)
    (hstep : ∀ s e s', R s e s' → f s' = update (f s) e) (s : σ) (p : Steps σ ε)
    (hp : Along R s p) : f (last s p) = (p.map Prod.fst).foldl update (f s) := by
  induction p generalizing s with
  | nil => rfl
  | cons t rest ih =>
      rw [last, ih t.2 hp.2, hstep s t.1 t.2 hp.1]
      rfl

/-- A step property that is equivalent, step by step, to a condition on the inputs. -/
theorem along_congr (R P Q : σ → ε → σ → Prop) (h : ∀ s e s', R s e s' → (P s e s' ↔ Q s e s'))
    (s : σ) (p : Steps σ ε) (hp : Along R s p) : Along P s p ↔ Along Q s p := by
  induction p generalizing s with
  | nil => exact Iff.rfl
  | cons t rest ih => exact and_congr (h s t.1 t.2 hp.1) (ih t.2 hp.2)

/-- A property of the labels alone. -/
theorem along_labels (P : ε → Prop) (s : σ) (p : Steps σ ε) (hp : ∀ t ∈ p, P t.1) :
    Along (fun _ e _ => P e) s p := by
  induction p generalizing s with
  | nil => trivial
  | cons t rest ih =>
      exact ⟨hp t List.mem_cons_self, ih t.2 fun t' ht' => hp t' (List.mem_cons_of_mem t ht')⟩

/-! ## Counting steps -/

/-- What is counted in the steps of a run, by source and label. -/
def tally (count : σ → ε → Nat) : σ → Steps σ ε → Nat
  | _, [] => 0
  | s, (e, s') :: rest => count s e + tally count s' rest

/-- If every step pays for what it spends, by what it earns or from the potential, then so does the
    run. -/
theorem tally_le (R : σ → ε → σ → Prop) (spent earned : σ → ε → Nat) (potential : σ → Nat)
    (hstep : ∀ s e s', R s e s' → spent s e + potential s' ≤ earned s e + potential s) (s : σ)
    (p : Steps σ ε) (hp : Along R s p) :
    tally spent s p + potential (last s p) ≤ tally earned s p + potential s := by
  induction p generalizing s with
  | nil => exact Nat.le_refl _
  | cons t rest ih =>
      have hhead := hstep s t.1 t.2 hp.1
      have hrest := ih t.2 hp.2
      simp only [tally, last]
      omega

/-- A run is no longer than a rank that all its steps lower. -/
theorem length_le_rank (R : σ → ε → σ → Prop) (rank : σ → Nat)
    (hstep : ∀ s e s', R s e s' → rank s' < rank s) (s : σ) (p : Steps σ ε) (hp : Along R s p) :
    p.length + rank (last s p) ≤ rank s := by
  induction p generalizing s with
  | nil => exact Nat.le_of_eq (Nat.zero_add _)
  | cons t rest ih =>
      have hhead := hstep s t.1 t.2 hp.1
      have hrest := ih t.2 hp.2
      rw [last, List.length_cons]
      omega

/-! ## Runs of a system -/

namespace System

variable (M : System σ ε)

/-- `p` is a run of `M` from the initial state `s`. -/
def Run (s : σ) (p : Steps σ ε) : Prop :=
  M.init s ∧ Along M.step s p

/-- The states some run of `M` ends in. -/
def Reachable (s : σ) : Prop :=
  ∃ s₀ p, M.Run s₀ p ∧ last s₀ p = s

/-- An invariant holds in every reachable state. -/
theorem reachable_invariant (I : σ → Prop) (h0 : ∀ s, M.init s → I s)
    (hstep : ∀ s e s', I s → M.step s e s' → I s') (s : σ) (hs : M.Reachable s) : I s := by
  obtain ⟨s₀, p, hrun, rfl⟩ := hs
  exact (along_invariant M.step I hstep s₀ p (h0 s₀ hrun.1) hrun.2).2

end System

/-- Seen through `f`, each step of `M` is one of `N` or none. -/
def Simulates {τ : Type u} {δ : Type v} (M : System σ ε) (N : System τ δ) (f : σ → τ) : Prop :=
  (∀ s, M.init s → N.init (f s))
    ∧ ∀ s e s', M.step s e s' → f s' = f s ∨ ∃ d, N.step (f s) d (f s')

/-- So what every step of `N` preserves holds along the runs of `M`. -/
theorem along_simulates {τ : Type u} {δ : Type v} (M : System σ ε) (N : System τ δ) (f : σ → τ)
    (I : τ → Prop) (hsim : Simulates M N f) (h0 : ∀ t, N.init t → I t)
    (hstep : ∀ t d t', I t → N.step t d t' → I t') (s : σ) (p : Steps σ ε) (hrun : M.Run s p) :
    Along (fun s e s' => I (f s) ∧ M.step s e s' ∧ I (f s')) s p := by
  have hinv := along_invariant M.step (fun s => I (f s)) (fun s e s' hs h => by
    rcases hsim.2 s e s' h with hsame | ⟨d, hd⟩
    · rw [hsame]
      exact hs
    · exact hstep (f s) d (f s') hs hd) s p (h0 _ (hsim.1 s hrun.1)) hrun.2
  refine along_imp _ _ (fun s e s' h => ?_) s p ((along_and _ _ s p).mpr ⟨hinv.1, hrun.2⟩)
  exact ⟨h.1.1, h.2, h.1.2⟩

/-! ## Executable systems

What is said about the members of a list or an option is decided by going through them, also where
the type could be enumerated. -/

section Members

variable {α : Type u} (p : α → Prop) [DecidablePred p]

instance (priority := 2000) decidableForallList (l : List α) : Decidable (∀ a ∈ l, p a) :=
  List.decidableBAll p l

instance (priority := 2000) decidableExistsList (l : List α) : Decidable (∃ a ∈ l, p a) :=
  List.decidableBEx p l

instance (priority := 2000) decidableForallOption (o : Option α) : Decidable (∀ a ∈ o, p a) :=
  Option.decidableForallMem o

end Members

/-- The system of a guarded step function: a label is enabled when the function returns a state. -/
def System.ofFn (init : σ → Prop) (step : σ → ε → Option σ) : System σ ε :=
  ⟨init, fun s e s' => step s e = some s'⟩

/-- Replay labels; `none` if one of them is not enabled. -/
def replay (step : σ → ε → Option σ) : σ → List ε → Option (Steps σ ε)
  | _, [] => some []
  | s, e :: rest =>
      match step s e with
      | none => none
      | some s' => (replay step s' rest).map ((e, s') :: ·)

/-- A replay takes its first step and replays the rest. -/
theorem replay_cons (step : σ → ε → Option σ) (s : σ) (e : ε) (rest : List ε) (p : Steps σ ε)
    (h : replay step s (e :: rest) = some p) :
    ∃ s' q, step s e = some s' ∧ replay step s' rest = some q ∧ p = (e, s') :: q := by
  unfold replay at h
  split at h
  · exact absurd h (by simp)
  · next s' hstep =>
      obtain ⟨q, hq, rfl⟩ := Option.map_eq_some_iff.mp h
      exact ⟨s', q, hstep, hq, rfl⟩

/-- What replay returns is a run. -/
theorem along_replay (step : σ → ε → Option σ) (s : σ) (es : List ε) (p : Steps σ ε)
    (h : replay step s es = some p) : Along (fun s e s' => step s e = some s') s p := by
  induction es generalizing s p with
  | nil =>
      obtain rfl : [] = p := Option.some.inj h
      trivial
  | cons e rest ih =>
      obtain ⟨s', q, hstep, hq, rfl⟩ := replay_cons step s e rest p h
      exact ⟨hstep, ih s' q hq⟩

/-- A run that was replayed has the labels it was replayed from. -/
theorem labels_replay (step : σ → ε → Option σ) (s : σ) (es : List ε) (p : Steps σ ε)
    (h : replay step s es = some p) : p.map Prod.fst = es := by
  induction es generalizing s p with
  | nil =>
      obtain rfl : [] = p := Option.some.inj h
      rfl
  | cons e rest ih =>
      obtain ⟨s', q, -, hq, rfl⟩ := replay_cons step s e rest p h
      rw [List.map_cons, ih s' q hq]

/-- What holds of the labels replayed holds along the run. -/
theorem along_replay_labels (step : σ → ε → Option σ) (P : ε → Prop) (s : σ) (es : List ε)
    (p : Steps σ ε) (h : replay step s es = some p) (hes : ∀ e ∈ es, P e) :
    Along (fun _ e _ => P e) s p := by
  refine along_labels P s p fun t ht => hes t.1 ?_
  rw [← labels_replay step s es p h]
  exact List.mem_map_of_mem ht

/-- Replayed from an initial state, the labels make a run of the system. -/
theorem run_replay (init : σ → Prop) (step : σ → ε → Option σ) (s : σ) (es : List ε)
    (p : Steps σ ε) (h0 : init s) (h : replay step s es = some p) :
    (System.ofFn init step).Run s p :=
  ⟨h0, along_replay step s es p h⟩

end Transition
