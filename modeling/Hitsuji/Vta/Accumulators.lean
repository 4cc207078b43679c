import Mathlib.Order.Bounds.Basic

set_option autoImplicit false

/-! # Accumulators

The boost accumulators the analytics are built from, `first` and `last` being the repository's own.
They are generic in the sample. `max` and `min` start from the smallest and the largest double,
which no sample is beyond: that start is `none` here. -/

namespace Accumulators

variable {α : Type}

/-! ## First and last -/

/-- `first_impl`: the flag tells whether a sample is still awaited. -/
structure FirstImpl (α : Type) where
  first : α
  isFirst : Bool

/-- `first_impl::first_impl`; either branch of the constructor sets the flag. -/
def FirstImpl.init [Zero α] : FirstImpl α :=
  ⟨0, true⟩

/-- `first_impl::operator ()`. -/
def FirstImpl.add (a : FirstImpl α) (sample : α) : FirstImpl α :=
  if a.isFirst then ⟨sample, false⟩ else a

/-- `last_impl`. -/
structure LastImpl (α : Type) where
  last : α

/-- `last_impl::last_impl`. -/
def LastImpl.init [Zero α] : LastImpl α :=
  ⟨0⟩

/-- `last_impl::operator ()`. -/
def LastImpl.add (_ : LastImpl α) (sample : α) : LastImpl α :=
  ⟨sample⟩

/-! ## Maximum and minimum -/

/-- `max_impl`. -/
structure MaxImpl (α : Type) where
  max : Option α

def MaxImpl.init : MaxImpl α :=
  ⟨none⟩

/-- `max_impl::operator ()`: `if (left < right) left = right`. -/
def MaxImpl.add [LinearOrder α] (a : MaxImpl α) (sample : α) : MaxImpl α :=
  match a.max with
  | none => ⟨some sample⟩
  | some left => if left < sample then ⟨some sample⟩ else a

/-- `min_impl`. -/
structure MinImpl (α : Type) where
  min : Option α

def MinImpl.init : MinImpl α :=
  ⟨none⟩

/-- `min_impl::operator ()`: `if (right < left) left = right`. -/
def MinImpl.add [LinearOrder α] (a : MinImpl α) (sample : α) : MinImpl α :=
  match a.min with
  | none => ⟨some sample⟩
  | some left => if sample < left then ⟨some sample⟩ else a

/-! ## Blocks of samples

A block adds what its summary adds: an accumulator cannot tell the samples of a non-empty block from
the one sample that stands for them. -/

theorem first_add_block (a : FirstImpl α) (sample : α) (rest : List α) :
    (sample :: rest).foldl FirstImpl.add a = a.add sample := by
  have hdone : ∀ first : α, rest.foldl FirstImpl.add ⟨first, false⟩ = ⟨first, false⟩ := by
    intro first
    induction rest with
    | nil => rfl
    | cons s rest ih => exact ih
  obtain ⟨first, isFirst⟩ := a
  rw [List.foldl_cons]
  -- only the first sample of a fresh accumulator is kept
  cases isFirst with
  | true => exact hdone sample
  | false => exact hdone first

theorem last_add_block (a : LastImpl α) (sample : α) (rest : List α) :
    (sample :: rest).foldl LastImpl.add a = a.add (rest.getLastD sample) := by
  rw [List.foldl_cons]
  induction rest generalizing a sample with
  | nil => rfl
  | cons s rest ih =>
      rw [List.getLastD_cons]
      exact ih (a.add sample) s

section LinearOrder

variable [LinearOrder α]

theorem max_add_some (left sample : α) :
    MaxImpl.add ⟨some left⟩ sample = ⟨some (max left sample)⟩ := by
  rw [MaxImpl.add, max_def_lt]
  exact (apply_ite (fun m => MaxImpl.mk (some m)) _ _ _).symm

theorem max_foldl_some (left : α) (samples : List α) :
    samples.foldl MaxImpl.add ⟨some left⟩ = ⟨some (samples.foldl max left)⟩ := by
  induction samples generalizing left with
  | nil => rfl
  | cons s rest ih => rw [List.foldl_cons, max_add_some, ih, List.foldl_cons]

theorem max_add_block (a : MaxImpl α) (sample : α) (rest : List α) :
    (sample :: rest).foldl MaxImpl.add a = a.add (rest.foldl max sample) := by
  obtain ⟨_ | left⟩ := a
  · exact max_foldl_some sample rest
  · rw [List.foldl_cons, max_add_some, max_foldl_some, max_add_some,
      List.foldl_assoc]

theorem min_add_some (left sample : α) :
    MinImpl.add ⟨some left⟩ sample = ⟨some (min left sample)⟩ := by
  rw [MinImpl.add, min_comm, min_def_lt]
  exact (apply_ite (fun m => MinImpl.mk (some m)) _ _ _).symm

theorem min_foldl_some (left : α) (samples : List α) :
    samples.foldl MinImpl.add ⟨some left⟩ = ⟨some (samples.foldl min left)⟩ := by
  induction samples generalizing left with
  | nil => rfl
  | cons s rest ih => rw [List.foldl_cons, min_add_some, ih, List.foldl_cons]

theorem min_add_block (a : MinImpl α) (sample : α) (rest : List α) :
    (sample :: rest).foldl MinImpl.add a = a.add (rest.foldl min sample) := by
  obtain ⟨_ | left⟩ := a
  · exact min_foldl_some sample rest
  · rw [List.foldl_cons, min_add_some, min_foldl_some, min_add_some,
      List.foldl_assoc]

/-- The fold of `max` is the greatest of the samples. -/
theorem isGreatest_foldl_max (sample : α) (rest : List α) :
    IsGreatest {x | x ∈ sample :: rest} (rest.foldl max sample) := by
  induction rest generalizing sample with
  | nil => exact ⟨List.mem_cons_self, fun x hx => (List.mem_singleton.mp hx).le⟩
  | cons s rest ih =>
      obtain ⟨hmem, hupper⟩ := ih (max sample s)
      have hfirst : max sample s ≤ rest.foldl max (max sample s) := hupper List.mem_cons_self
      refine ⟨?_, fun x hx => ?_⟩
      · rcases List.mem_cons.mp hmem with heq | hrest
        · rw [List.foldl_cons, heq]
          rcases le_total sample s with hle | hle
          · rw [max_eq_right hle]
            exact List.mem_cons_of_mem _ List.mem_cons_self
          · rw [max_eq_left hle]
            exact List.mem_cons_self
        · exact List.mem_cons_of_mem _ (List.mem_cons_of_mem _ hrest)
      · rw [List.foldl_cons]
        rcases List.mem_cons.mp hx with rfl | hx
        · exact (le_max_left x s).trans hfirst
        rcases List.mem_cons.mp hx with rfl | hx
        · exact (le_max_right sample x).trans hfirst
        · exact hupper (List.mem_cons_of_mem _ hx)

theorem isLeast_foldl_min (sample : α) (rest : List α) :
    IsLeast {x | x ∈ sample :: rest} (rest.foldl min sample) :=
  isGreatest_foldl_max (α := αᵒᵈ) sample rest

end LinearOrder

end Accumulators
