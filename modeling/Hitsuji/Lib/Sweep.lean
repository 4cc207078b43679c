import Mathlib.Data.List.InsertIdx

set_option autoImplicit false

/-! # Sweeping a list that shrinks

A loop walks over a list with an iterator and may erase the element it is at: then the iterator
stays where it is, otherwise it moves on. `Sweep` is the state of such a loop, with the elements
whose turn is over in a record of their own. However many elements are erased on the way, every
element has its turn, once, and what each turn establishes of an element that is kept holds of all
that are left in the end. -/

namespace Sweep

universe u

variable {α : Type u}

/-! ## Positions -/

theorem drop_of_getElem? (l : List α) (i : Nat) (a : α) (h : l[i]? = some a) :
    l.drop i = a :: l.drop (i + 1) := by
  obtain ⟨hlt, rfl⟩ := List.getElem?_eq_some_iff.mp h
  exact List.drop_eq_getElem_cons hlt

theorem drop_eraseIdx (l : List α) (i : Nat) : (l.eraseIdx i).drop i = l.drop (i + 1) := by
  induction l generalizing i with
  | nil => simp
  | cons a rest ih =>
      cases i with
      | zero => rfl
      | succ i => exact ih i

/-- An element that was passed is not the one at the iterator. -/
theorem ne_of_mem_take (l : List α) (i : Nat) (a x : α) (hunique : l.Nodup) (h : l[i]? = some a)
    (hx : x ∈ l.take i) : x ≠ a := by
  rintro rfl
  have hsplit := List.take_append_drop i l
  rw [drop_of_getElem? l i x h] at hsplit
  rw [← hsplit] at hunique
  exact (List.nodup_append.mp hunique).2.2 x hx x List.mem_cons_self rfl

/-! ## Turns -/

/-- The list after a turn. -/
def left (erased : Bool) (l : List α) (i : Nat) : List α :=
  if erased then l.eraseIdx i else l

/-- The iterator after a turn. -/
def next (erased : Bool) (i : Nat) : Nat :=
  if erased then i else i + 1

theorem left_length (erased : Bool) (l : List α) (i : Nat) (h : i < l.length) :
    (left erased l i).length = if erased then l.length - 1 else l.length := by
  cases erased with
  | true => exact List.length_eraseIdx_of_lt h
  | false => rfl

theorem left_shorter (erased : Bool) (l : List α) (i : Nat) (h : i < l.length) :
    (left erased l i).length < l.length ↔ erased = true := by
  rw [left_length erased l i h]
  cases erased with
  | true => simp only [if_true, iff_true]; omega
  | false => simp

/-- Erased or not, what is ahead loses the element whose turn it was. -/
theorem drop_left (erased : Bool) (l : List α) (i : Nat) :
    (left erased l i).drop (next erased i) = l.drop (i + 1) := by
  cases erased with
  | true => exact drop_eraseIdx l i
  | false => rfl

/-- **Nobody is left out and nobody comes twice**: those whose turn is over and those ahead are the
    list the loop began with. -/
theorem covers_turn (due seen l : List α) (i : Nat) (a : α) (erased : Bool) (h : l[i]? = some a)
    (hcovers : seen ++ l.drop i = due) :
    (seen ++ [a]) ++ (left erased l i).drop (next erased i) = due := by
  rw [drop_left, List.append_assoc, List.singleton_append, ← drop_of_getElem? l i a h, hcovers]

/-- What is behind gains that element, unless it is erased. -/
theorem take_left (erased : Bool) (l : List α) (i : Nat) (a : α) (h : l[i]? = some a) :
    (left erased l i).take (next erased i) = l.take i ++ if erased then [] else [a] := by
  cases erased with
  | true =>
      rw [left, next, if_pos rfl, if_pos rfl, if_pos rfl,
        List.take_eraseIdx_eq_take_of_le l i i (Nat.le_refl i), List.append_nil]
  | false =>
      change l.take (i + 1) = l.take i ++ [a]
      rw [List.take_add_one, h, Option.toList_some]

/-- What holds of all that were passed holds after a turn that establishes it or erases. -/
theorem passed_turn (P : α → Prop) (l : List α) (i : Nat) (a : α) (erased : Bool)
    (h : l[i]? = some a) (hpassed : ∀ x ∈ l.take i, P x) (hturn : erased = true ∨ P a) (x : α)
    (hx : x ∈ (left erased l i).take (next erased i)) : P x := by
  rw [take_left erased l i a h] at hx
  rcases List.mem_append.mp hx with hold | hnew
  · exact hpassed x hold
  · rcases hturn with rfl | ha
    · exact absurd hnew List.not_mem_nil
    · split at hnew
      · exact absurd hnew List.not_mem_nil
      · rw [List.mem_singleton.mp hnew]
        exact ha

/-- At the end of the list, what was passed is all there is. -/
theorem passed_all (P : α → Prop) (l : List α) (i : Nat) (hend : i = l.length)
    (hpassed : ∀ x ∈ l.take i, P x) : ∀ x ∈ l, P x := by
  rwa [hend, List.take_length] at hpassed

end Sweep
