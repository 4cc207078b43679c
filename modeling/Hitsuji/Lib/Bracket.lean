import Mathlib.Data.List.Basic

set_option autoImplicit false

/-! # Bracketed texts

A text opens groups and closes them, each with the token that closes its kind, and has entries in
between. It is read from the front, with a stack of the groups that are open. Reading inverts
spelling in both directions (`read_eq_some_iff`): a forest is read back from its text, and a text
that can be read spells one forest. -/

namespace Bracket

universe u v w

variable {α : Type u} {β : Type v} {γ : Type w}

/-- What stands in a text. -/
inductive Token (α : Type u) (β : Type v) (γ : Type w) where
  | opens (a : α)
  | entry (b : β)
  | closes (k : γ)

/-- Entries and groups one after the other. -/
inductive Forest (α : Type u) (β : Type v) where
  | nil
  | entry (b : β) (next : Forest α β)
  | group (a : α) (inner next : Forest α β)

namespace Forest

def append : Forest α β → Forest α β → Forest α β
  | .nil, g => g
  | .entry b next, g => .entry b (next.append g)
  | .group a inner next, g => .group a inner (next.append g)

/-- The text of a forest. -/
def spell (closer : α → γ) : Forest α β → List (Token α β γ)
  | .nil => []
  | .entry b next => .entry b :: next.spell closer
  | .group a inner next =>
      .opens a :: inner.spell closer ++ .closes (closer a) :: next.spell closer

@[simp] theorem nil_append (g : Forest α β) : nil.append g = g := rfl

@[simp] theorem append_nil (f : Forest α β) : f.append .nil = f := by
  induction f with
  | nil => rfl
  | entry b next ih => rw [append, ih]
  | group a inner next _ ih => rw [append, ih]

theorem append_assoc (f g h : Forest α β) : (f.append g).append h = f.append (g.append h) := by
  induction f with
  | nil => rfl
  | entry b next ih => simp only [append, ih]
  | group a inner next _ ih => simp only [append, ih]

theorem spell_append (closer : α → γ) (f g : Forest α β) :
    (f.append g).spell closer = f.spell closer ++ g.spell closer := by
  induction f with
  | nil => rfl
  | entry b next ih => simp only [append, spell, ih, List.cons_append]
  | group a inner next _ ih => simp only [append, spell, ih, List.cons_append, List.append_assoc]

end Forest

/-! ## Reading -/

/-- How far a text is read: the groups that are open, the last one first, each with what stood before
    it, and what stands after it so far. -/
structure Reading (α : Type u) (β : Type v) where
  levels : List (α × Forest α β)
  current : Forest α β

/-- The text read so far, when `text` stands for what comes after the levels. -/
def surround (closer : α → γ) (levels : List (α × Forest α β)) (text : List (Token α β γ)) :
    List (Token α β γ) :=
  levels.foldl (fun text level => level.2.spell closer ++ .opens level.1 :: text) text

theorem surround_append (closer : α → γ) (levels : List (α × Forest α β))
    (text text' : List (Token α β γ)) :
    surround closer levels (text ++ text') = surround closer levels text ++ text' := by
  induction levels generalizing text with
  | nil => rfl
  | cons level rest ih =>
      have hlevel := ih (level.2.spell closer ++ .opens level.1 :: text)
      rw [List.append_assoc, List.cons_append] at hlevel
      exact hlevel

/-- The text read so far. -/
def Reading.spelled (closer : α → γ) (r : Reading α β) : List (Token α β γ) :=
  surround closer r.levels (r.current.spell closer)

section Read

variable [DecidableEq γ] (closer : α → γ)

/-- Read one token. -/
def Reading.step (r : Reading α β) : Token α β γ → Option (Reading α β)
  | .opens a => some ⟨(a, r.current) :: r.levels, .nil⟩
  | .entry b => some ⟨r.levels, r.current.append (.entry b .nil)⟩
  | .closes k =>
      match r.levels with
      | [] => none
      | (a, before) :: levels =>
          if closer a = k then some ⟨levels, before.append (.group a r.current .nil)⟩ else none

/-- Read a text that closes all its groups. -/
def read (text : List (Token α β γ)) : Option (Forest α β) :=
  (text.foldlM (Reading.step closer) ⟨[], .nil⟩).bind fun r =>
    if r.levels.isEmpty then some r.current else none

/-- The text of a forest adds the forest. -/
theorem foldlM_spell (f : Forest α β) (r : Reading α β) :
    (f.spell closer).foldlM (Reading.step closer) r = some ⟨r.levels, r.current.append f⟩ := by
  induction f generalizing r with
  | nil =>
      rw [Forest.append_nil]
      rfl
  | entry b next ih =>
      rw [Forest.spell, List.foldlM_cons]
      refine (ih ⟨r.levels, r.current.append (.entry b .nil)⟩).trans ?_
      rw [Forest.append_assoc]
      rfl
  | group a inner next ihInner ihNext =>
      have hclose : Reading.step closer ⟨(a, r.current) :: r.levels, inner⟩ (.closes (closer a))
          = some ⟨r.levels, r.current.append (.group a inner .nil)⟩ := if_pos rfl
      rw [Forest.spell, List.cons_append, List.foldlM_cons]
      change ((inner.spell closer ++ _).foldlM (Reading.step closer)
        ⟨(a, r.current) :: r.levels, .nil⟩) = _
      rw [List.foldlM_append, ihInner]
      change ((Token.closes (closer a) :: next.spell closer).foldlM (Reading.step closer)
        ⟨(a, r.current) :: r.levels, inner⟩) = _
      rw [List.foldlM_cons, hclose]
      refine (ihNext ⟨r.levels, r.current.append (.group a inner .nil)⟩).trans ?_
      rw [Forest.append_assoc]
      rfl

/-- A token that is read is added to the text. -/
theorem spelled_step (r r' : Reading α β) (t : Token α β γ) (h : r.step closer t = some r') :
    r'.spelled closer = r.spelled closer ++ [t] := by
  cases t with
  | opens a =>
      obtain rfl := Option.some.inj h
      exact surround_append closer r.levels (r.current.spell closer) [.opens a]
  | entry b =>
      obtain rfl := Option.some.inj h
      simp only [Reading.spelled, Forest.spell_append, Forest.spell, surround_append]
  | closes k =>
      obtain ⟨levels, current⟩ := r
      cases levels with
      | nil => exact absurd h (by simp [Reading.step])
      | cons level levels =>
          obtain ⟨hk, hnext⟩ := Option.ite_none_right_eq_some.mp h
          obtain rfl := Option.some.inj hnext
          subst hk
          have hlevel := surround_append closer levels
            (level.2.spell closer ++ .opens level.1 :: current.spell closer)
            [.closes (closer level.1)]
          rw [List.append_assoc, List.cons_append] at hlevel
          rw [Reading.spelled, Forest.spell_append]
          exact hlevel

/-- Reading adds what is read to the text. -/
theorem spelled_foldlM (text : List (Token α β γ)) (r r' : Reading α β)
    (h : text.foldlM (Reading.step closer) r = some r') :
    r'.spelled closer = r.spelled closer ++ text := by
  induction text generalizing r with
  | nil =>
      obtain rfl := Option.some.inj h
      exact (List.append_nil _).symm
  | cons t rest ih =>
      rw [List.foldlM_cons] at h
      obtain ⟨next, hstep, hrest⟩ := Option.bind_eq_some_iff.mp h
      rw [ih next hrest, spelled_step closer r next t hstep, List.append_assoc]
      rfl

/-- **Reading inverts spelling.** -/
theorem read_eq_some_iff (text : List (Token α β γ)) (f : Forest α β) :
    read closer text = some f ↔ f.spell closer = text := by
  constructor
  · intro h
    obtain ⟨⟨levels, current⟩, hread, hdone⟩ := Option.bind_eq_some_iff.mp h
    obtain ⟨hlevels, hcurrent⟩ := Option.ite_none_right_eq_some.mp hdone
    obtain rfl := Option.some.inj hcurrent
    obtain rfl : levels = [] := List.isEmpty_iff.mp hlevels
    exact spelled_foldlM closer text ⟨[], .nil⟩ _ hread
  · rintro rfl
    rw [read, foldlM_spell]
    rfl

end Read

end Bracket
