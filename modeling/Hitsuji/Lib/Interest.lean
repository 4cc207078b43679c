import Mathlib.Data.Finset.Basic

set_option autoImplicit false

/-! # Interest sets keyed by reusable ids

A multiplexer keeps a list of members, each reachable under an id that may change, and sets of the
ids it is interested in. The sets hold ids, not members, and are edited by hand, so two things can
go wrong: an id stays behind that no member uses (`Clean` fails), or a member that is marked, say
because it has output waiting, is not covered by its id (`Covers` fails).

Adding members and ids is harmless. What has to be watched is a member that leaves or changes its
id: the rules say exactly what of its old id may remain. -/

namespace Interest

universe u v

variable {κ : Type u} {ι : Type v}

/-- Every id of interest is a fixed one or that of a member. -/
def Clean (fixed : ι → Prop) (members : List κ) (id : κ → ι) (ids : Finset ι) : Prop :=
  ∀ s ∈ ids, fixed s ∨ ∃ c ∈ members, id c = s

/-- The ids of the marked members are of interest. -/
def Covers (members : List κ) (id : κ → ι) (marked : Finset κ) (ids : Finset ι) : Prop :=
  ∀ c ∈ members, c ∈ marked → id c ∈ ids

/-- The id of every member is of interest. -/
def CoversAll (members : List κ) (id : κ → ι) (ids : Finset ι) : Prop :=
  ∀ c ∈ members, id c ∈ ids

/-! ## No id stays behind -/

section Clean

variable (fixed : ι → Prop) (members members' : List κ) (id id' : κ → ι) (ids ids' : Finset ι)

/-- Ids that were of interest, or are used by a member. -/
theorem clean_of_used (h : Clean fixed members id ids)
    (hids : ∀ s ∈ ids', s ∈ ids ∨ fixed s ∨ ∃ c ∈ members, id c = s) :
    Clean fixed members id ids' := by
  intro s hs
  rcases hids s hs with hold | hused
  · exact h s hold
  · exact hused

/-- More members. -/
theorem clean_members (h : Clean fixed members id ids) (hmembers : ∀ c ∈ members, c ∈ members') :
    Clean fixed members' id ids := by
  intro s hs
  rcases h s hs with hfixed | ⟨c, hc, rfl⟩
  · exact .inl hfixed
  · exact .inr ⟨c, hmembers c hc, rfl⟩

/-- A member leaves with its id. -/
theorem clean_remove (c : κ) (h : Clean fixed members id ids)
    (hmembers : ∀ k ∈ members, k ≠ c → k ∈ members') (hids : ∀ s ∈ ids', s ∈ ids ∧ s ≠ id c) :
    Clean fixed members' id ids' := by
  intro s hs
  obtain ⟨hmem, hne⟩ := hids s hs
  rcases h s hmem with hfixed | ⟨k, hk, rfl⟩
  · exact .inl hfixed
  · exact .inr ⟨k, hmembers k hk (fun hkc => hne (hkc ▸ rfl)), rfl⟩

/-- A member changes its id: what remains of the old one has to be used otherwise. -/
theorem clean_renumber (c : κ) (h : Clean fixed members id ids) (hid : ∀ k, k ≠ c → id' k = id k)
    (hold : id c ∈ ids' → fixed (id c) ∨ ∃ k ∈ members, id' k = id c)
    (hids : ∀ s ∈ ids', s ∈ ids ∨ fixed s ∨ ∃ k ∈ members, id' k = s) :
    Clean fixed members id' ids' := by
  intro s hs
  rcases hids s hs with hmem | hused
  · rcases h s hmem with hfixed | ⟨k, hk, rfl⟩
    · exact .inl hfixed
    · by_cases hkc : k = c
      · subst hkc
        exact hold hs
      · exact .inr ⟨k, hk, hid k hkc⟩
  · exact hused

end Clean

/-! ## No marked member is missed -/

section Covers

variable (members members' : List κ) (id id' : κ → ι) (marked marked' : Finset κ)
  (ids ids' : Finset ι)

/-- Members that are marked only now are covered now; the others were covered before. -/
theorem covers_mark (h : Covers members id marked ids) (hids : ids ⊆ ids')
    (hmarked : ∀ c ∈ marked', c ∈ marked ∨ id c ∈ ids') : Covers members id marked' ids' := by
  intro c hc hmark
  rcases hmarked c hmark with hold | hnew
  · exact hids (h c hc hold)
  · exact hnew

/-- Fewer members. -/
theorem covers_members (h : Covers members id marked ids) (hmembers : ∀ c ∈ members', c ∈ members) :
    Covers members' id marked ids :=
  fun c hc hmark => h c (hmembers c hc) hmark

/-- An id that no marked member uses any more is dropped. -/
theorem covers_drop [DecidableEq ι] (s : ι) (h : Covers members id marked ids)
    (hmarked : ∀ c ∈ marked', c ∈ marked) (hunused : ∀ c ∈ members, c ∈ marked' → id c ≠ s) :
    Covers members id marked' (ids.erase s) := by
  intro c hc hmark
  exact Finset.mem_erase.mpr ⟨hunused c hc hmark, h c hc (hmarked c hmark)⟩

/-- A member changes its id: if it is marked, the new one has to be of interest. -/
theorem covers_renumber (c : κ) (h : Covers members id marked ids)
    (hid : ∀ k, k ≠ c → id' k = id k) (hnew : c ∈ marked → id' c ∈ ids) :
    Covers members id' marked ids := by
  intro k hk hmark
  by_cases hkc : k = c
  · subst hkc
    exact hnew hmark
  · rw [hid k hkc]
    exact h k hk hmark

/-- Interest starts afresh: nothing may be marked. -/
theorem covers_empty (hmarked : ∀ c ∈ members, c ∉ marked) : Covers members id marked ids :=
  fun c hc hmark => absurd hmark (hmarked c hc)

end Covers

/-! ## No member is missed -/

section CoversAll

variable (members members' : List κ) (id id' : κ → ι) (ids ids' : Finset ι)

/-- Fewer members, on the ids they had, and ids that none of them uses are dropped. -/
theorem coversAll_sub (h : CoversAll members id ids)
    (hmembers : ∀ c ∈ members', c ∈ members ∧ id' c = id c)
    (hids : ∀ c ∈ members', id c ∈ ids → id c ∈ ids') : CoversAll members' id' ids' := by
  intro c hc
  obtain ⟨hold, hsame⟩ := hmembers c hc
  exact hsame ▸ hids c hc (h c hold)

/-- A member more, whose id becomes one of interest. -/
theorem coversAll_add [DecidableEq ι] (c : κ) (h : CoversAll members id ids)
    (hmembers : ∀ k ∈ members', k ≠ c → k ∈ members) (hid : ∀ k, k ≠ c → id' k = id k) :
    CoversAll members' id' (insert (id' c) ids) := by
  intro k hk
  by_cases hkc : k = c
  · exact hkc ▸ Finset.mem_insert_self _ _
  · exact Finset.mem_insert_of_mem (hid k hkc ▸ h k (hmembers k hk hkc))

/-- A member changes its id, and one id is dropped: exactly those on that one are missed then. -/
theorem coversAll_move_iff [DecidableEq ι] (c : κ) (s : ι) (h : CoversAll members id ids)
    (hid : ∀ k, k ≠ c → id' k = id k) :
    CoversAll members id' (insert (id' c) (ids.erase s))
      ↔ ∀ k ∈ members, k ≠ c → id k = s → s = id' c := by
  constructor
  · intro hcovers k hk hkc hks
    rcases Finset.mem_insert.mp (hcovers k hk) with hnew | hkept
    · rw [← hks, ← hid k hkc, hnew]
    · exact absurd ((hid k hkc).trans hks) (Finset.ne_of_mem_erase hkept)
  · intro hothers k hk
    by_cases hkc : k = c
    · exact hkc ▸ Finset.mem_insert_self _ _
    · rw [hid k hkc]
      by_cases hks : id k = s
      · exact Finset.mem_insert.mpr (.inl (hks.trans (hothers k hk hkc hks)))
      · exact Finset.mem_insert_of_mem (Finset.mem_erase.mpr ⟨hks, h k hk⟩)

end CoversAll

end Interest
