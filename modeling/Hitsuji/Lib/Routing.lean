import Mathlib.Data.List.Basic

set_option autoImplicit false

/-! # Routing late results by a reusable key

A dispatcher hands out work under a key and later receives results that carry nothing but that key.
While a key is open it stands for one tag, say the owner or the generation of the work; once closed
it may be opened again under another tag, with results of the former still pending.

`Consistent` says that every pending result of an open key carries the tag the key stands for, so
that routing by key alone is sound. It survives everything that closes keys or drops results, and
opening a key is harmless exactly when all its pending results already carry the new tag. -/

namespace Routing

universe u v

/-- Open keys with their tags, and results still to come. -/
structure State (κ : Type u) (τ : Type v) where
  opened : κ → Option τ
  pending : List (κ × τ)

variable {κ : Type u} {τ : Type v}

/-- Pending results of an open key carry its tag. -/
def Consistent (s : State κ τ) : Prop :=
  ∀ k t, (k, t) ∈ s.pending → ∀ t', s.opened k = some t' → t' = t

/-- A step opens at most one key, with one more result to come; otherwise keys only close and
    results only disappear. -/
def Step (s : State κ τ) (label : Option (κ × τ)) (s' : State κ τ) : Prop :=
  match label with
  | none => (∀ k t, s'.opened k = some t → s.opened k = some t)
      ∧ ∀ x, x ∈ s'.pending → x ∈ s.pending
  | some (k, t) => s'.opened k = some t
      ∧ (∀ k' t', k' ≠ k → s'.opened k' = some t' → s.opened k' = some t')
      ∧ ∀ x, x ∈ s'.pending → x ∈ s.pending ∨ x = (k, t)

/-- The key opened has no pending result of another tag. -/
def Clear (s : State κ τ) : Option (κ × τ) → Prop
  | none => True
  | some (k, t) => ∀ t', (k, t') ∈ s.pending → t' = t

theorem consistent_step (s : State κ τ) (label : Option (κ × τ)) (s' : State κ τ)
    (hs : Consistent s) (hclear : Clear s label) (h : Step s label s') : Consistent s' := by
  cases label with
  | none =>
      obtain ⟨hopen, hpending⟩ := h
      intro k t hmem t' ht'
      exact hs k t (hpending (k, t) hmem) t' (hopen k t' ht')
  | some x =>
      obtain ⟨k₀, t₀⟩ := x
      obtain ⟨hkey, hopen, hpending⟩ := h
      intro k t hmem t' ht'
      by_cases hk : k = k₀
      · subst hk
        obtain rfl : t₀ = t' := Option.some.inj (hkey.symm.trans ht')
        rcases hpending (k, t) hmem with hold | hnew
        · exact (hclear t hold).symm
        · exact ((Prod.mk.inj hnew).2).symm
      · rcases hpending (k, t) hmem with hold | hnew
        · exact hs k t hold t' (hopen k t' hk ht')
        · exact absurd (Prod.mk.inj hnew).1 hk

/-- The reason for wanting consistency: a result found under an open key belongs to it. -/
theorem routed (s : State κ τ) (hs : Consistent s) (k : κ) (t t' : τ) (hmem : (k, t) ∈ s.pending)
    (hopen : s.opened k = some t') : t = t' :=
  (hs k t hmem t' hopen).symm

end Routing
