import Mathlib.Data.List.Basic

set_option autoImplicit false

/-! # A message slot

One slot holds at most one message at a time. Initialising it while it holds a message loses the
message; a failed call changes nothing. Users of the slot make their calls in blocks, each of which
starts from an empty slot as far as it knows, so the discipline of a run of blocks comes down to
which blocks leave a message behind and which blocks initialise. -/

namespace Slot

/-- A call on the slot, and whether it succeeds. -/
inductive Op where
  | init (ok : Bool)
  | recv (ok : Bool)
  | send (ok : Bool)
  | close (ok : Bool)
  deriving DecidableEq

/-- Whether the slot holds a message after a call: a received message takes the place of the empty
    one, a sent message is no longer the caller's. -/
def Op.after (held : Bool) : Op → Bool
  | .init ok => held || ok
  | .recv _ => held
  | .send ok | .close ok => held && !ok

/-- The call initialises a slot that holds a message. -/
def Op.loses (held : Bool) : Op → Bool
  | .init ok => held && ok
  | _ => false

/-- Whether the slot holds a message after some calls. -/
def held (start : Bool) (ops : List Op) : Bool :=
  ops.foldl Op.after start

/-- No call initialises a slot that holds a message. -/
def Disciplined : Bool → List Op → Prop
  | _, [] => True
  | start, op :: rest => op.loses start = false ∧ Disciplined (op.after start) rest

instance decidableDisciplined : (start : Bool) → (ops : List Op) → Decidable (Disciplined start ops)
  | _, [] => .isTrue trivial
  | start, op :: rest =>
      have := decidableDisciplined (op.after start) rest
      inferInstanceAs (Decidable (op.loses start = false ∧ Disciplined (op.after start) rest))

theorem disciplined_append (start : Bool) (ops ops' : List Op) :
    Disciplined start (ops ++ ops')
      ↔ Disciplined start ops ∧ Disciplined (held start ops) ops' := by
  induction ops generalizing start with
  | nil => simp [Disciplined, held]
  | cons op rest ih =>
      simp only [List.cons_append, Disciplined, ih, and_assoc]
      rfl

/-! ## Blocks of calls -/

/-- A block never loses its own messages, and either initialises the slot or leaves it alone. -/
structure Block (ops : List Op) : Prop where
  own : Disciplined false ops
  idle : Disciplined true ops → held true ops = true

instance (ops : List Op) : Decidable (Block ops) :=
  decidable_of_iff (Disciplined false ops ∧ (Disciplined true ops → held true ops = true))
    ⟨fun h => ⟨h.1, h.2⟩, fun h => ⟨h.own, h.idle⟩⟩

/-- The block leaves a message in an empty slot. -/
def Keeps (ops : List Op) : Prop :=
  held false ops = true

/-- The block initialises the slot, whatever is in it. -/
def Initialises (ops : List Op) : Prop :=
  ¬ Disciplined true ops

instance (ops : List Op) : Decidable (Keeps ops) :=
  inferInstanceAs (Decidable (_ = _))

instance (ops : List Op) : Decidable (Initialises ops) :=
  inferInstanceAs (Decidable (¬ _))

/-- From a slot that holds a message no block may initialise, from an empty one none after a block
    that leaves a message. -/
theorem disciplined_blocks_from (start : Bool) (blocks : List (List Op))
    (hblocks : ∀ b ∈ blocks, Block b) :
    Disciplined start blocks.flatten
      ↔ (start = true → ∀ b ∈ blocks, ¬ Initialises b)
        ∧ blocks.Pairwise fun b b' => Keeps b → ¬ Initialises b' := by
  induction blocks generalizing start with
  | nil => simp [Disciplined]
  | cons b rest ih =>
      have hhead := hblocks b List.mem_cons_self
      have hrest := fun start => ih start fun b' hb' => hblocks b' (List.mem_cons_of_mem b hb')
      rw [List.flatten_cons, disciplined_append, hrest, List.pairwise_cons]
      cases start with
      | false =>
          constructor
          · rintro ⟨-, hkept, hpairs⟩
            exact ⟨nofun, fun b' hb' hkeeps => hkept hkeeps b' hb', hpairs⟩
          · rintro ⟨-, hkept, hpairs⟩
            exact ⟨hhead.own, fun hkeeps b' hb' => hkept b' hb' hkeeps, hpairs⟩
      | true =>
          constructor
          · rintro ⟨hown, hkept, hpairs⟩
            -- the block does not initialise, so what was held still is
            have hidle := hkept (hhead.idle hown)
            refine ⟨fun _ b' hb' => ?_, fun b' hb' _ => hidle b' hb', hpairs⟩
            rcases List.mem_cons.mp hb' with rfl | hb'
            · exact not_not.mpr hown
            · exact hidle b' hb'
          · rintro ⟨hnone, -, hpairs⟩
            exact ⟨not_not.mp (hnone rfl b List.mem_cons_self),
              fun _ b' hb' => hnone rfl b' (List.mem_cons_of_mem b hb'), hpairs⟩

/-- **Blocks from an empty slot** are disciplined exactly if no block initialises after one that
    left its message behind. -/
theorem disciplined_blocks (blocks : List (List Op)) (hblocks : ∀ b ∈ blocks, Block b) :
    Disciplined false blocks.flatten
      ↔ blocks.Pairwise fun b b' => Keeps b → ¬ Initialises b' := by
  rw [disciplined_blocks_from false blocks hblocks]
  simp

end Slot
