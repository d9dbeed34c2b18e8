/-!
# Maps from small numbers

`IdMap α` keeps values under the numbers of nodes, symbols or types. The numbers are dense, so the map is an array of
slots.
-/

namespace TreeCompiler

structure IdMap (α : Type) where
  slots : Array (Option α) := #[]
deriving Inhabited

namespace IdMap

variable {α : Type}

def get? (m : IdMap α) (id : Nat) : Option α := (m.slots[id]?).join

def contains (m : IdMap α) (id : Nat) : Bool := (m.get? id).isSome

def insert (m : IdMap α) (id : Nat) (v : α) : IdMap α :=
  { slots := (m.slots ++ Array.replicate (id + 1 - m.slots.size) none).setIfInBounds id (some v) }

def erase (m : IdMap α) (id : Nat) : IdMap α := { slots := m.slots.setIfInBounds id none }

/-- The pairs in the order of their numbers. -/
def toList (m : IdMap α) : List (Nat × α) :=
  m.slots.toList.zipIdx.filterMap fun (v, i) => v.map fun v => (i, v)

theorem get?_insert (m : IdMap α) (id : Nat) (v : α) (k : Nat) :
    (m.insert id v).get? k = if k = id then some v else m.get? k := by
  unfold insert get?
  by_cases h : k = id
  · subst h
    have hlt : k < (m.slots ++ Array.replicate (k + 1 - m.slots.size) none).size := by simp; omega
    rw [Array.getElem?_setIfInBounds_self_of_lt hlt, if_pos rfl]
    rfl
  · rw [Array.getElem?_setIfInBounds_ne (Ne.symm h), if_neg h]
    by_cases hk : k < m.slots.size
    · rw [Array.getElem?_append_left hk]
    · rw [Array.getElem?_append_right (Nat.le_of_not_lt hk), Array.getElem?_eq_none (Nat.le_of_not_lt hk),
        Array.getElem?_replicate]
      split <;> rfl

theorem contains_insert (m : IdMap α) (id k : Nat) (v : α) :
    (m.insert id v).contains k = true ↔ k = id ∨ m.contains k = true := by
  unfold contains
  rw [get?_insert]
  by_cases h : k = id <;> simp [h]

theorem contains_erase (m : IdMap α) (id k : Nat) : (m.erase id).contains k = true ↔ k ≠ id ∧ m.contains k = true := by
  unfold contains erase get?
  by_cases h : k = id
  · subst h
    by_cases hlt : k < m.slots.size
    · simp [hlt]
    · simp [hlt]
  · simp [h, Ne.symm h]

end IdMap

end TreeCompiler
