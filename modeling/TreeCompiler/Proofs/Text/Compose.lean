import Mathlib.Tactic.Common
import TreeCompiler.Text.Compose

/-!
# Names that normalize to nothing

Composition replaces characters and breaks long runs of marks, and never drops a character without putting another in its
place. So the normal form of a text is empty only when the text is.

* `Draft.Filled` : a segment that holds something;
* `normalize_eq_empty` : texts whose normal form is empty.
-/

namespace TreeCompiler.Compose

theorem composeFrom_ne_nil (before : List Nat) (base : Nat) (held rest : List Nat) :
    composeFrom before base held rest ≠ [] := by
  induction rest generalizing before base held with
  | nil => simp [composeFrom]
  | cons c rest ih =>
    unfold composeFrom
    repeat' split
    all_goals exact ih _ _ _

theorem compose_ne_nil {cs : List Nat} (h : cs ≠ []) : compose cs ≠ [] := by
  cases cs with
  | nil => exact absurd rfl h
  | cons c rest => exact composeFrom_ne_nil _ _ _ _

namespace Draft

/-- Something was put into the segment. -/
def Filled (d : Draft) : Prop := d.done ≠ [] ∨ d.held ≠ []

theorem filled_place (d : Draft) (c : Nat) : (d.place c).Filled := by
  refine .inr ?_
  unfold place
  exact List.append_ne_nil_of_right_ne_nil _ (List.cons_ne_nil _ _)

theorem filled_foldl (d : Draft) {cs : List Nat} (h : d.Filled ∨ cs ≠ []) : (cs.foldl addPart d).Filled := by
  induction cs generalizing d with
  | nil => exact h.resolve_right fun hne => hne rfl
  | cons c cs ih => exact ih _ (.inl (filled_place _ c))

theorem filled_add (d : Draft) (c : Nat) : (d.add c).Filled := by
  unfold add
  split
  · exact filled_place ..
  · exact filled_place ..
  · rename_i hnil
    exact filled_foldl d (.inr hnil)

theorem done_flush_ne_nil {d : Draft} (h : d.Filled) : d.flush.done ≠ [] := by
  unfold flush
  rcases h with h | h
  · exact List.append_ne_nil_of_left_ne_nil h _
  · exact List.append_ne_nil_of_right_ne_nil _ (compose_ne_nil (by simpa using h))

end Draft

theorem extend_ne_nil (marks : Nat) {d : Draft} (h : d.Filled) (cs : List Nat) : (extend marks d cs).1 ≠ [] := by
  induction cs generalizing marks d with
  | nil => exact Draft.done_flush_ne_nil h
  | cons c cs ih =>
    unfold extend
    dsimp only
    split
    · exact Draft.done_flush_ne_nil (Draft.filled_place ..)
    · split
      · exact Draft.done_flush_ne_nil h
      · exact ih _ (Draft.filled_add d c)

theorem segment_ne_nil {cs : List Nat} (h : cs ≠ []) : (segment cs).1 ≠ [] := by
  cases cs with
  | nil => exact absurd rfl h
  | cons c rest => exact extend_ne_nil _ (Draft.filled_add _ c) rest

/-- The settled part and the rest are empty together only for the empty text. -/
theorem settledFrom_ne_nil (marks last : Nat) (done held cs : List Nat) (h : done ≠ [] ∨ held ≠ [] ∨ cs ≠ []) :
    (settledFrom marks last done held cs).1 ≠ [] ∨ (settledFrom marks last done held cs).2 ≠ [] := by
  induction cs generalizing marks last done held with
  | nil =>
    refine .inl ?_
    unfold settledFrom
    rcases h with h | h | h <;> simp_all
  | cons c cs ih =>
    unfold settledFrom
    dsimp only
    split
    · split
      · exact ih _ _ _ _ (.inr (.inl (List.cons_ne_nil _ _)))
      · exact .inr (List.cons_ne_nil _ _)
    · split
      · exact .inr (List.append_ne_nil_of_right_ne_nil _ (List.cons_ne_nil _ _))
      · exact ih _ _ _ _ (.inr (.inl (List.cons_ne_nil _ _)))

theorem normalizeAux_ne_nil (fuel : Nat) {cs : List Nat} (h : cs ≠ []) : normalizeAux fuel cs ≠ [] := by
  cases fuel with
  | zero => exact h
  | succ fuel =>
    unfold normalizeAux
    have hfront := settledFrom_ne_nil 0 0 [] [] cs (.inr (.inr h))
    change (settledFront cs).1 ≠ [] ∨ (settledFront cs).2 ≠ [] at hfront
    split
    · rename_i front hsettled
      rw [hsettled] at hfront
      exact hfront.resolve_right fun hne => hne rfl
    · rename_i front rest hne hsettled
      have hrest : rest ≠ [] := hne
      dsimp only
      rw [List.append_assoc]
      refine List.append_ne_nil_of_right_ne_nil _ (List.append_ne_nil_of_left_ne_nil (segment_ne_nil hrest) _)

/-- Only the empty text has an empty normal form. -/
theorem normalize_eq_empty {s : String} : normalize s = "" ↔ s = "" := by
  constructor
  · intro h
    unfold normalize at h
    split at h
    · exact h
    · by_contra hs
      have hcodes : s.toList.map (·.toNat) ≠ [] := by simpa using hs
      rw [← String.ofList_nil, String.ofList_inj, List.map_eq_nil_iff] at h
      exact normalizeAux_ne_nil _ hcodes h
  · rintro rfl
    rfl

end TreeCompiler.Compose
