import Mathlib.Data.List.Forall2

/-!
# Computations that may fail

What a computation in `Except` that succeeded has done, and when one in `Option` has a result.
-/

namespace TreeCompiler

variable {ε α β : Type}

theorem Except.bind_ok {x : Except ε α} {f : α → Except ε β} {b : β} (h : (x >>= f) = .ok b) :
    ∃ a, x = .ok a ∧ f a = .ok b := by
  cases x with
  | error e => cases h
  | ok a => exact ⟨a, rfl, h⟩

theorem Except.forall₂_of_mapM {f : α → Except ε β} {l : List α} {l' : List β} (h : l.mapM f = .ok l') :
    List.Forall₂ (fun a b => f a = .ok b) l l' := by
  induction l generalizing l' with
  | nil =>
    cases h
    exact .nil
  | cons a l ih =>
    rw [List.mapM_cons] at h
    obtain ⟨b, hb, h₁⟩ := bind_ok h
    obtain ⟨bs, hbs, h₂⟩ := bind_ok h₁
    cases h₂
    exact .cons hb (ih hbs)

theorem Except.forM_eq_ok_iff {f : α → Except ε Unit} {l : List α} : forM l f = .ok () ↔ ∀ a ∈ l, f a = .ok () := by
  induction l with
  | nil => simp [pure, Except.pure]
  | cons a l ih =>
    rw [List.forall_mem_cons, ← ih]
    cases hf : f a with
    | error e => simp [bind, Except.bind, hf]
    | ok => simp [bind, Except.bind, hf]

theorem Option.isSome_bind_iff {x : Option α} {f : α → Option β} {p : Prop} (h : ∀ a, (f a).isSome ↔ p) :
    (x >>= f).isSome ↔ x.isSome ∧ p := by
  cases x with
  | none => simp
  | some a => simpa using h a

theorem Option.isSome_bind_pure {x : Option α} {f : α → β} : (x >>= fun a => pure (f a)).isSome ↔ x.isSome := by
  cases x <;> rfl

theorem Option.isSome_mapM {f : α → Option β} {l : List α} : (l.mapM f).isSome ↔ ∀ a ∈ l, (f a).isSome := by
  induction l with
  | nil => simp
  | cons a l ih =>
    rw [List.mapM_cons, List.forall_mem_cons, ← ih]
    exact isSome_bind_iff fun _ => isSome_bind_pure

end TreeCompiler
