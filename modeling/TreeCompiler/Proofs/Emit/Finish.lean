import TreeCompiler.Proofs.Emit.Twin

/-!
# Finished programs

Between two functions both tables have been asked for the same rows in the same order. Then both assemblers finish the same
program: operands that correspond are equal once the labels are resolved.

* `Synced w` : related states with equal catalogs;
* `Agree` : results that are equal if one of them is one;
* `Synced.finish` : both programs are equal.
-/

namespace TreeCompiler.Emit

structure Synced (w : World) : Prop extends Related w where
  same : w.asked' = w.asked

def Agree {ε α : Type} : Except ε α → Except ε α → Prop
  | .ok a, .ok a' => a' = a
  | .error _, .error _ => True
  | _, _ => False

namespace Agree

variable {ε α β γ δ : Type}

theorem bind {x x' : Except ε α} {f f' : α → Except ε β} (h : Agree x x') (hf : ∀ a, Agree (f a) (f' a)) :
    Agree (x >>= f) (x' >>= f') := by
  cases x <;> cases x'
  · exact trivial
  · exact h.elim
  · exact h.elim
  · obtain rfl := h
    exact hf _

theorem pure (a : α) : Agree (pure a : Except ε α) (pure a) := rfl

theorem mapM {f : γ → Except ε β} {f' : δ → Except ε β} {l : List γ} {l' : List δ}
    (h : List.Forall₂ (fun a a' => Agree (f a) (f' a')) l l') : Agree (l.mapM f) (l'.mapM f') := by
  induction h with
  | nil => exact .pure []
  | cons h _ ih =>
    rw [List.mapM_cons, List.mapM_cons]
    exact bind h fun _ => bind ih fun _ => .pure _

end Agree

theorem forall₂_zipIdx {α β : Type} {S : α → β → Prop} {l : List α} {l' : List β} (h : List.Forall₂ S l l') (n : Nat) :
    List.Forall₂ (fun x x' : _ × Nat => S x.1 x'.1 ∧ x'.2 = x.2) (l.zipIdx n) (l'.zipIdx n) := by
  induction h generalizing n with
  | nil => exact .nil
  | cons h _ ih =>
    rw [List.zipIdx_cons, List.zipIdx_cons]
    exact .cons ⟨h, rfl⟩ (ih (n + 1))

variable {w : World} {o o' : Operand}

theorem Synced.resolveOperand (h : Synced w) (ho : w.Links o o') (ip : Nat) :
    Agree (w.direct.asm.resolveOperand ip o) (w.actual.asm.resolveOperand ip o') := by
  unfold Assembler.resolveOperand
  cases ho with
  | same hk =>
    rw [if_pos hk, if_pos hk]
    exact rfl
  | @row r i i' hi hi' =>
    obtain rfl : i = i' := Catalog.At.unique h.asked.distinct hi (h.same ▸ hi')
    have hk : (r.operand i).kind ≠ .label := by cases r <;> nofun
    rw [if_pos hk, if_pos hk]
    exact rfl
  | @label l l' hl =>
    have haddress : w.actual.asm.address? (Operand.label l').val.toNat = w.direct.asm.address? (Operand.label l).val.toNat :=
      h.labelled.address? l l' hl
    have hk (l : Label) : ¬(Operand.label l).kind ≠ .label := fun hne => hne rfl
    rw [if_neg (hk l), if_neg (hk l'), haddress]
    cases w.direct.asm.address? (Operand.label l).val.toNat with
    | none => exact trivial
    | some ip => exact rfl

theorem Synced.mapOperands (h : Synced w) {i i' : Instr} (hi : w.LinksInstr i i') (ip : Nat) :
    Agree (i.mapOperands (w.direct.asm.resolveOperand ip)) (i'.mapOperands (w.actual.asm.resolveOperand ip)) := by
  refine .bind (h.resolveOperand hi.a ip) fun _ => .bind (h.resolveOperand hi.b ip) fun _ => .bind (h.resolveOperand hi.c ip) fun _ => ?_
  obtain ⟨op, a, b, c⟩ := i
  obtain ⟨op', a', b', c'⟩ := i'
  obtain rfl : op' = op := hi.op
  exact .pure _

/-- A function has a row in both tables, at the same place. -/
theorem Synced.funcs (h : Synced w) (fn : SymbolId) :
    (w.direct.funcs.get? fn = none ∧ w.actual.funcs.get? fn = none) ∨
      ∃ k e e', w.direct.funcs.get? fn = some (k, e) ∧ w.actual.funcs.get? fn = some (k, e') := by
  have counterpart {s s' : EmitState} {k : Nat} {e : Label} (hs : Catalogued s w.asked) (hs' : Catalogued s' w.asked)
      (hget : s.funcs.get? fn = some (k, e)) : ∃ e', s'.funcs.get? fn = some (k, e') := by
    have hat := ((hs.funcs fn k e).1 hget).1
    have hlt : k < s'.asm.funcs.size := by
      rw [hs'.rows]
      exact (List.getElem?_eq_some_iff.1 hat).1
    exact ⟨s'.asm.funcs[k].entry, (hs'.funcs fn k _).2 ⟨hat, by rw [Array.getElem?_eq_getElem hlt]; rfl⟩⟩
  have hs : Catalogued w.actual w.asked := h.same ▸ h.asked'
  cases hd : w.direct.funcs.get? fn with
  | some p =>
    obtain ⟨e', he'⟩ := counterpart h.asked hs hd
    exact .inr ⟨p.1, p.2, e', rfl, he'⟩
  | none =>
    cases hget : w.actual.funcs.get? fn with
    | none => exact .inl ⟨rfl, rfl⟩
    | some p =>
      obtain ⟨e, he⟩ := counterpart hs h.asked hget
      rw [hd] at he
      cases he

theorem Synced.resolveFunc (h : Synced w) :
    List.Forall₂ (fun f f' => Agree (w.direct.asm.resolveFunc f) (w.actual.asm.resolveFunc f')) w.direct.asm.funcs.toList
      w.actual.asm.funcs.toList := by
  have hs : Catalogued w.actual w.asked := h.same ▸ h.asked'
  refine List.forall₂_iff_get.2 ⟨by simp [h.asked.rows, hs.rows], fun k hk hk' => ?_⟩
  have hk₁ : k < w.direct.asm.funcs.size := hk
  have hk₂ : k < w.actual.asm.funcs.size := hk'
  have hfn : k < w.asked.funcs.length := h.asked.rows ▸ hk₁
  have hd : w.direct.funcs.get? w.asked.funcs[k] = some (k, w.direct.asm.funcs[k].entry) :=
    (h.asked.funcs _ _ _).2 ⟨List.getElem?_eq_getElem hfn, by rw [Array.getElem?_eq_getElem hk₁]; rfl⟩
  have ha : w.actual.funcs.get? w.asked.funcs[k] = some (k, w.actual.asm.funcs[k].entry) :=
    (hs.funcs _ _ _).2 ⟨List.getElem?_eq_getElem hfn, by rw [Array.getElem?_eq_getElem hk₂]; rfl⟩
  have hrow := h.rows w.asked.funcs[k]
  have hentry := h.entries w.asked.funcs[k]
  simp only [EmitState.rowOf?, hd, ha, Array.getElem?_eq_getElem hk₁, Array.getElem?_eq_getElem hk₂, Option.map_some,
    Option.some.injEq] at hrow
  simp only [EmitState.entryAddress?, hd, ha, Option.bind_some] at hentry
  simp only [List.get_eq_getElem, Array.getElem_toList, Assembler.resolveFunc, hrow, hentry]
  cases w.direct.asm.address? w.direct.asm.funcs[k].entry with
  | none => exact trivial
  | some ip => exact rfl

/-- The rows of natives are determined by the symbols that were asked for. -/
theorem Synced.natives (h : Synced w) : w.actual.asm.natives = w.direct.asm.natives := by
  have hs : Catalogued w.actual w.asked := h.same ▸ h.asked'
  have hactual := hs.natives
  rw [h.unit] at hactual
  have unique {l : List SymbolId} {rows rows' : List NativeRow}
      (hl : List.Forall₂ (fun fn row => consult (nativeRow fn) w.direct.unit = .ok row) l rows)
      (hl' : List.Forall₂ (fun fn row => consult (nativeRow fn) w.direct.unit = .ok row) l rows') : rows' = rows := by
    induction hl generalizing rows' with
    | nil =>
      cases hl'
      rfl
    | cons hrow _ ih =>
      cases hl' with
      | cons hrow' hl' =>
        rw [hrow] at hrow'
        cases hrow'
        rw [ih hl']
  exact Array.toList_inj.1 (unique h.asked.natives hactual)

/-- Both assemblers finish the same program, or none. -/
theorem Synced.finish (h : Synced w) {entry entry' : Label} (hentry : w.labels entry entry') (globals : Nat) :
    Agree ((w.direct.asm.setGlobals globals).finish entry) ((w.actual.asm.setGlobals globals).finish entry') := by
  have hs : Catalogued w.actual w.asked := h.same ▸ h.asked'
  have hstrings : w.actual.asm.strings = w.direct.asm.strings := Array.toList_inj.1 (hs.texts.trans h.asked.texts.symm)
  have htypes : w.actual.asm.types = w.direct.asm.types := Array.toList_inj.1 (hs.types.trans h.asked.types.symm)
  have haddress : (w.actual.asm.setGlobals globals).address? entry' = (w.direct.asm.setGlobals globals).address? entry :=
    h.labelled.address? entry entry' hentry
  unfold Assembler.finish
  refine .bind (.mapM ?_) fun code => .bind (.mapM h.resolveFunc) fun funcs => ?_
  · refine (forall₂_zipIdx h.code 0).imp fun x x' hx => ?_
    obtain ⟨i, ip⟩ := x
    obtain ⟨i', ip'⟩ := x'
    obtain ⟨hi, rfl⟩ := hx
    exact h.mapOperands hi ip'
  · rw [haddress]
    cases (w.direct.asm.setGlobals globals).address? entry with
    | none => exact trivial
    | some ip =>
      dsimp only [Assembler.setGlobals]
      rw [hstrings, htypes, h.natives]
      exact .pure _

end TreeCompiler.Emit
