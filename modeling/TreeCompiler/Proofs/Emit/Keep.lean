import TreeCompiler.Proofs.Code.Machine
import TreeCompiler.Proofs.Emit.Statement

/-!
# What emitted code leaves alone

While a value is emitted, registers of callers hold earlier values. The code of the value must not write to them.

* `Live` : a scratch register in use; `Own H o` : a result that is none of the registers `H`;
* `Guarded K H s s'` : the operands that the code from `s` to `s'` must leave alone: the registers `H`, an accumulator
  that was not written to by the count of writes, constants and the variables that are watched for calm;
* `Keeps K H s s'` : it does so, on every run through any code that continues it;
* `Guards` : a computation that keeps, with what it makes of the register pools.
-/

namespace TreeCompiler

namespace Operand

def isScratch (o : Operand) : Bool := o.kind = .value || o.kind = .ref

end Operand

namespace Opcode

/-- Instructions that write to no operand but the accumulator and the spread count. -/
def isCalm (o : Opcode) : Bool := o.writesAccumulator || [push, unpack, setIndex, setField].contains o

theorem ne_of_calm {o x : Opcode} (h : o.isCalm = true) (hx : x.isCalm = false) : o ≠ x := by
  rintro rfl
  rw [hx] at h
  cases h

theorem isCall_of_calm {o : Opcode} (h : o.isCalm = true) : o.isCall = false := by
  unfold isCall
  split
  · exact absurd h (by decide)
  · exact absurd h (by decide)
  · exact absurd h (by decide)
  · rfl

end Opcode

namespace Instr

theorem straight_of_calm {i : Instr} (h : i.op.isCalm = true) : i.isStraight = true := by
  have ne {x : Opcode} (hx : x.isCalm = false) : i.op ≠ x := Opcode.ne_of_calm h hx
  have htarget : i.target? = none := by
    unfold target?
    split
    · exact absurd ‹_› (ne rfl)
    · exact absurd ‹_› (ne rfl)
    · exact absurd ‹_› (ne rfl)
    · exact absurd ‹_› (ne rfl)
    · rfl
  simp [isStraight, falls, htarget, ne (x := .jump) rfl, ne (x := .ret) rfl, ne (x := .halt) rfl]

theorem effect_of_calm {V : Type} {locals : Nat} {i : Instr} {σ τ : Store V} (h : i.op.isCalm = true)
    (he : i.Effect locals σ τ) {o : Operand} (ho : o = .accumulator → i.op.writesAccumulator = false)
    (hs : o ≠ .spreadCount) : τ o = σ o := by
  rw [Effect, if_neg (Opcode.ne_of_calm h rfl), Opcode.isCall_of_calm h, if_neg Bool.false_ne_true] at he
  split at he
  · rename_i hw
    exact he o fun h => by rw [ho h] at hw; cases hw
  · split at he
    · exact he o hs
    · rw [he]

end Instr

theorem Assembler.pos_append {a b : Assembler} {is : List Instr} (h : b.code.toList = a.code.toList ++ is) :
    b.pos = a.pos + is.length := by
  have := congrArg List.length h
  simp only [Array.length_toList, List.length_append] at this
  exact this

/-- The code of `a` goes on in `b`, where labels are bound as they were. -/
structure Assembler.Continues (a b : Assembler) : Prop where
  code : ∃ is, b.code.toList = a.code.toList ++ is
  labels : Emit.LabelsStay a b

namespace Assembler.Continues

theorem refl (a : Assembler) : a.Continues a := ⟨⟨[], (List.append_nil _).symm⟩, fun _ _ h => h⟩

theorem trans {a b c : Assembler} (h : a.Continues b) (h' : b.Continues c) : a.Continues c := by
  obtain ⟨is, his⟩ := h.code
  obtain ⟨js, hjs⟩ := h'.code
  exact ⟨⟨is ++ js, by rw [hjs, his, List.append_assoc]⟩, h.labels.trans h'.labels⟩

theorem pos_le {a b : Assembler} (h : a.Continues b) : a.pos ≤ b.pos := by
  obtain ⟨is, his⟩ := h.code
  rw [pos_append his]
  exact Nat.le_add_right ..

theorem getElem? {a b : Assembler} (h : a.Continues b) {ip : Nat} {i : Instr} (hi : a.code[ip]? = some i) :
    b.code[ip]? = some i := by
  obtain ⟨is, his⟩ := h.code
  rw [← Array.getElem?_toList] at hi ⊢
  rw [his, List.getElem?_append_left (List.getElem?_eq_some_iff.1 hi).1, hi]

/-- The instructions that one state has over another. -/
theorem block {a b c : Assembler} {is : List Instr} (h : b.Continues c) (hb : b.code.toList = a.code.toList ++ is) :
    ∀ k < is.length, c.code[a.pos + k]? = is[k]? := by
  intro k hk
  refine (h.getElem? ?_).trans (List.getElem?_eq_getElem hk).symm
  rw [← Array.getElem?_toList, hb, pos, ← Array.length_toList, List.getElem?_append_right (Nat.le_add_right ..),
    Nat.add_sub_cancel_left, List.getElem?_eq_getElem hk]

end Assembler.Continues

namespace Pool

variable {p q : Pool} {i j : Nat}

theorem isUsed_set_self {b : Bool} (h : i < p.size) :
    Pool.isUsed { p with used := p.used.setIfInBounds i b } i = b := by
  have hi : i < p.used.size := h
  simp [isUsed, Array.getD_eq_getD_getElem?, hi]

theorem isUsed_set_ne {b : Bool} (h : i ≠ j) :
    Pool.isUsed { p with used := p.used.setIfInBounds i b } j = p.isUsed j := by
  simp only [isUsed, Array.getD_eq_getD_getElem?, Array.getElem?_setIfInBounds_ne h]

theorem isUsed_acquire (h : i < p.size) (hu : p.isUsed j = true) :
    Pool.isUsed { p with used := p.used.setIfInBounds i true } j = true := by
  by_cases hij : i = j
  · subst hij
    exact isUsed_set_self h
  · rw [isUsed_set_ne hij, hu]

theorem isUsed_release (h : p.release i = .ok q) (hj : j ≠ i) (hu : p.isUsed j = true) : q.isUsed j = true := by
  unfold release at h
  split at h
  · cases h
    exact hu
  · split at h
    · cases h
    · cases h
      rw [isUsed_set_ne (Ne.symm hj), hu]

end Pool

namespace Emit

/-! ## Registers in use -/

def Live (values refs : Pool) (o : Operand) : Prop :=
  (o.kind = .value → ∃ i : Nat, o.val = i ∧ values.isUsed i = true) ∧
    (o.kind = .ref → ∃ i : Nat, o.val = i ∧ refs.isUsed i = true)

/-- A result that is no register of `H`. -/
structure Own (H : Operand → Prop) (o : Operand) : Prop where
  spared : o.isScratch = true → 0 ≤ o.val ∧ ¬H o
  counted : o.kind ≠ .spreadCount

theorem live_of_not_scratch {values refs : Pool} {o : Operand} (h : o.isScratch = false) : Live values refs o := by
  constructor <;> intro hk <;> simp [Operand.isScratch, hk] at h

theorem own_of_not_scratch {H : Operand → Prop} {o : Operand} (h : o.isScratch = false) (hc : o.kind ≠ .spreadCount) :
    Own H o :=
  ⟨fun hs => (by rw [h] at hs; cases hs), hc⟩

/-- What is watched while a value is emitted; the variables that are `calm` must not be stored to. -/
structure Watch where
  unit : AnalysisResult
  locals : Nat
  calm : Operand → Prop

structure Ready (K : Watch) (H : Operand → Prop) (s : EmitState) : Prop where
  unit : s.unit = K.unit
  locals : s.frame.locals = K.locals
  values : s.values.kind = .value
  refs : s.refs.kind = .ref
  live : ∀ o, H o → Live s.values s.refs o

def Guarded (K : Watch) (H : Operand → Prop) (s s' : EmitState) (o : Operand) : Prop :=
  match o.kind with
  | .value | .ref => H o
  | .accumulator => s'.accumulatorWrites = s.accumulatorWrites
  | .returned => s'.returnWrites = s.returnWrites
  | .global | .stack => K.calm o
  | .spreadCount => False
  | _ => True

structure Keeps (K : Watch) (H : Operand → Prop) (s s' : EmitState) : Prop where
  unit : s'.unit = s.unit
  locals : s'.frame.locals = s.frame.locals
  values : s'.values.kind = s.values.kind
  refs : s'.refs.kind = s.refs.kind
  asm : s.asm.Continues s'.asm
  accumulator : s.accumulatorWrites ≤ s'.accumulatorWrites
  returned : s.returnWrites ≤ s'.returnWrites
  live : ∀ o, H o → Live s.values s.refs o → Live s'.values s'.refs o
  safe : ∀ a, s'.asm.Continues a → ∀ o, Guarded K H s s' o → a.Preserves s.frame.locals o s.asm.pos s'.asm.pos

variable {K : Watch} {H : Operand → Prop} {s s₁ s₂ s' : EmitState}

theorem Keeps.ready (h : Keeps K H s s') (hs : Ready K H s) : Ready K H s' where
  unit := h.unit.trans hs.unit
  locals := h.locals.trans hs.locals
  values := h.values.trans hs.values
  refs := h.refs.trans hs.refs
  live := fun o ho => h.live o ho (hs.live o ho)

theorem Guarded.split (h : Keeps K H s s₁) (h' : Keeps K H s₁ s') {o : Operand} (ho : Guarded K H s s' o) :
    Guarded K H s s₁ o ∧ Guarded K H s₁ s' o := by
  have hacc := h.accumulator
  have hacc' := h'.accumulator
  have hret := h.returned
  have hret' := h'.returned
  unfold Guarded at *
  split at ho <;> simp_all <;> omega

theorem Keeps.trans (h : Keeps K H s s₁) (h' : Keeps K H s₁ s') : Keeps K H s s' where
  unit := h'.unit.trans h.unit
  locals := h'.locals.trans h.locals
  values := h'.values.trans h.values
  refs := h'.refs.trans h.refs
  asm := h.asm.trans h'.asm
  accumulator := Nat.le_trans h.accumulator h'.accumulator
  returned := Nat.le_trans h.returned h'.returned
  live := fun o ho hl => h'.live o ho (h.live o ho hl)
  safe := fun a ha o ho => by
    obtain ⟨ho₁, ho₂⟩ := ho.split h h'
    have h₁ := h.safe a (h'.asm.trans ha) o ho₁
    have h₂ := h'.safe a ha o ho₂
    rw [h.locals] at h₂
    exact h₁.trans h₂ h.asm.pos_le h'.asm.pos_le

/-- Fewer registers are easier to keep. -/
theorem Keeps.mono {H' : Operand → Prop} (h : Keeps K H s s') (hH : ∀ o, H' o → H o) : Keeps K H' s s' :=
  { h with
    live := fun o ho => h.live o (hH o ho)
    safe := fun a ha o ho => h.safe a ha o (by
      unfold Guarded at *
      split at ho <;> simp_all) }

/-! ## Steps that emit nothing -/

structure Quiet (s s' : EmitState) : Prop where
  unit : s'.unit = s.unit
  locals : s'.frame.locals = s.frame.locals
  values : s'.values = s.values
  refs : s'.refs = s.refs
  code : s'.asm.code = s.asm.code
  labels : LabelsStay s.asm s'.asm
  accumulator : s'.accumulatorWrites = s.accumulatorWrites
  returned : s'.returnWrites = s.returnWrites

theorem Quiet.refl (s : EmitState) : Quiet s s := ⟨rfl, rfl, rfl, rfl, rfl, fun _ _ h => h, rfl, rfl⟩

theorem Quiet.trans (h : Quiet s s₁) (h' : Quiet s₁ s') : Quiet s s' where
  unit := h'.unit.trans h.unit
  locals := h'.locals.trans h.locals
  values := h'.values.trans h.values
  refs := h'.refs.trans h.refs
  code := h'.code.trans h.code
  labels := h.labels.trans h'.labels
  accumulator := h'.accumulator.trans h.accumulator
  returned := h'.returned.trans h.returned

theorem Quiet.keeps (h : Quiet s s') : Keeps K H s s' where
  unit := h.unit
  locals := h.locals
  values := by rw [h.values]
  refs := by rw [h.refs]
  asm := ⟨⟨[], by rw [h.code, List.append_nil]⟩, h.labels⟩
  accumulator := Nat.le_of_eq h.accumulator.symm
  returned := Nat.le_of_eq h.returned.symm
  live := fun o _ hl => by rw [h.values, h.refs]; exact hl
  safe := fun a _ o _ => by
    rw [Assembler.pos, Assembler.pos, h.code]
    exact .refl

/-- A computation that emits nothing and touches no register. -/
def IsQuiet {α : Type} (m : EmitM α) : Prop := ∀ s a s', m s = .ok a s' → Quiet s s'

section

variable {α β : Type}

theorem Reads.isQuiet {m : EmitM α} (h : Reads m) : IsQuiet m := fun s a s' hm => by
  obtain rfl := h s a s' hm
  exact .refl _

theorem IsQuiet.bind {x : EmitM α} {f : α → EmitM β} (hx : IsQuiet x) (hf : ∀ a, IsQuiet (f a)) : IsQuiet (x >>= f) := by
  intro s c s' h
  obtain ⟨a, s₁, hxs, hfs⟩ := bind_ok h
  exact (hx s a s₁ hxs).trans (hf a s₁ c s' hfs)

theorem IsQuiet.pure {a : α} : IsQuiet (pure a : EmitM α) := (reads_pure a).isQuiet

theorem IsQuiet.throw {e : EmitFailure} : IsQuiet (throw e : EmitM α) := (reads_throw e).isQuiet

theorem IsQuiet.ite {c : Prop} [Decidable c] {x y : EmitM α} (hx : IsQuiet x) (hy : IsQuiet y) :
    IsQuiet (if c then x else y) := by
  split
  · exact hx
  · exact hy

theorem IsQuiet.get : IsQuiet (get : EmitM EmitState) := fun s a s' h => by
  cases h
  exact .refl _

theorem IsQuiet.unit : IsQuiet unit := reads_unit.isQuiet

theorem IsQuiet.node (id : NodeId) : IsQuiet (node id) := .bind .unit fun r => by
  split
  · exact .pure
  · exact .throw

theorem IsQuiet.symbol (id : SymbolId) : IsQuiet (symbol id) := fun _ _ _ h => by
  obtain ⟨-, rfl⟩ := symbol_ok h
  exact .refl _

theorem IsQuiet.declaration (s : Symbol) : IsQuiet (declaration s) := fun _ _ _ h => by
  obtain ⟨-, rfl⟩ := declaration_ok h
  exact .refl _

theorem IsQuiet.funcScope (fn : SymbolId) : IsQuiet (funcScope fn) := fun _ _ _ h => by
  obtain ⟨-, rfl⟩ := funcScope_ok h
  exact .refl _

theorem IsQuiet.typeInfo (id : TypeId) : IsQuiet (typeInfo id) := .bind .unit fun r => by
  split
  · exact .pure
  · exact .throw

theorem IsQuiet.typeKind (id : TypeId) : IsQuiet (typeKind id) := .bind .unit fun _ => .pure

theorem IsQuiet.isResolved (id : TypeId) : IsQuiet (isResolved id) := .bind .unit fun _ => .pure

theorem IsQuiet.isValue (t : TypeId) : IsQuiet (isValue t) := .bind (.typeKind t) fun k => by
  split <;> exact .pure

theorem IsQuiet.valueKind (id : NodeId) : IsQuiet (valueKind id) := .bind (.node id) fun _ => .typeKind _

theorem IsQuiet.binaryCode (at' : NodeId) (op : Operator) (l r : NodeId) : IsQuiet (binaryCode at' op l r) := by
  unfold Emit.binaryCode
  split
  · exact .throw
  · refine .bind (.valueKind l) fun lk => .bind (.valueKind r) fun rk => ?_
    exact .ite .pure .pure

theorem IsQuiet.binding (id : NodeId) : IsQuiet (binding id) := .bind .unit fun r => by
  split
  · exact .pure
  · exact .bind (.node id) fun _ => .throw

theorem IsQuiet.storage (id : SymbolId) : IsQuiet (storage id) := .bind (.symbol id) fun sym => .bind .get fun s => by
  split
  · exact .pure
  · exact .pure
  · exact .pure
  · exact .bind .unit fun _ => .throw

theorem IsQuiet.note (span : Span) : IsQuiet (note span) := fun s a s' h => by
  cases h
  exact ⟨rfl, rfl, rfl, rfl, rfl, fun _ _ h => h, rfl, rfl⟩

theorem IsQuiet.newLabel : IsQuiet newLabel := fun s a s' h => by
  cases h
  exact ⟨rfl, rfl, rfl, rfl, rfl, labelsStay_push rfl, rfl, rfl⟩

theorem IsQuiet.stringRef (text : String) : IsQuiet (stringRef text) := fun s a s' h => by
  cases h
  split <;> exact ⟨rfl, rfl, rfl, rfl, rfl, fun _ _ h => h, rfl, rfl⟩

theorem IsQuiet.fieldOperand (id : NodeId) (n : Node) : IsQuiet (fieldOperand id n) := .bind .unit fun r => by
  split
  · exact .pure
  · exact .stringRef _

theorem IsQuiet.typeRef (t : TypeId) : IsQuiet (typeRef t) := .bind .get fun s => by
  split
  · exact .pure
  · refine .bind (.typeInfo t) fun ty => .bind .unit fun u s a s' h => ?_
    cases h
    split <;> exact ⟨rfl, rfl, rfl, rfl, rfl, fun _ _ h => h, rfl, rfl⟩

theorem IsQuiet.nativeRef (fn : SymbolId) : IsQuiet (nativeRef fn) := .bind .get fun s => by
  split
  · exact .pure
  · refine .bind (.symbol fn) fun sym => .bind .unit fun u => .bind (.declaration sym) fun n s a s' h => ?_
    cases h
    exact ⟨rfl, rfl, rfl, rfl, rfl, fun _ _ h => h, rfl, rfl⟩

theorem IsQuiet.funcRef (fn : SymbolId) : IsQuiet (funcRef fn) := .bind .get fun s => by
  split
  · exact .pure
  · refine .bind (.symbol fn) fun sym => .bind (.declaration sym) fun n => ?_
    refine .bind (reads_funcName fn).isQuiet fun name s a s' h => ?_
    cases h
    exact ⟨rfl, rfl, rfl, rfl, rfl, labelsStay_push rfl, rfl, rfl⟩

theorem IsQuiet.fieldDefaults (t : TypeId) : IsQuiet (fieldDefaults t) := .bind .unit fun u => by
  split <;> exact .pure

theorem IsQuiet.mapM {f : α → EmitM β} (l : List α) (h : ∀ a, IsQuiet (f a)) : IsQuiet (l.mapM f) := by
  induction l with
  | nil => exact .pure
  | cons a l ih =>
    rw [List.mapM_cons]
    exact .bind (h a) fun _ => .bind ih fun _ => .pure

theorem IsQuiet.givenFields (list : List NodeId) : IsQuiet (givenFields list) := .bind (.mapM list .node) fun _ => .pure

theorem IsQuiet.stores (id : NodeId) : IsQuiet (stores id) := .bind .unit fun u => by
  dsimp only
  split
  · exact .pure
  · exact .throw

end

/-! ## Computations -/

/-- From a state where the registers `H` are live and the pools satisfy `P`, the computation keeps and leaves pools that
satisfy `Q`. -/
def Guards {α : Type} (K : Watch) (H : Operand → Prop) (P : Pool → Pool → Prop) (m : EmitM α)
    (Q : α → Pool → Pool → Prop) : Prop :=
  ∀ s a s', Ready K H s → P s.values s.refs → m s = .ok a s' → Keeps K H s s' ∧ Q a s'.values s'.refs

/-- The registers of `H` and one more. -/
def Also (H : Operand → Prop) (o x : Operand) : Prop := H x ∨ x = o

def Any (_ _ : Pool) : Prop := True

namespace Guards

variable {α β : Type} {P P' : Pool → Pool → Prop}

theorem bind {x : EmitM α} {f : α → EmitM β} {R : α → Pool → Pool → Prop} {Q : β → Pool → Pool → Prop}
    (hx : Guards K H P x R) (hf : ∀ a, Guards K H (R a) (f a) Q) : Guards K H P (x >>= f) Q := by
  intro s c s' hs hP h
  obtain ⟨a, s₁, hxs, hfs⟩ := bind_ok h
  obtain ⟨h₁, hR⟩ := hx s a s₁ hs hP hxs
  obtain ⟨h₂, hQ⟩ := hf a s₁ c s' (h₁.ready hs) hR hfs
  exact ⟨h₁.trans h₂, hQ⟩

theorem pure {a : α} {Q : α → Pool → Pool → Prop} (h : ∀ values refs, P values refs → Q a values refs) :
    Guards K H P (pure a) Q := by
  intro s c s' _ hP hm
  cases hm
  exact ⟨(Quiet.refl s).keeps, h _ _ hP⟩

theorem throw {e : EmitFailure} {Q : α → Pool → Pool → Prop} : Guards K H P (throw e : EmitM α) Q := by
  intro s c s' _ _ h
  cases h

theorem mono {m : EmitM α} {Q Q' : α → Pool → Pool → Prop} (h : Guards K H P m Q)
    (hP : ∀ values refs, P' values refs → P values refs) (hQ : ∀ a values refs, Q a values refs → Q' a values refs) :
    Guards K H P' m Q' := by
  intro s a s' hs hP' hm
  obtain ⟨hk, hq⟩ := h s a s' hs (hP _ _ hP') hm
  exact ⟨hk, hQ _ _ _ hq⟩

theorem assume {F : Prop} {m : EmitM α} {Q : α → Pool → Pool → Prop} (hF : ∀ values refs, P values refs → F)
    (h : F → Guards K H P m Q) : Guards K H P m Q :=
  fun s a s' hs hP hm => h (hF _ _ hP) s a s' hs hP hm

/-- What does not depend on the pools may be assumed. -/
theorem pull {F : Prop} {m : EmitM α} {Q : α → Pool → Pool → Prop} (h : F → Guards K H P m Q) :
    Guards K H (fun values refs => F ∧ P values refs) m Q :=
  fun s a s' hs hP hm => h hP.1 s a s' hs hP.2 hm

theorem ite {c : Prop} [Decidable c] {x y : EmitM α} {Q : α → Pool → Pool → Prop} (hx : c → Guards K H P x Q)
    (hy : ¬c → Guards K H P y Q) : Guards K H P (if c then x else y) Q := by
  split
  · exact hx ‹_›
  · exact hy ‹_›

theorem quiet {m : EmitM α} (h : IsQuiet m) : Guards K H P m fun _ => P := by
  intro s a s' _ hP hm
  have hq := h s a s' hm
  exact ⟨hq.keeps, by rw [hq.values, hq.refs]; exact hP⟩

/-- What a lookup yields, in a setting that allows every slot. -/
def anywhere (u : AnalysisResult) (captures base : Nat) : Setting where
  unit := u
  captures := captures
  allowed := fun _ => True
  base := base

theorem over_anywhere (hs : Ready K H s) : Over (anywhere K.unit s.frame.captures s.asm.labels.size) s :=
  ⟨hs.unit, rfl, Nat.le_refl _, hs.values, hs.refs⟩

theorem learn {x : EmitM α} {f : α → EmitM β} {F : α → Prop} {Q : β → Pool → Pool → Prop} (hq : IsQuiet x)
    (hx : ∀ s a s', Ready K H s → x s = .ok a s' → F a) (hf : ∀ a, F a → Guards K H P (f a) Q) :
    Guards K H P (x >>= f) Q := by
  intro s c s' hs hP h
  obtain ⟨a, s₁, hxs, hfs⟩ := bind_ok h
  have h₁ := hq s a s₁ hxs
  obtain ⟨h₂, hQ⟩ := hf a (hx s a s₁ hs hxs) s₁ c s' (h₁.keeps.ready hs) (by rw [h₁.values, h₁.refs]; exact hP) hfs
  exact ⟨h₁.keeps.trans h₂, hQ⟩

theorem look {x : EmitM α} {f : α → EmitM β} {F : α → Prop} {Q : β → Pool → Pool → Prop} (hq : IsQuiet x)
    (hx : ∀ captures base, Emits (anywhere K.unit captures base) x F) (hf : ∀ a, F a → Guards K H P (f a) Q) :
    Guards K H P (x >>= f) Q :=
  learn hq (fun s a s' hs hxs => (hx _ _ s a s' (over_anywhere hs) hxs).2) hf

/-- A register that is kept stays live. -/
theorem frame {m : EmitM α} {Q : α → Pool → Pool → Prop} {o : Operand} (h : Guards K (Also H o) P m Q) :
    Guards K H (fun values refs => P values refs ∧ Live values refs o) m
      fun a values refs => Q a values refs ∧ Live values refs o := by
  intro s a s' hs ⟨hP, hl⟩ hm
  have hs' : Ready K (Also H o) s := ⟨hs.unit, hs.locals, hs.values, hs.refs, by
    rintro x (hx | rfl)
    · exact hs.live x hx
    · exact hl⟩
  obtain ⟨hk, hQ⟩ := h s a s' hs' hP hm
  exact ⟨hk.mono fun _ => .inl, hQ, hk.live o (.inr rfl) hl⟩

theorem forM {f : α → EmitM PUnit} (l : List α) (h : ∀ a ∈ l, Guards K H Any (f a) fun _ => Any) :
    Guards K H Any (l.forM f) fun _ => Any := by
  induction l with
  | nil => exact .pure fun _ _ _ => trivial
  | cons a l ih =>
    exact .bind (h a (List.mem_cons_self ..)) fun _ => ih fun x hx => h x (List.mem_cons_of_mem _ hx)

theorem forIn {f : α → PUnit → EmitM (ForInStep PUnit)} (l : List α)
    (h : ∀ a ∈ l, Guards K H Any (f a ⟨⟩) fun _ => Any) : Guards K H Any (forIn l PUnit.unit f) fun _ => Any := by
  induction l with
  | nil => exact .pure fun _ _ _ => trivial
  | cons a l ih =>
    rw [List.forIn_cons]
    refine .bind (h a (List.mem_cons_self ..)) fun r => ?_
    cases r with
    | done _ => exact .pure fun _ _ _ => trivial
    | yield _ => exact ih fun x hx => h x (List.mem_cons_of_mem _ hx)

theorem foldlM {f : β → α → EmitM β} (l : List α) (h : ∀ c, ∀ a ∈ l, Guards K H Any (f c a) fun _ => Any) :
    ∀ c, Guards K H Any (l.foldlM f c) fun _ => Any := by
  induction l with
  | nil => exact fun c => .pure fun _ _ _ => trivial
  | cons a l ih =>
    intro c
    refine .bind (h c a (List.mem_cons_self ..)) fun c' => ?_
    exact ih (fun c x hx => h c x (List.mem_cons_of_mem _ hx)) c'

end Guards

/-! ## Instructions and registers -/

theorem keeps_emit {i : Instr} {a : Unit} (hi : i.isStraight = true) (hm : emit i s = .ok a s')
    (h : ∀ o, Guarded K H s s' o → ∀ (V : Type) (σ τ : Store V), i.Effect s.frame.locals σ τ → τ o = σ o) :
    Keeps K H s s' := by
  cases hm
  refine
    { unit := rfl, locals := rfl, values := rfl, refs := rfl, live := fun _ _ hl => hl
      asm := ⟨⟨[i], by simp [Assembler.emit]⟩, fun _ _ hl => hl⟩
      accumulator := by simp only; omega
      returned := by simp only; omega
      safe := fun a ha o ho => ?_ }
  have hcode : a.code[s.asm.pos]? = some i := ha.getElem? (by simp [Assembler.emit, Assembler.pos])
  have hpos : (s.asm.emit i).pos = s.asm.pos + 1 := by simp [Assembler.emit, Assembler.pos]
  rw [hpos]
  exact .instr hcode hi (h o ho)

/-- An operand that may be overwritten. -/
def Dest (K : Watch) (H : Operand → Prop) (x : Operand) : Prop :=
  match x.kind with
  | .value | .ref => ¬H x
  | .global | .stack => ¬K.calm x
  | .spreadCount => True
  | _ => False

theorem Dest.ne {x o : Operand} (hx : Dest K H x) (ho : Guarded K H s s' o) : o ≠ x := by
  rintro rfl
  unfold Dest at hx
  unfold Guarded at ho
  split at hx <;> simp_all

theorem dest_of_own {x : Operand} (h : Own H x) (hx : x.isScratch = true) : Dest K H x := by
  have hn := (h.spared hx).2
  simp only [Operand.isScratch, Bool.or_eq_true, decide_eq_true_eq] at hx
  unfold Dest
  rcases hx with hk | hk <;> rw [hk] <;> exact hn

namespace Guards

variable {P : Pool → Pool → Prop}

theorem emit {i : Instr} (hi : i.op.isCalm = true) : Guards K H P (emit i) fun _ => P := by
  intro s a s' _ hP hm
  refine ⟨keeps_emit (Instr.straight_of_calm hi) hm fun o ho V σ τ he => ?_, by cases hm; exact hP⟩
  refine Instr.effect_of_calm hi he (fun hacc => ?_) fun hcount => ?_
  · subst hacc
    cases hm
    change s.accumulatorWrites + _ + _ = s.accumulatorWrites at ho
    cases hw : i.op.writesAccumulator with
    | false => rfl
    | true =>
      rw [hw, if_pos rfl] at ho
      omega
  · subst hcount
    exact ho

theorem mov {x y : Operand} (hx : Dest K H x) : Guards K H P (Emit.emit { op := .mov, a := x, b := y }) fun _ => P := by
  intro s a s' _ hP hm
  refine ⟨keeps_emit rfl hm fun o ho V σ τ he => ?_, by cases hm; exact hP⟩
  exact (Instr.effect_mov he).2 (hx.ne ho)

end Guards

theorem keeps_pools {values refs : Pool} (hv : values.kind = s.values.kind) (hr : refs.kind = s.refs.kind)
    (hl : ∀ o, H o → Live s.values s.refs o → Live values refs o) : Keeps K H s { s with values, refs } where
  unit := rfl
  locals := rfl
  values := hv
  refs := hr
  asm := .refl _
  accumulator := Nat.le_refl _
  returned := Nat.le_refl _
  live := hl
  safe := fun _ _ _ _ => .refl

/-- A register that was free is none of those kept. -/
theorem own_of_free {o : Operand} (hs : Ready K H s) (hk : o.isScratch = true) (h0 : 0 ≤ o.val)
    (h : ¬Live s.values s.refs o) : Own H o := by
  refine ⟨fun _ => ⟨h0, fun hH => h (hs.live o hH)⟩, ?_⟩
  rintro hc
  simp [Operand.isScratch, hc] at hk

/-- A register that is given back is none of those kept. -/
theorem val_ne_of_own {x o : Operand} {i : Nat} (h : Own H o) (hk : o.isScratch = true) (hx : H x) (hxo : x.kind = o.kind)
    (hi : x.val = i) : i ≠ o.val.toNat := by
  rintro rfl
  obtain ⟨h0, hn⟩ := h.spared hk
  refine hn ?_
  have hval : x.val = o.val := by rw [hi, Int.toNat_of_nonneg h0]
  have : x = o := by
    cases x
    cases o
    simp_all
  exact this ▸ hx

namespace Guards

theorem acquireValue (id : NodeId) :
    Guards K H Any (acquireValue id) fun o values refs => Own H o ∧ o.kind = .value ∧ Live values refs o := by
  intro s o s' hs _ hm
  obtain ⟨values, hp, rfl⟩ := acquireValue_ok hm
  obtain ⟨i, hlt, hfree, rfl, rfl⟩ := Pool.acquire?_eq_some hp
  refine ⟨keeps_pools rfl rfl fun o _ hl => ⟨fun hk => ?_, hl.2⟩, own_of_free hs ?_ (Int.natCast_nonneg i) fun hl => ?_, ?_⟩
  · obtain ⟨j, hj, hu⟩ := hl.1 hk
    exact ⟨j, hj, Pool.isUsed_acquire hlt hu⟩
  · simp [Operand.isScratch, Pool.register, hs.values]
  · obtain ⟨j, hj, hu⟩ := hl.1 hs.values
    obtain rfl : i = j := Int.ofNat.inj hj
    rw [hfree] at hu
    cases hu
  · refine ⟨hs.values, fun _ => ⟨i, rfl, Pool.isUsed_set_self hlt⟩, fun hk => ?_⟩
    rw [show (s.values.register i).kind = .value from hs.values] at hk
    cases hk

theorem acquireRef (id : NodeId) :
    Guards K H Any (acquireRef id) fun o values refs => Own H o ∧ o.kind = .ref ∧ Live values refs o := by
  intro s o s' hs _ hm
  obtain ⟨refs, hp, rfl⟩ := acquireRef_ok hm
  obtain ⟨i, hlt, hfree, rfl, rfl⟩ := Pool.acquire?_eq_some hp
  refine ⟨keeps_pools rfl rfl fun o _ hl => ⟨hl.1, fun hk => ?_⟩, own_of_free hs ?_ (Int.natCast_nonneg i) fun hl => ?_, ?_⟩
  · obtain ⟨j, hj, hu⟩ := hl.2 hk
    exact ⟨j, hj, Pool.isUsed_acquire hlt hu⟩
  · simp [Operand.isScratch, Pool.register, hs.refs]
  · obtain ⟨j, hj, hu⟩ := hl.2 hs.refs
    obtain rfl : i = j := Int.ofNat.inj hj
    rw [hfree] at hu
    cases hu
  · refine ⟨hs.refs, fun hk => ?_, fun _ => ⟨i, rfl, Pool.isUsed_set_self hlt⟩⟩
    rw [show (s.refs.register i).kind = .ref from hs.refs] at hk
    cases hk

theorem free {P : Pool → Pool → Prop} {o : Operand} (h : Own H o) : Guards K H P (free o) fun _ => Any := by
  unfold Emit.free
  split
  all_goals rename_i hk
  · intro s a s' _ _ hm
    obtain ⟨values, hp, rfl⟩ := withValues_ok hm
    refine ⟨keeps_pools (Pool.kind_release hp) rfl fun x hx hl => ⟨fun hkx => ?_, hl.2⟩, trivial⟩
    obtain ⟨j, hj, hu⟩ := hl.1 hkx
    have hne := val_ne_of_own h (by simp [Operand.isScratch, hk]) hx (hkx.trans hk.symm) hj
    exact ⟨j, hj, Pool.isUsed_release hp hne hu⟩
  · intro s a s' _ _ hm
    obtain ⟨refs, hp, rfl⟩ := withRefs_ok hm
    refine ⟨keeps_pools rfl (Pool.kind_release hp) fun x hx hl => ⟨hl.1, fun hkx => ?_⟩, trivial⟩
    obtain ⟨j, hj, hu⟩ := hl.2 hkx
    have hne := val_ne_of_own h (by simp [Operand.isScratch, hk]) hx (hkx.trans hk.symm) hj
    exact ⟨j, hj, Pool.isUsed_release hp hne hu⟩
  · exact .pure fun _ _ _ => trivial

/-- A value that is in no scratch register is copied to a fresh one. -/
theorem toRegister {P : Pool → Pool → Prop} {o : Operand} (ho : Own H o) (t : TypeId) (id : NodeId) :
    Guards K H P (toRegister o t id) fun x values refs =>
      Own H x ∧ x.isScratch = true ∧ (x = o ∧ P values refs ∨ Live values refs x) := by
  have copy (r : Operand) (hr : Own H r) (hk : r.isScratch = true) :
      Guards K H (fun values refs => Live values refs r) (do
        Emit.emit { op := .mov, a := r, b := o }
        Pure.pure r) fun x values refs => Own H x ∧ x.isScratch = true ∧ (x = o ∧ P values refs ∨ Live values refs x) :=
    .bind (.mov (dest_of_own hr hk)) fun _ => .pure fun values refs hl => ⟨hr, hk, .inr hl⟩
  unfold Emit.toRegister
  split
  · exact .pure fun values refs h => ⟨ho, by simp [Operand.isScratch, *], .inl ⟨rfl, h⟩⟩
  · exact .pure fun values refs h => ⟨ho, by simp [Operand.isScratch, *], .inl ⟨rfl, h⟩⟩
  · exact .throw
  · refine .bind (.quiet (.isValue t)) fun v => ?_
    cases v
    · refine .bind ((acquireRef id).mono (fun _ _ _ => trivial) fun _ _ _ h => h) fun r => .pull fun hr => .pull fun hk => ?_
      exact copy r hr (by simp [Operand.isScratch, hk])
    · refine .bind ((acquireValue id).mono (fun _ _ _ => trivial) fun _ _ _ h => h) fun r => .pull fun hr => .pull fun hk => ?_
      exact copy r hr (by simp [Operand.isScratch, hk])

theorem stable {P : Pool → Pool → Prop} {o : Operand} (ho : Own H o) (t : TypeId) (id : NodeId) :
    Guards K H P (stable o t id) fun x values refs => Own H x ∧ (x = o ∧ P values refs ∨ Live values refs x) := by
  unfold Emit.stable
  refine .ite (fun _ => ?_) fun _ => .pure fun _ _ h => ⟨ho, .inl ⟨rfl, h⟩⟩
  exact (toRegister ho t id).mono (fun _ _ h => h) fun _ _ _ h => ⟨h.1, h.2.2⟩

/-- A live value stays live when it is copied. -/
theorem live_of_copy {x o : Operand} {values refs : Pool} (h : x = o ∧ Live values refs o ∨ Live values refs x) :
    Live values refs x := by
  rcases h with ⟨rfl, h⟩ | h <;> exact h

theorem move {P : Pool → Pool → Prop} {dst src : Operand} (hd : Dest K H dst) (hs : Own H src) :
    Guards K H P (move dst src) fun _ => Any := by
  unfold Emit.move
  exact .ite (fun _ => .bind (.mov hd) fun _ => free hs) fun _ => free hs

theorem pushOperand {P : Pool → Pool → Prop} {o : Operand} (ho : Own H o) : Guards K H P (pushOperand o) fun _ => Any :=
  .bind (.emit rfl) fun _ => free ho

end Guards

end Emit

end TreeCompiler
