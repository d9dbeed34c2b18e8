import TreeCompiler.Proofs.Emit.Catalog
import TreeCompiler.Proofs.Emit.Claim

/-!
# Forcing more operands into registers

Two emissions of the same expressions, the second with more of them forced into registers. Both ask for the same rows of
the tables, make the same labels and write the implicit registers equally often; the second has at least as many registers
in use at every call, so it spills at least as deep.

* `Pool.load` : the number of registers in use;
* `Abreast H s t` : states that differ in code, addresses and registers only, `t` with at least the load of `s`;
* `Matched H m m' R` : two computations that stay abreast if both succeed;
* `emitter_lenient` : the emitter is matched with itself, also when only the second result is forced;
* `evaluateAll_abreast` : a list of expressions with a larger set of forced ones.
-/

namespace TreeCompiler

namespace Pool

variable {p q : Pool} {i : Nat}

def load (p : Pool) : Nat := p.live.length

theorem load_eq (p : Pool) : p.load = p.used.toList.count true := by
  have hlist : p.used.toList = (List.range p.used.size).map p.isUsed := by
    refine List.ext_getElem (by simp) fun i hi hi' => ?_
    have hlt : i < p.used.size := by simpa using hi
    simp [isUsed, Array.getD, hlt]
  rw [hlist, List.count_eq_countP, List.countP_map, List.countP_eq_length_filter]
  simp [load, live, size, Function.comp_def]

theorem load_set {b : Bool} (hi : i < p.size) :
    (Pool.load { p with used := p.used.setIfInBounds i b }) + (p.isUsed i).toNat = p.load + b.toNat := by
  have hlt : i < p.used.toList.length := hi
  have hi' : i < p.used.size := hi
  have hget : p.isUsed i = p.used.toList[i] := by simp [isUsed, Array.getD, hi']
  rw [load_eq, load_eq, Array.toList_setIfInBounds, List.count_set hlt, hget]
  have hpos : p.used.toList[i] = true → 0 < p.used.toList.count true :=
    fun h => List.count_pos_iff.2 (h ▸ List.getElem_mem hlt)
  cases hb : p.used.toList[i] <;> cases b <;> simp_all

theorem load_acquire {o : Operand} (h : p.acquire? = some (o, q)) : q.load = p.load + 1 := by
  obtain ⟨i, hi, hfree, -, rfl⟩ := acquire?_eq_some h
  have := load_set (b := true) hi
  simpa [hfree] using this

theorem lt_size_of_used (h : p.isUsed i = true) : i < p.size := by
  refine Nat.lt_of_not_le fun hge => ?_
  simp [isUsed, Array.getD, Nat.not_lt.2 (show p.used.size ≤ i from hge)] at h

/-- What a release does to a register that is not held. -/
theorem release_ok (h : p.release i = .ok q) (hheld : p.isHeld i = false) :
    p.isUsed i = true ∧ q = { p with used := p.used.setIfInBounds i false } := by
  unfold release at h
  rw [hheld] at h
  cases hu : p.isUsed i with
  | false => simp [hu] at h
  | true =>
    simp only [hu, Bool.false_eq_true, if_false, Bool.not_true, Except.ok.injEq] at h
    exact ⟨rfl, h.symm⟩

theorem load_release (h : p.release i = .ok q) (hheld : p.isHeld i = false) : q.load + 1 = p.load := by
  obtain ⟨hu, rfl⟩ := release_ok h hheld
  have := load_set (b := false) (lt_size_of_used hu)
  simpa [hu] using this

/-- A pool of that kind with those hold marks. -/
structure Marked (p : Pool) (k : OperandKind) (marks : Array Bool) : Prop where
  kind : p.kind = k
  held : p.held = marks
  sound : p.Sound

variable {k : OperandKind} {marks : Array Bool}

/-- A fresh register is not held. -/
theorem Marked.acquire {o : Operand} (hp : p.Marked k marks) (h : p.acquire? = some (o, q)) :
    q.Marked k marks ∧ o.kind = k ∧ marks.getD o.val.toNat false = false := by
  obtain ⟨i, hi, hfree, rfl, rfl⟩ := acquire?_eq_some h
  have hheld : p.isHeld i = false := by
    refine Bool.eq_false_iff.2 fun hh => ?_
    rw [hp.sound.held i hh] at hfree
    cases hfree
  refine ⟨⟨hp.kind, hp.held, ?_⟩, hp.kind, ?_⟩
  · refine ⟨by simp [hp.sound.size], fun j hj => isUsed_acquire hi (hp.sound.held j hj)⟩
  · rw [← hp.held]
    exact hheld

theorem Marked.release (hp : p.Marked k marks) (h : p.release i = .ok q) (hheld : marks.getD i false = false) :
    q.Marked k marks ∧ q.load + 1 = p.load := by
  have hheld : p.isHeld i = false := by
    rw [isHeld, hp.held]
    exact hheld
  refine ⟨?_, load_release h hheld⟩
  obtain ⟨-, rfl⟩ := release_ok h hheld
  refine ⟨hp.kind, hp.held, by simp [hp.sound.size], fun j hj => ?_⟩
  have hne : i ≠ j := by
    rintro rfl
    exact Bool.eq_false_iff.1 hheld hj
  rw [isUsed_set_ne hne]
  exact hp.sound.held j hj

end Pool

/-! ## States abreast -/

/-- What a state is allowed to differ in. -/
structure Patch where
  code : Array Instr
  labels : Array (Option Nat)
  bound : Array Label
  recorder : Recorder
  notes : List Noted
  values : Pool
  refs : Pool
  maxSpill : Nat

def EmitState.patched (s : EmitState) (x : Patch) : EmitState :=
  { s with
    asm := { s.asm with code := x.code, labels := x.labels, bound := x.bound }
    recorder := x.recorder
    notes := x.notes
    values := x.values
    refs := x.refs
    frame := { s.frame with maxSpill := x.maxSpill } }

def EmitState.load (s : EmitState) : Nat := s.values.load + s.refs.load

namespace Emit

/-- The hold marks of both pools in two states. They stay as they are while an expression is emitted. -/
structure Marks where
  values : Array Bool
  refs : Array Bool
  values' : Array Bool
  refs' : Array Bool

structure Level (H : Marks) (s : EmitState) (x : Patch) : Prop where
  labels : x.labels.size = s.asm.labels.size
  maxSpill : s.frame.maxSpill ≤ x.maxSpill
  load : s.load ≤ x.values.load + x.refs.load
  values : s.values.Marked .value H.values
  refs : s.refs.Marked .ref H.refs
  values' : x.values.Marked .value H.values'
  refs' : x.refs.Marked .ref H.refs'

def Abreast (H : Marks) (s t : EmitState) : Prop := ∃ x, t = s.patched x ∧ Level H s x

/-- Operands of one kind; where they are registers, neither is held. -/
structure Loose (H : Marks) (o o' : Operand) : Prop where
  kind : o'.kind = o.kind
  values : o.kind = .value → H.values.getD o.val.toNat false = false ∧ H.values'.getD o'.val.toNat false = false
  refs : o.kind = .ref → H.refs.getD o.val.toNat false = false ∧ H.refs'.getD o'.val.toNat false = false

def Matched {α : Type} (H : Marks) (m m' : EmitM α) (R : α → α → Prop) : Prop :=
  ∀ s t a a' s' t', Abreast H s t → m s = .ok a s' → m' t = .ok a' t' → Abreast H s' t' ∧ R a a'

variable {H : Marks} {α β : Type} {o o' : Operand}

theorem Loose.plain {o : Operand} (hv : o.kind ≠ .value) (hr : o.kind ≠ .ref) : Loose H o o :=
  ⟨rfl, fun h => absurd h hv, fun h => absurd h hr⟩

theorem Loose.isScratch (h : Loose H o o') : o'.isScratch = o.isScratch := by
  unfold Operand.isScratch
  rw [h.kind]

theorem Loose.isVariable (h : Loose H o o') : o'.isVariable = o.isVariable := by
  unfold Operand.isVariable
  rw [h.kind]

namespace Matched

variable {m m' : EmitM α} {f f' : α → EmitM β} {R : α → α → Prop} {Q : β → β → Prop}

theorem bind (hm : Matched H m m' R) (hf : ∀ a a', R a a' → Matched H (f a) (f' a') Q) : Matched H (m >>= f) (m' >>= f') Q := by
  intro s t b b' s' t' hs h h'
  obtain ⟨a, s₁, hms, hfs⟩ := bind_ok h
  obtain ⟨a', t₁, hmt, hft⟩ := bind_ok h'
  obtain ⟨h₁, hR⟩ := hm s t a a' s₁ t₁ hs hms hmt
  exact hf a a' hR s₁ t₁ b b' s' t' h₁ hfs hft

theorem pure {a a' : α} (h : R a a') : Matched H (pure a) (pure a') R := by
  intro s t b b' s' t' hs hb hb'
  cases hb
  cases hb'
  exact ⟨hs, h⟩

theorem throw {e : EmitFailure} : Matched H (throw e : EmitM α) m' R := fun _ _ _ _ _ _ _ h _ => by cases h

theorem fatal {id : NodeId} {cause : EmitCause} : Matched H (fatal id cause : EmitM α) m' R := throw

theorem mono {R' : α → α → Prop} (h : Matched H m m' R) (hR : ∀ a a', R a a' → R' a a') : Matched H m m' R' :=
  fun s t a a' s' t' hs hm hm' => ⟨(h s t a a' s' t' hs hm hm').1, hR a a' (h s t a a' s' t' hs hm hm').2⟩

theorem ite {c : Prop} [Decidable c] {x y x' y' : EmitM α} (hx : c → Matched H x x' R) (hy : ¬c → Matched H y y' R) :
    Matched H (if c then x else y) (if c then x' else y') R := by
  split
  · exact hx ‹_›
  · exact hy ‹_›

/-- Both sides look the same thing up. -/
theorem look (hm : Consults m) (hf : ∀ a, Matched H (f a) (f' a) Q) : Matched H (m >>= f) (m >>= f') Q := by
  rintro s _ b b' s' t' ⟨x, rfl, hx⟩ h h'
  obtain ⟨a, s₁, hms, hfs⟩ := bind_ok h
  obtain ⟨a', t₁, hmt, hft⟩ := bind_ok h'
  have hstay : m s = .ok a s := hm.ok rfl hms
  have hstay' : m (s.patched x) = .ok a (s.patched x) := hm.ok (s := s) rfl hms
  cases hms.symm.trans hstay
  cases hmt.symm.trans hstay'
  exact hf a s (s.patched x) b b' s' t' ⟨x, rfl, hx⟩ hfs hft

theorem of_consults (hm : Consults m) (hR : ∀ s a s', m s = .ok a s' → R a a) : Matched H m m R := by
  have h : Matched H (m >>= Pure.pure) (m >>= Pure.pure) Eq := look hm fun a => pure rfl
  rw [bind_pure] at h
  intro s t a a' s' t' hs hrun hrun'
  obtain ⟨hs', rfl⟩ := h s t a a' s' t' hs hrun hrun'
  exact ⟨hs', hR s a s' hrun⟩

/-- Both sides read the state; what they read of it is the same. -/
theorem get_bind {f f' : EmitState → EmitM β} (h : ∀ s x, Level H s x → Matched H (f s) (f' (s.patched x)) Q) :
    Matched H (get >>= f) (get >>= f') Q := by
  rintro s _ b b' s' t' ⟨x, rfl, hx⟩ hrun hrun'
  exact h s x hx s _ b b' s' t' ⟨x, rfl, hx⟩ hrun hrun'

theorem modify {f f' : EmitState → EmitState} (h : ∀ s x, Level H s x → Abreast H (f s) (f' (s.patched x))) :
    Matched H (modify f) (modify f') fun _ _ => True := by
  rintro s _ a a' s' t' ⟨x, rfl, hx⟩ hrun hrun'
  cases hrun
  cases hrun'
  exact ⟨h s x hx, trivial⟩

theorem modifyGet {f f' : EmitState → α × EmitState}
    (h : ∀ s x, Level H s x → Abreast H (f s).2 (f' (s.patched x)).2 ∧ R (f s).1 (f' (s.patched x)).1) :
    Matched H (modifyGet f) (modifyGet f') R := by
  rintro s _ a a' s' t' ⟨x, rfl, hx⟩ hrun hrun'
  cases hrun
  cases hrun'
  exact h s x hx

theorem forM {f f' : α → EmitM PUnit} (l : List α) (h : ∀ a ∈ l, Matched H (f a) (f' a) fun _ _ => True) :
    Matched H (l.forM f) (l.forM f') fun _ _ => True := by
  induction l with
  | nil => exact .pure trivial
  | cons a l ih =>
    exact .bind (h a (List.mem_cons_self ..)) fun _ _ _ => ih fun x hx => h x (List.mem_cons_of_mem _ hx)

theorem foldlM {f f' : β → α → EmitM β} (l : List α) (h : ∀ c, ∀ a ∈ l, Matched H (f c a) (f' c a) Eq) :
    ∀ c, Matched H (l.foldlM f c) (l.foldlM f' c) Eq := by
  induction l with
  | nil => exact fun c => .pure rfl
  | cons a l ih =>
    intro c
    refine .bind (h c a (List.mem_cons_self ..)) fun c₁ c₂ hc => ?_
    subst hc
    exact ih (fun c x hx => h c x (List.mem_cons_of_mem _ hx)) c₁

theorem forIn {f f' : α → PUnit → EmitM (ForInStep PUnit)} (l : List α)
    (h : ∀ a ∈ l, Matched H (f a ⟨⟩) (f' a ⟨⟩) Eq) :
    Matched H (forIn l PUnit.unit f) (forIn l PUnit.unit f') fun _ _ => True := by
  induction l with
  | nil => exact .pure trivial
  | cons a l ih =>
    rw [List.forIn_cons, List.forIn_cons]
    refine .bind (h a (List.mem_cons_self ..)) fun r r' hr => ?_
    subst hr
    cases r with
    | done _ => exact .pure trivial
    | yield _ => exact ih fun x hx => h x (List.mem_cons_of_mem _ hx)

/-! ### Instructions, labels and tables -/

theorem emit {i i' : Instr} (h : i'.op = i.op) : Matched H (emit i) (emit i') fun _ _ => True := by
  refine .modify fun s x hx => ⟨{ x with code := x.code.push i' }, ?_, { hx with }⟩
  rw [h]
  rfl

theorem note (span : Span) : Matched H (note span) (note span) fun _ _ => True :=
  .modify fun _ x hx =>
    ⟨{ x with recorder := x.recorder.node x.code.size span, notes := { ip := x.code.size, span } :: x.notes }, rfl, { hx with }⟩

theorem newLabel : Matched H newLabel newLabel Eq := by
  refine .modifyGet fun s x hx => ⟨⟨{ x with labels := x.labels.push none }, rfl, { hx with labels := ?_ }⟩, hx.labels.symm⟩
  simp [Assembler.newLabel, hx.labels]

theorem bindLabel (l : Label) : Matched H (bindLabel l) (bindLabel l) fun _ _ => True := by
  rintro s _ a a' s' t' ⟨x, rfl, hx⟩ h h'
  obtain ⟨-, -, rfl⟩ := bindLabel_ok h
  obtain ⟨-, -, rfl⟩ := bindLabel_ok h'
  refine ⟨⟨{ x with labels := x.labels.setIfInBounds l (some x.code.size), bound := x.bound.push l }, rfl, ?_⟩, trivial⟩
  exact { hx with labels := by simp [hx.labels] }

theorem stringRef (x : String) : Matched H (stringRef x) (stringRef x) Eq := by
  refine .modifyGet fun s y hy => ?_
  simp only [EmitState.patched, Assembler.addString]
  split <;> exact ⟨⟨y, rfl, { hy with }⟩, rfl⟩

/-- The operand of a text. -/
theorem textRef (x : String) : Matched H (Emit.stringRef x) (Emit.stringRef x) (Loose H) := by
  rintro s t o o' s' t' hs h h'
  obtain ⟨hs', rfl⟩ := stringRef x s t o o' s' t' hs h h'
  have hk : o.kind = .text := by
    cases h
    split <;> rfl
  exact ⟨hs', .plain (by rw [hk]; nofun) (by rw [hk]; nofun)⟩

theorem addTypeRow (t : TypeId) (row : TypeRow) : Matched H (addTypeRow t row) (addTypeRow t row) Eq := by
  refine .modifyGet fun s y hy => ?_
  simp only [EmitState.patched, Assembler.addType]
  split <;> exact ⟨⟨y, rfl, { hy with }⟩, rfl⟩

theorem addNativeRow (fn : SymbolId) (row : NativeRow) : Matched H (addNativeRow fn row) (addNativeRow fn row) Eq :=
  .modifyGet fun _ y hy => ⟨⟨y, rfl, { hy with }⟩, rfl⟩

theorem declareRow (fn : SymbolId) (row : FuncRow) : Matched H (declareRow fn row) (declareRow fn row) Eq := by
  refine .modifyGet fun s y hy => ⟨⟨{ y with labels := y.labels.push none }, ?_, { hy with labels := ?_ }⟩, rfl⟩
  · simp only [EmitState.patched, hy.labels]
  · simp [hy.labels]

/-- A step that is given by a part of the state in which both agree. -/
theorem of_part {κ : Type} {x : κ → EmitM α} (part : EmitState → κ) (hm : ∀ s, m s = x (part s) s)
    (hpart : ∀ s y, part (s.patched y) = part s) (h : ∀ k, Matched H (x k) (x k) R) : Matched H m m R := by
  rintro s _ a a' s' t' ⟨y, rfl, hy⟩ hrun hrun'
  rw [hm] at hrun hrun'
  rw [hpart] at hrun'
  exact h _ s _ a a' s' t' ⟨y, rfl, hy⟩ hrun hrun'

theorem foundOr {ρ : Type} {row : EmitM ρ} {add : ρ → EmitM Nat} {m : EmitM Nat} (part : EmitState → Option Nat)
    (hm : ∀ s, m s = foundOr row add (part s) s) (hpart : ∀ s y, part (s.patched y) = part s) (hrow : Consults row)
    (h : ∀ x, Matched H (add x) (add x) Eq) : Matched H m m Eq := by
  refine of_part part hm hpart fun k => ?_
  cases k with
  | some i => exact .pure rfl
  | none => exact .look hrow h

theorem typeRef (t : TypeId) : Matched H (typeRef t) (typeRef t) Eq :=
  .foundOr (fun s => s.typeRows.get? t) (typeRef_run t) (fun _ _ => rfl) (.typeRow t) (addTypeRow t)

theorem nativeRef (fn : SymbolId) : Matched H (nativeRef fn) (nativeRef fn) Eq :=
  .foundOr (fun s => s.natives.get? fn) (nativeRef_run fn) (fun _ _ => rfl) (.nativeRow fn) (addNativeRow fn)

theorem funcRef (fn : SymbolId) : Matched H (funcRef fn) (funcRef fn) Eq :=
  .foundOr (fun s => (s.funcs.get? fn).map (·.1)) (funcRef_run fn) (fun _ _ => rfl) (.initialRow fn) (declareRow fn)

end Matched

/-! ## Registers -/

section Equations

variable (t : TypeId) (id : NodeId)

theorem free_of_value (h : o.kind = .value) : free o = withValues (·.release o.val.toNat) := by
  unfold free
  rw [h]

theorem free_of_ref (h : o.kind = .ref) : free o = withRefs (·.release o.val.toNat) := by
  unfold free
  rw [h]

theorem free_of_other (hv : o.kind ≠ .value) (hr : o.kind ≠ .ref) : free o = pure () := by
  unfold free
  split
  · exact absurd ‹_› hv
  · exact absurd ‹_› hr
  · rfl

/-- A register of the pool for values of a type. -/
def fresh (t : TypeId) (id : NodeId) : EmitM Operand := do if ← isValue t then acquireValue id else acquireRef id

theorem toRegister_of_value (h : o.kind = .value) : toRegister o t id = pure o := by
  unfold toRegister
  rw [h]

theorem toRegister_of_ref (h : o.kind = .ref) : toRegister o t id = pure o := by
  unfold toRegister
  rw [h]

theorem toRegister_of_none (h : o.kind = .none) : toRegister o t id = fatal id .voidOperand := by
  unfold toRegister
  rw [h]

theorem toRegister_of_other (hv : o.kind ≠ .value) (hr : o.kind ≠ .ref) (hn : o.kind ≠ .none) :
    toRegister o t id = (do
      let r ← fresh t id
      emit { op := .mov, a := r, b := o }
      return r) := by
  unfold toRegister
  split
  · exact absurd ‹_› hv
  · exact absurd ‹_› hr
  · exact absurd ‹_› hn
  · simp only [fresh, bind_assoc]
    congr 1
    funext v
    cases v <;> rfl

end Equations

namespace Matched

theorem acquireValue (id : NodeId) : Matched H (acquireValue id) (acquireValue id) fun o o' => Loose H o o' ∧ o.isScratch = true := by
  rintro s _ o o' s' t' ⟨x, rfl, hx⟩ h h'
  obtain ⟨values, hp, rfl⟩ := acquireValue_ok h
  obtain ⟨values', hp', rfl⟩ := acquireValue_ok h'
  obtain ⟨hv, hk, hfree⟩ := hx.values.acquire hp
  obtain ⟨hv', hk', hfree'⟩ := hx.values'.acquire hp'
  have hload : s.values.load + s.refs.load ≤ x.values.load + x.refs.load := hx.load
  have hnew : values.load = s.values.load + 1 := Pool.load_acquire hp
  have hnew' : values'.load = x.values.load + 1 := Pool.load_acquire hp'
  refine ⟨⟨{ x with values := values' }, rfl, { hx with values := hv, values' := hv', load := ?_ }⟩, ?_, ?_⟩
  · simp only [EmitState.load]
    omega
  · exact ⟨hk'.trans hk.symm, fun _ => ⟨hfree, hfree'⟩, fun h => by (rw [hk] at h; cases h)⟩
  · simp [Operand.isScratch, hk]

theorem acquireRef (id : NodeId) : Matched H (acquireRef id) (acquireRef id) fun o o' => Loose H o o' ∧ o.isScratch = true := by
  rintro s _ o o' s' t' ⟨x, rfl, hx⟩ h h'
  obtain ⟨refs, hp, rfl⟩ := acquireRef_ok h
  obtain ⟨refs', hp', rfl⟩ := acquireRef_ok h'
  obtain ⟨hr, hk, hfree⟩ := hx.refs.acquire hp
  obtain ⟨hr', hk', hfree'⟩ := hx.refs'.acquire hp'
  have hload : s.values.load + s.refs.load ≤ x.values.load + x.refs.load := hx.load
  have hnew : refs.load = s.refs.load + 1 := Pool.load_acquire hp
  have hnew' : refs'.load = x.refs.load + 1 := Pool.load_acquire hp'
  refine ⟨⟨{ x with refs := refs' }, rfl, { hx with refs := hr, refs' := hr', load := ?_ }⟩, ?_, ?_⟩
  · simp only [EmitState.load]
    omega
  · exact ⟨hk'.trans hk.symm, fun h => by (rw [hk] at h; cases h), fun _ => ⟨hfree, hfree'⟩⟩
  · simp [Operand.isScratch, hk]

theorem releaseValue {i i' : Nat} (hi : H.values.getD i false = false) (hi' : H.values'.getD i' false = false) :
    Matched H (withValues (·.release i)) (withValues (·.release i')) fun _ _ => True := by
  rintro s _ a a' s' t' ⟨x, rfl, hx⟩ h h'
  obtain ⟨values, hp, rfl⟩ := withValues_ok h
  obtain ⟨values', hp', rfl⟩ := withValues_ok h'
  obtain ⟨hv, hdrop⟩ := hx.values.release hp hi
  obtain ⟨hv', hdrop'⟩ := hx.values'.release hp' hi'
  have hload : s.values.load + s.refs.load ≤ x.values.load + x.refs.load := hx.load
  refine ⟨⟨{ x with values := values' }, rfl, { hx with values := hv, values' := hv', load := ?_ }⟩, trivial⟩
  simp only [EmitState.load]
  omega

theorem releaseRef {i i' : Nat} (hi : H.refs.getD i false = false) (hi' : H.refs'.getD i' false = false) :
    Matched H (withRefs (·.release i)) (withRefs (·.release i')) fun _ _ => True := by
  rintro s _ a a' s' t' ⟨x, rfl, hx⟩ h h'
  obtain ⟨refs, hp, rfl⟩ := withRefs_ok h
  obtain ⟨refs', hp', rfl⟩ := withRefs_ok h'
  obtain ⟨hr, hdrop⟩ := hx.refs.release hp hi
  obtain ⟨hr', hdrop'⟩ := hx.refs'.release hp' hi'
  have hload : s.values.load + s.refs.load ≤ x.values.load + x.refs.load := hx.load
  refine ⟨⟨{ x with refs := refs' }, rfl, { hx with refs := hr, refs' := hr', load := ?_ }⟩, trivial⟩
  simp only [EmitState.load]
  omega

theorem free (h : Loose H o o') : Matched H (free o) (free o') fun _ _ => True := by
  by_cases hv : o.kind = .value
  · rw [free_of_value hv, free_of_value (h.kind.trans hv)]
    exact releaseValue (h.values hv).1 (h.values hv).2
  · by_cases hr : o.kind = .ref
    · rw [free_of_ref hr, free_of_ref (h.kind.trans hr)]
      exact releaseRef (h.refs hr).1 (h.refs hr).2
    · rw [free_of_other hv hr, free_of_other (h.kind ▸ hv) (h.kind ▸ hr)]
      exact .pure trivial

theorem fresh (t : TypeId) (id : NodeId) : Matched H (fresh t id) (fresh t id) fun o o' => Loose H o o' ∧ o.isScratch = true := by
  refine .look (.isValue t) fun v => ?_
  cases v
  · exact acquireRef id
  · exact acquireValue id

theorem toRegister (h : Loose H o o') (t : TypeId) (id : NodeId) : Matched H (toRegister o t id) (toRegister o' t id)
    fun r r' => Loose H r r' ∧ r.isScratch = true := by
  by_cases hv : o.kind = .value
  · rw [toRegister_of_value t id hv, toRegister_of_value t id (h.kind.trans hv)]
    exact .pure ⟨h, by simp [Operand.isScratch, hv]⟩
  by_cases hr : o.kind = .ref
  · rw [toRegister_of_ref t id hr, toRegister_of_ref t id (h.kind.trans hr)]
    exact .pure ⟨h, by simp [Operand.isScratch, hr]⟩
  by_cases hn : o.kind = .none
  · rw [toRegister_of_none t id hn]
    exact .fatal
  · rw [toRegister_of_other t id hv hr hn, toRegister_of_other t id (h.kind ▸ hv) (h.kind ▸ hr) (h.kind ▸ hn)]
    exact .bind (fresh t id) fun r r' hr => .bind (.emit rfl) fun _ _ _ => .pure hr

theorem stable (h : Loose H o o') (t : TypeId) (id : NodeId) : Matched H (stable o t id) (stable o' t id) (Loose H) := by
  unfold Emit.stable
  rw [h.kind]
  exact .ite (fun _ => (toRegister h t id).mono fun _ _ h => h.1) fun _ => .pure h

/-- Copies are not counted, so only one side may copy. -/
theorem move (dst dst' : Operand) (h : Loose H o o') : Matched H (move dst o) (move dst' o') fun _ _ => True := by
  have split (d x : Operand) (s s' : EmitState) (a : Unit) (hrun : Emit.move d x s = .ok a s') :
      ∃ code, Emit.free x { s with asm := { s.asm with code } } = .ok a s' := by
    unfold Emit.move at hrun
    split at hrun
    · obtain ⟨_, _, hemit, hfree⟩ := bind_ok hrun
      cases hemit
      exact ⟨_, hfree⟩
    · exact ⟨s.asm.code, hrun⟩
  rintro s _ a a' s' t' ⟨x, rfl, hx⟩ hrun hrun'
  obtain ⟨code, hfree⟩ := split dst o s s' a hrun
  obtain ⟨code', hfree'⟩ := split dst' o' _ t' a' hrun'
  exact free h { s with asm := { s.asm with code } } _ a a' s' t' ⟨{ x with code := code' }, rfl, { hx with }⟩ hfree hfree'

theorem pushOperand (h : Loose H o o') : Matched H (pushOperand o) (pushOperand o') fun _ _ => True :=
  .bind (.emit rfl) fun _ _ _ => free h

theorem spill : Matched H spill spill Eq := by
  refine .modifyGet fun s x hx => ⟨⟨{ x with maxSpill := max x.maxSpill (s.frame.spills + 1) }, rfl, ?_⟩, rfl⟩
  have hle := hx.maxSpill
  refine { hx with maxSpill := ?_ }
  simp only [Frame.spill]
  omega

theorem unspill (n : Nat) : Matched H (unspill n) (unspill n) fun _ _ => True :=
  .modify fun _ x hx => ⟨x, rfl, { hx with }⟩

theorem storage (v : SymbolId) : Matched H (storage v) (storage v) fun o o' => o' = o ∧ (o.kind = .global ∨ o.kind = .stack) :=
  of_part (fun s => s.frame.captures) (storage_run v) (fun _ _ => rfl) fun captures =>
    .of_consults (.storageAt captures v) fun _ _ _ h => ⟨rfl, storageAt_kind h⟩

end Matched

/-! ## Calls -/

/-- The deepest spill after `n` more slots were taken. -/
def deepest (f : Frame) (n : Nat) : Nat := if n = 0 then f.maxSpill else max f.maxSpill (f.spills + n)

theorem deepest_mono {f f' : Frame} {n n' : Nat} (hm : f.maxSpill ≤ f'.maxSpill) (hs : f'.spills = f.spills) (hn : n ≤ n') :
    deepest f n ≤ deepest f' n' := by
  unfold deepest
  rw [hs]
  split <;> split <;> omega

/-- Saves a list of registers, each to a slot of its own. -/
def saveRegs (regs : List Operand) : EmitM (List (Operand × Operand)) :=
  regs.mapM fun reg => do
    let slot ← spill
    emit { op := .mov, a := slot, b := reg }
    return (reg, slot)

theorem spillLive_run (s : EmitState) : spillLive s = saveRegs (s.values.live ++ s.refs.live) s := rfl

theorem saveRegs_cons (r : Operand) (regs : List Operand) : saveRegs (r :: regs) = (do
    let p ← (do
      let slot ← spill
      emit { op := .mov, a := slot, b := r }
      return (r, slot))
    return p :: (← saveRegs regs)) := List.mapM_cons

theorem saveRegs_state {regs : List Operand} {saved : List (Operand × Operand)} {s s' : EmitState}
    (h : saveRegs regs s = .ok saved s') :
    saved.length = regs.length ∧ ∃ code, s' = { s with
      asm := { s.asm with code }
      frame := { s.frame with spills := s.frame.spills + regs.length, maxSpill := deepest s.frame regs.length } } := by
  induction regs generalizing s saved with
  | nil =>
    cases h
    exact ⟨rfl, _, rfl⟩
  | cons r regs ih =>
    rw [saveRegs_cons] at h
    obtain ⟨p, s₁, hp, h₁⟩ := bind_ok h
    obtain ⟨ps, s₂, hps, h₂⟩ := bind_ok h₁
    cases h₂
    obtain ⟨hlen, code, rfl⟩ := ih hps
    cases hp
    refine ⟨by rw [List.length_cons, hlen, List.length_cons], code, ?_⟩
    have hspills : s.frame.spills + 1 + regs.length = s.frame.spills + (regs.length + 1) := by omega
    have hdeep : deepest s.frame.spill.2 regs.length = deepest s.frame (regs.length + 1) := by
      simp only [deepest, Frame.spill, Nat.succ_ne_zero, if_false]
      split <;> omega
    simp only [Frame.spill] at hdeep
    simp only [List.length_cons, hspills, hdeep]
    rfl

theorem restoreAll_state {saved : List (Operand × Operand)} {s s' : EmitState} {a : Unit}
    (h : (saved.forM fun p => emit { op := .mov, a := p.1, b := p.2 } : EmitM Unit) s = .ok a s') :
    ∃ code, s' = { s with asm := { s.asm with code } } := by
  induction saved generalizing s with
  | nil =>
    cases h
    exact ⟨_, rfl⟩
  | cons p saved ih =>
    obtain ⟨_, s₁, hp, hrest⟩ := bind_ok h
    obtain ⟨code, rfl⟩ := ih hrest
    cases hp
    exact ⟨code, rfl⟩

/-- A call takes a spill slot for every register in use and gives it back. -/
theorem invoke_state {op : Opcode} {callee : Operand} {fixed : Nat} {s s' : EmitState} {a : Unit}
    (h : invoke op callee fixed s = .ok a s') : ∃ code, s' = { s with
      asm := { s.asm with code }
      accumulatorWrites :=
        s.accumulatorWrites + (if op.writesAccumulator then 1 else 0) + (if op.isCall then 1 else 0)
      returnWrites := s.returnWrites + (if op.isCall then 1 else 0)
      frame := { s.frame with maxSpill := deepest s.frame s.load } } := by
  obtain ⟨saved, s₁, hsave, h₁⟩ := bind_ok h
  obtain ⟨_, s₂, hcall, h₂⟩ := bind_ok h₁
  obtain ⟨_, s₃, hrestore, hun⟩ := bind_ok h₂
  rw [spillLive_run] at hsave
  obtain ⟨hlen, code, rfl⟩ := saveRegs_state hsave
  cases hcall
  obtain ⟨code', rfl⟩ := restoreAll_state hrestore
  cases hun
  have hload : (s.values.live ++ s.refs.live).length = s.load := List.length_append
  refine ⟨code', ?_⟩
  simp only [Frame.unspill, hlen, hload, Nat.add_sub_cancel]
  rfl

namespace Matched

theorem invoke (op : Opcode) (callee callee' : Operand) (fixed : Nat) :
    Matched H (invoke op callee fixed) (invoke op callee' fixed) fun _ _ => True := by
  rintro s _ a a' s' t' ⟨x, rfl, hx⟩ h h'
  obtain ⟨code, rfl⟩ := invoke_state h
  obtain ⟨code', rfl⟩ := invoke_state h'
  refine ⟨⟨{ x with code := code', maxSpill := deepest (s.patched x).frame (s.patched x).load }, rfl, ?_⟩, trivial⟩
  exact { hx with maxSpill := deepest_mono hx.maxSpill rfl hx.load }

end Matched

/-! ## Expressions -/

/-- The emitter keeps abreast, also when only the second result is forced into a register. In that case there is a register
to spare for the first. -/
structure Lenient (rec : Emitter) : Prop where
  expr : ∀ H id forced, Matched H (rec.expr id forced) (rec.expr id forced) (Loose H)
  forced : ∀ H id s t o o' s' t', Abreast H s t → rec.expr id false s = .ok o s' → rec.expr id true t = .ok o' t' →
    Abreast H s' t' ∧ o'.isScratch = true ∧ (o.isScratch = false → s'.load + 1 ≤ t'.load)
  zero : ∀ H id t, Matched H (rec.zero id t) (rec.zero id t) (Loose H)

variable {rec : Emitter}

namespace Matched

theorem accumulator : Matched H (Pure.pure Operand.accumulator) (Pure.pure Operand.accumulator) (Loose H) :=
  .pure (.plain nofun nofun)

theorem plain {o : Operand} (hv : o.kind ≠ .value) (hr : o.kind ≠ .ref) : Matched H (Pure.pure o) (Pure.pure o) (Loose H) :=
  .pure (.plain hv hr)

theorem saveSpread : Matched H saveSpread saveSpread Eq := by
  refine .get_bind fun s x _ => ?_
  change Matched H _ (if 0 < s.countingCalls then _ else _) Eq
  refine .ite (fun _ => .bind .spill fun o o' h => ?_) fun _ => .pure rfl
  exact .bind (.emit rfl) fun _ _ _ => .pure (congrArg some h)

theorem beginSpread (spread : Bool) : Matched H (beginSpread spread) (beginSpread spread) Eq := by
  refine .ite (fun _ => .bind .saveSpread fun o o' h => .bind (.emit rfl) fun _ _ _ => ?_) fun _ => .pure rfl
  exact .bind (.modify fun _ x hx => ⟨x, rfl, { hx with }⟩) fun _ _ _ => .pure h

theorem endSpread (spread : Bool) : Matched H (endSpread spread) (endSpread spread) fun _ _ => True :=
  .modify fun _ x hx => ⟨x, rfl, { hx with }⟩

theorem restoreSpread (saved : Option Operand) : Matched H (restoreSpread saved) (restoreSpread saved) fun _ _ => True := by
  cases saved with
  | none => exact .pure trivial
  | some slot => exact .bind (.emit rfl) fun _ _ _ => .unspill 1

variable (hrec : Lenient rec)

include hrec

theorem exprAny (id : NodeId) : Matched H (exprAny rec id) (exprAny rec id) (Loose H) := hrec.expr H id false

theorem push (id : NodeId) : Matched H (push rec id) (push rec id) fun _ _ => True :=
  .bind (exprAny hrec id) fun _ _ h => pushOperand h

theorem pushAll (ids : List NodeId) : Matched H (pushAll rec ids) (pushAll rec ids) fun _ _ => True :=
  .forM ids fun id _ => push hrec id

end Matched

/-! ### Lists of operands -/

/-- Values in the same kind of place, made after as many writes. -/
structure SameCounts (H : Marks) (e e' : Evaluated) : Prop where
  op : Loose H e.op e'.op
  accumulatorWrites : e'.accumulatorWrites = e.accumulatorWrites
  returnWrites : e'.returnWrites = e.returnWrites

theorem SameCounts.isStale {e e' : Evaluated} (h : SameCounts H e e') (s : EmitState) (x : Patch) :
    e'.isStale (s.patched x) = e.isStale s := by
  unfold Evaluated.isStale
  rw [h.op.kind, h.accumulatorWrites, h.returnWrites]
  rfl

theorem map_isStale {es es' : List Evaluated} (h : List.Forall₂ (SameCounts H) es es') (s : EmitState) (x : Patch) :
    es'.map (·.isStale (s.patched x)) = es.map (·.isStale s) := by
  induction h with
  | nil => rfl
  | cons he _ ih => rw [List.map_cons, List.map_cons, ih, he.isStale]

/-- The marks of two states abreast take both back. -/
theorem Abreast.rewind {s t s₁ t₁ s₂ t₂ : EmitState} {a a' : Unit} (h : Abreast H s t) (h₁ : Abreast H s₁ t₁)
    (hs : Emit.rewind (markOf s) s₁ = .ok a s₂) (ht : Emit.rewind (markOf t) t₁ = .ok a' t₂) : Abreast H s₂ t₂ := by
  have hsize (ls : List Label) (labels : Array (Option Nat)) :
      (ls.foldl (fun a l => a.setIfInBounds l none) labels).size = labels.size := by
    induction ls generalizing labels with
    | nil => rfl
    | cons l ls ih => rw [List.foldl_cons, ih, Array.size_setIfInBounds]
  obtain ⟨x, rfl, hx⟩ := h
  obtain ⟨y, rfl, hy⟩ := h₁
  cases hs
  cases ht
  refine ⟨⟨_, _, _, _, _, x.values, x.refs, y.maxSpill⟩, rfl, ?_⟩
  exact
    { hx with
      labels := by
        simp only [Assembler.rewind, hsize]
        exact hy.labels
      maxSpill := hy.maxSpill }

namespace Matched

variable (hrec : Lenient rec)

include hrec

theorem evaluate (id : NodeId) (forced later : Bool) :
    Matched H (evaluate rec id forced later) (evaluate rec id forced later) (SameCounts H) := by
  have done {o o' : Operand} (h : Loose H o o') : Matched H (do
      let s ← MonadState.get
      Pure.pure { op := o, accumulatorWrites := s.accumulatorWrites, returnWrites := s.returnWrites : Evaluated }) (do
      let s ← MonadState.get
      Pure.pure { op := o', accumulatorWrites := s.accumulatorWrites, returnWrites := s.returnWrites : Evaluated })
      (SameCounts H) := .get_bind fun s x _ => .pure ⟨h, rfl, rfl⟩
  unfold Emit.evaluate
  refine .bind (hrec.expr H id forced) fun o o' h => ?_
  rw [h.isVariable]
  refine .ite (fun _ => ?_) fun _ => .bind (.pure h) fun _ _ => done
  exact .look (.node id) fun n => .bind (toRegister h n.valueType id) fun r r' hr => done hr.1

theorem evaluateAll (items : List (NodeId × Bool × Bool)) :
    Matched H (evaluateAll rec items) (evaluateAll rec items) (List.Forall₂ (SameCounts H)) := by
  induction items with
  | nil => exact .pure .nil
  | cons x rest ih => exact .bind (evaluate hrec _ _ _) fun e e' he => .bind ih fun es es' hes => .pure (.cons he hes)

theorem operandsAux (ids : List NodeId) (storing : List Bool) (fuel : Nat) :
    ∀ forced, Matched H (operandsAux rec ids storing fuel forced) (operandsAux rec ids storing fuel forced)
      (List.Forall₂ (Loose H)) := by
  induction fuel with
  | zero => exact fun _ => .throw
  | succ fuel ih =>
    intro forced s t os os' s' t' hs hrun hrun'
    obtain ⟨_, _, hm, hrun⟩ := bind_ok hrun
    obtain ⟨_, _, hm', hrun'⟩ := bind_ok hrun'
    cases hm
    cases hm'
    obtain ⟨es, s₁, hes, hrun⟩ := bind_ok hrun
    obtain ⟨es', t₁, hes', hrun'⟩ := bind_ok hrun'
    obtain ⟨hs₁, hsame⟩ := evaluateAll hrec _ s t es es' s₁ t₁ hs hes hes'
    obtain ⟨_, _, hget, hrun⟩ := bind_ok hrun
    obtain ⟨_, _, hget', hrun'⟩ := bind_ok hrun'
    cases hget
    cases hget'
    have hstale : es'.dropLast.map (·.isStale t₁) = es.dropLast.map (·.isStale s₁) := by
      obtain ⟨x, rfl, -⟩ := hs₁
      rw [List.map_dropLast, List.map_dropLast, map_isStale hsame]
    dsimp only at hrun hrun'
    rw [hstale] at hrun'
    split at hrun
    · rw [if_pos ‹_›] at hrun'
      obtain ⟨_, s₂, hr, hrun⟩ := bind_ok hrun
      obtain ⟨_, t₂, hr', hrun'⟩ := bind_ok hrun'
      exact ih _ s₂ t₂ os os' s' t' (hs.rewind hs₁ hr hr') hrun hrun'
    · rw [if_neg ‹_›] at hrun'
      cases hrun
      cases hrun'
      refine ⟨hs₁, ?_⟩
      rw [List.forall₂_map_left_iff, List.forall₂_map_right_iff]
      exact hsame.imp fun _ _ h => h.op

theorem operands (ids : List NodeId) : Matched H (operands rec ids) (operands rec ids) (List.Forall₂ (Loose H)) :=
  .look (.storesAfter ids) fun storing => operandsAux hrec ids storing _ _

theorem operands2 (a b : NodeId) : Matched H (operands2 rec a b) (operands2 rec a b)
    fun p p' => Loose H p.1 p'.1 ∧ Loose H p.2 p'.2 := by
  refine .bind (operands hrec [a, b]) fun os os' h => ?_
  cases h with
  | nil => exact .throw
  | cons hx h =>
    cases h with
    | nil => exact .throw
    | cons hy h =>
      cases h with
      | nil => exact .pure ⟨hx, hy⟩
      | cons _ _ => exact .throw

theorem operands3 (a b c : NodeId) : Matched H (operands3 rec a b c) (operands3 rec a b c)
    fun p p' => Loose H p.1 p'.1 ∧ Loose H p.2.1 p'.2.1 ∧ Loose H p.2.2 p'.2.2 := by
  refine .bind (operands hrec [a, b, c]) fun os os' h => ?_
  cases h with
  | nil => exact .throw
  | cons hx h =>
    cases h with
    | nil => exact .throw
    | cons hy h =>
      cases h with
      | nil => exact .throw
      | cons hz h =>
        cases h with
        | nil => exact .pure ⟨hx, hy, hz⟩
        | cons _ _ => exact .throw

/-! ### Every kind of expression -/

omit hrec in
theorem fieldOperand (id : NodeId) (n : Node) : Matched H (fieldOperand id n) (fieldOperand id n) Eq := by
  refine .look .unit fun u => ?_
  split
  · exact .pure rfl
  · exact stringRef n.name

omit hrec in
theorem name (id : NodeId) (n : Node) : Matched H (name id n) (name id n) (Loose H) := by
  refine .look (.binding id) fun v => .look (.symbol v) fun sym => ?_
  split
  · refine (storage v).mono fun o o' h => ?_
    obtain ⟨rfl, hk⟩ := h
    exact .plain (by rcases hk with hk | hk <;> rw [hk] <;> nofun) (by rcases hk with hk | hk <;> rw [hk] <;> nofun)
  · refine .ite (fun _ => .bind (nativeRef v) fun i i' h => ?_) fun _ => .bind (funcRef v) fun i i' h => ?_
    · subst h
      exact plain nofun nofun
    · subst h
      exact plain nofun nofun
  · exact .bind (typeRef _) fun _ _ _ => .bind (.emit rfl) fun _ _ _ => accumulator
  · exact .fatal

omit hrec in
theorem literal (id : NodeId) : Matched H (literal id) (literal id) (Loose H) := by
  refine .look .unit fun u => ?_
  split
  · rename_i fn _
    refine .bind (funcRef fn) fun i i' h => ?_
    subst h
    refine .look (.funcScope fn) fun sc => .ite (fun _ => plain (by rintro ⟨⟩) (by rintro ⟨⟩)) fun _ => ?_
    refine .bind (.forM _ fun p _ => .bind (storage p.1) fun _ _ _ => .emit rfl) fun _ _ _ => ?_
    exact .bind (.emit rfl) fun _ _ _ => accumulator
  · exact .fatal

theorem logical (id : NodeId) (n : Node) : Matched H (logical rec id n) (logical rec id n) (Loose H) := by
  refine .bind (acquireValue id) fun res res' hres => .bind (exprAny hrec n.a) fun x x' hx => .bind (move _ _ hx) fun _ _ _ => ?_
  refine .bind .newLabel fun stop stop' h => ?_
  subst h
  refine .bind (.emit rfl) fun _ _ _ => .bind (exprAny hrec n.b) fun y y' hy => .bind (move _ _ hy) fun _ _ _ => ?_
  exact .bind (bindLabel stop) fun _ _ _ => .pure hres.1

omit hrec in
/-- An instruction over two operands, which are given back. -/
theorem consume {i i' : Instr} {l l' r r' : Operand} (h : i'.op = i.op) (hl : Loose H l l') (hr : Loose H r r') :
    Matched H (do Emit.emit i; Emit.free l; Emit.free r; Pure.pure Operand.accumulator)
      (do Emit.emit i'; Emit.free l'; Emit.free r'; Pure.pure Operand.accumulator) (Loose H) :=
  .bind (.emit h) fun _ _ _ => .bind (free hl) fun _ _ _ => .bind (free hr) fun _ _ _ => accumulator

theorem binary (id : NodeId) (n : Node) : Matched H (binary rec id n) (binary rec id n) (Loose H) := by
  unfold Emit.binary
  refine .ite (fun _ => logical hrec id n) fun _ => .look (.binaryCode id n.op n.a n.b) fun op => ?_
  exact .bind (operands2 hrec n.a n.b) fun p p' hp => consume rfl hp.1 hp.2

theorem unary (n : Node) : Matched H (unary rec n) (unary rec n) (Loose H) := by
  unfold Emit.unary
  split
  · refine .look (.valueKind n.a) fun k => .bind (exprAny hrec n.a) fun x x' hx => .bind (.emit rfl) fun _ _ _ => ?_
    exact .bind (free hx) fun _ _ _ => accumulator
  · exact .fatal

omit hrec in
theorem combine (id : NodeId) (n : Node) {v v' : Operand} (hv : Loose H v v') :
    Matched H (combine id n v) (combine id n v') (Loose H) :=
  .look (.binaryCode id n.op n.a n.b) fun _ => .bind (.emit rfl) fun _ _ _ => .bind (free hv) fun _ _ _ => accumulator

theorem assignName (id : NodeId) (n : Node) : Matched H (assignName rec id n) (assignName rec id n) (Loose H) := by
  refine .look (.binding n.a) fun v => .bind (storage v) fun dst dst' h => ?_
  obtain ⟨rfl, hk⟩ := h
  have hdst : Loose H dst' dst' :=
    .plain (by rcases hk with hk | hk <;> rw [hk] <;> nofun) (by rcases hk with hk | hk <;> rw [hk] <;> nofun)
  refine .ite (fun _ => ?_) fun _ => .bind (operands2 hrec n.a n.b) fun p p' hp => ?_
  · exact .bind (exprAny hrec n.b) fun x x' hx => .bind (move _ _ hx) fun _ _ _ => .pure hdst
  · refine .look (.binaryCode id n.op n.a n.b) fun op => .bind (.emit rfl) fun _ _ _ => ?_
    refine .bind (free hp.1) fun _ _ _ => .bind (free hp.2) fun _ _ _ => ?_
    exact .bind (move _ _ (.plain (by nofun) (by nofun))) fun _ _ _ => .pure hdst

theorem assignElement (id : NodeId) (n tn : Node) :
    Matched H (assignElement rec id n tn) (assignElement rec id n tn) (Loose H) := by
  refine .bind (operands3 hrec tn.a tn.b n.b) fun p p' hp => ?_
  obtain ⟨x, k, v⟩ := p
  obtain ⟨x', k', v'⟩ := p'
  obtain ⟨hx, hk, hv⟩ := hp
  refine .ite (fun _ => ?_) fun _ => ?_
  · exact .bind (.emit rfl) fun _ _ _ => .bind (free hx) fun _ _ _ => .bind (free hk) fun _ _ _ => .pure hv
  · refine .look (.node tn.a) fun _ => .bind (stable hx _ id) fun x x' hx => ?_
    refine .look (.node tn.b) fun _ => .bind (stable hk _ id) fun k k' hk => ?_
    refine .look (.node n.b) fun _ => .bind (stable hv _ id) fun v v' hv => ?_
    refine .bind (.emit rfl) fun _ _ _ => .bind (combine id n hv) fun r r' hr => .bind (.emit rfl) fun _ _ _ => ?_
    exact .bind (free hx) fun _ _ _ => .bind (free hk) fun _ _ _ => .pure hr

theorem assignMember (id : NodeId) (n tn : Node) :
    Matched H (assignMember rec id n tn) (assignMember rec id n tn) (Loose H) := by
  refine .bind (operands2 hrec tn.a n.b) fun p p' hp => ?_
  obtain ⟨x, v⟩ := p
  obtain ⟨x', v'⟩ := p'
  obtain ⟨hx, hv⟩ := hp
  refine .bind (fieldOperand n.a tn) fun _ _ _ => .ite (fun _ => ?_) fun _ => ?_
  · exact .bind (.emit rfl) fun _ _ _ => .bind (free hx) fun _ _ _ => .pure hv
  · refine .look (.node tn.a) fun _ => .bind (stable hx _ id) fun x x' hx => ?_
    refine .look (.node n.b) fun _ => .bind (stable hv _ id) fun v v' hv => ?_
    refine .bind (.emit rfl) fun _ _ _ => .bind (combine id n hv) fun r r' hr => .bind (.emit rfl) fun _ _ _ => ?_
    exact .bind (free hx) fun _ _ _ => .pure hr

theorem assign (id : NodeId) (n : Node) : Matched H (assign rec id n) (assign rec id n) (Loose H) := by
  refine .look (.node n.a) fun tn => ?_
  split
  · exact assignName hrec id n
  · exact assignElement hrec id n tn
  · exact assignMember hrec id n tn
  · exact .fatal

theorem makeStruct (at' : NodeId) (t : TypeId) (given : List (String × NodeId)) :
    Matched H (makeStruct rec at' t given) (makeStruct rec at' t given) (Loose H) := by
  refine .look (.typeInfo t) fun ty => .look (.fieldDefaults t) fun defaults => .bind (.forIn _ fun p _ => ?_) fun _ _ _ => ?_
  · obtain ⟨f, i⟩ := p
    dsimp only
    split
    · exact .bind (push hrec _) fun _ _ _ => .pure rfl
    · exact .bind (hrec.zero H at' f.type) fun o o' ho => .bind (pushOperand ho) fun _ _ _ => .pure rfl
    · exact .bind (push hrec _) fun _ _ _ => .pure rfl
  · exact .bind (typeRef t) fun _ _ _ => .bind (.emit rfl) fun _ _ _ => accumulator

theorem zeroStep (at' : NodeId) (t : TypeId) : Matched H (zeroStep rec at' t) (zeroStep rec at' t) (Loose H) := by
  refine .look (.typeInfo t) fun ty => ?_
  split
  · exact plain nofun nofun
  · exact plain nofun nofun
  · exact textRef ""
  · exact .bind (.emit rfl) fun _ _ _ => accumulator
  · exact .bind (.emit rfl) fun _ _ _ => accumulator
  · refine .bind (.forM _ fun e _ => ?_) fun _ _ _ => .bind (.emit rfl) fun _ _ _ => accumulator
    exact .bind (hrec.zero H at' e) fun _ _ h => pushOperand h
  · exact makeStruct hrec at' t []
  · exact plain nofun nofun

theorem cast (id : NodeId) (n : Node) : Matched H (cast rec id n) (cast rec id n) (Loose H) := by
  refine .bind (exprAny hrec n.a) fun v v' hv => .look (.valueKind n.a) fun source => .look (.typeKind _) fun target => ?_
  refine .ite (fun _ => .pure hv) fun _ => .ite (fun _ => .fatal) fun _ => ?_
  exact .bind (.emit rfl) fun _ _ _ => .bind (free hv) fun _ _ _ => accumulator

theorem pushArg (arg : NodeId) : Matched H (pushArg rec arg) (pushArg rec arg) Eq := by
  refine .look (.node arg) fun an => .ite (fun _ => .bind (push hrec arg) fun _ _ _ => .pure rfl) fun _ => ?_
  refine .bind (.note _) fun _ _ _ => .bind (exprAny hrec an.a) fun v v' hv => .bind (.emit rfl) fun _ _ _ => ?_
  exact .bind (free hv) fun _ _ _ => .pure rfl

theorem pushArgs (n : Node) (method : Bool) : Matched H (pushArgs rec n method) (pushArgs rec n method) Eq := by
  have args : ∀ k, Matched H (n.list.reverse.foldlM (fun k arg => do return k + (← Emit.pushArg rec arg)) k)
      (n.list.reverse.foldlM (fun k arg => do return k + (← Emit.pushArg rec arg)) k) Eq :=
    .foldlM _ fun k arg _ => .bind (pushArg hrec arg) fun _ _ h => .pure (by rw [h])
  refine .bind (args 0) fun fixed fixed' h => ?_
  subst h
  refine .ite (fun _ => .pure rfl) fun _ => ?_
  exact .look (.node n.a) fun an => .bind (push hrec an.a) fun _ _ _ => .pure rfl

theorem makeVariant (id : NodeId) (n : Node) (target : SymbolId) :
    Matched H (makeVariant rec id n target) (makeVariant rec id n target) (Loose H) := by
  refine .look (.symbol target) fun sym => .bind (pushAll hrec n.list) fun _ _ _ => .bind (typeRef _) fun _ _ _ => ?_
  exact .bind (.emit rfl) fun _ _ _ => .look (.isResolved _) fun r => .ite (fun _ => .fatal) fun _ => accumulator

theorem calleeOperand (id : NodeId) (n : Node) (info : CallInfo) : Matched H (calleeOperand rec id n info)
    (calleeOperand rec id n info) fun p p' => p'.1 = p.1 ∧ Loose H p.2 p'.2 := by
  unfold Emit.calleeOperand
  split
  · refine .bind (funcRef _) fun i i' h => .pure ⟨rfl, ?_⟩
    subst h
    exact .plain (by nofun) (by nofun)
  · refine .bind (nativeRef _) fun i i' h => .pure ⟨rfl, ?_⟩
    subst h
    exact .plain (by nofun) (by nofun)
  · refine .bind (exprAny hrec n.a) fun v v' hv => .look (.node n.a) fun an => .bind (stable hv _ id) fun o o' ho => ?_
    exact .pure ⟨rfl, ho⟩

theorem call (id : NodeId) (n : Node) : Matched H (call rec id n) (call rec id n) (Loose H) := by
  refine .look .unit fun u => ?_
  split
  · rename_i info _
    refine .ite (fun _ => makeVariant hrec id n info.target) fun _ => ?_
    refine .bind (calleeOperand hrec id n info) fun p p' hp => .look .unit fun u => ?_
    obtain ⟨op, callee⟩ := p
    obtain ⟨op', callee'⟩ := p'
    obtain ⟨rfl, hcallee⟩ := hp
    refine .bind (beginSpread _) fun saved saved' h => ?_
    subst h
    refine .bind (pushArgs hrec n info.method) fun fixed fixed' h => ?_
    subst h
    refine .bind (endSpread _) fun _ _ _ => .bind (free hcallee) fun _ _ _ => ?_
    refine .bind (invoke _ _ _ fixed) fun _ _ _ => .bind (restoreSpread saved) fun _ _ _ => .look (.typeKind _) fun k => ?_
    split
    · exact plain nofun nofun
    · exact plain nofun nofun
  · exact .fatal

theorem value (id : NodeId) (n : Node) : Matched H (value rec id n) (value rec id n) (Loose H) := by
  unfold Emit.value
  split
  case h_3 => exact textRef n.text
  case h_6 => exact name id n
  case h_7 => exact binary hrec id n
  case h_8 => exact unary hrec n
  case h_9 => exact assign hrec id n
  case h_10 => exact call hrec id n
  case h_11 => exact .bind (operands2 hrec n.a n.b) fun p p' hp => consume rfl hp.1 hp.2
  case h_12 =>
    refine .bind (exprAny hrec n.a) fun x x' hx => .bind (fieldOperand id n) fun _ _ _ => .bind (.emit rfl) fun _ _ _ => ?_
    exact .bind (free hx) fun _ _ _ => accumulator
  case h_13 => exact .bind (pushAll hrec n.list) fun _ _ _ => .bind (.emit rfl) fun _ _ _ => accumulator
  case h_14 =>
    refine .bind (.forM _ fun p _ => .look (.node p) fun pn => ?_) fun _ _ _ => .bind (.emit rfl) fun _ _ _ => accumulator
    exact .bind (push hrec pn.a) fun _ _ _ => push hrec pn.b
  case h_15 => exact .bind (pushAll hrec n.list) fun _ _ _ => .bind (.emit rfl) fun _ _ _ => accumulator
  case h_16 => exact .look (.givenFields n.list) fun given => makeStruct hrec id n.valueType given
  case h_17 => exact cast hrec id n
  case h_18 => exact literal id
  case h_19 => exact .fatal
  all_goals exact plain nofun nofun

end Matched

/-! ### Forced results -/

/-- The value of an expression before it is moved to a register, with its node. -/
def unforced (rec : Emitter) (id : NodeId) : EmitM (Operand × Node) := do
  let n ← node id
  if !n.completed || !(← isResolved n.valueType) then return ← fatal id (.unresolved n.kind.name)
  note n.span
  return (← value rec id n, n)

theorem exprStep_eq (rec : Emitter) (id : NodeId) (forced : Bool) : exprStep rec id forced = (do
    let p ← unforced rec id
    if forced then toRegister p.1 p.2.valueType id else return p.1) := by
  simp only [exprStep, unforced, bind_assoc]
  congr 1
  funext n
  congr 1
  funext r
  split
  · rfl
  · simp only [bind_assoc, pure_bind]

theorem Matched.unforced (hrec : Lenient rec) (id : NodeId) : Matched H (unforced rec id) (unforced rec id)
    fun p p' => Loose H p.1 p'.1 ∧ p'.2 = p.2 := by
  refine .look (.node id) fun n => .look (.isResolved _) fun r => .ite (fun _ => .fatal) fun _ => ?_
  exact .bind (.note _) fun _ _ _ => .bind (.value hrec id n) fun o o' h => .pure ⟨h, rfl⟩

theorem Matched.exprStep (hrec : Lenient rec) (id : NodeId) (forced : Bool) :
    Matched H (exprStep rec id forced) (exprStep rec id forced) (Loose H) := by
  rw [exprStep_eq]
  refine .bind (.unforced hrec id) fun p p' hp => ?_
  rw [hp.2]
  exact .ite (fun _ => (toRegister hp.1 _ id).mono fun _ _ h => h.1) fun _ => .pure hp.1

/-- A register is taken from the pool of its kind. -/
theorem fresh_ok {ty : TypeId} {id : NodeId} {s s' : EmitState} {r : Operand} (h : fresh ty id s = .ok r s') :
    (∃ values, s.values.acquire? = some (r, values) ∧ s' = { s with values }) ∨
      ∃ refs, s.refs.acquire? = some (r, refs) ∧ s' = { s with refs } := by
  obtain ⟨v, s₁, hv, hacquire⟩ := bind_ok h
  have hs₁ : s₁ = s := by
    have hstay : isValue ty s = .ok v s := (Consults.isValue ty).ok rfl hv
    cases hv.symm.trans hstay
    rfl
  subst hs₁
  cases v
  · exact .inr (acquireRef_ok hacquire)
  · exact .inl (acquireValue_ok hacquire)

/-- Only the first side copies its value, and there is a register to spare. -/
theorem Abreast.behind {s t s' : EmitState} {ty : TypeId} {id : NodeId} {x r : Operand} (h : Abreast H s t)
    (hx : x.isVariable = true) (hspare : s.load + 1 ≤ t.load) (hr : toRegister x ty id s = .ok r s') : Abreast H s' t := by
  have hkind : x.kind = .global ∨ x.kind = .stack := by simpa [Operand.isVariable] using hx
  rw [toRegister_of_other ty id (by rcases hkind with h | h <;> rw [h] <;> rintro ⟨⟩)
    (by rcases hkind with h | h <;> rw [h] <;> rintro ⟨⟩) (by rcases hkind with h | h <;> rw [h] <;> rintro ⟨⟩)] at hr
  obtain ⟨r₁, s₁, hfresh, hcopy⟩ := bind_ok hr
  cases hcopy
  obtain ⟨y, rfl, hy⟩ := h
  have hload : s.values.load + s.refs.load + 1 ≤ y.values.load + y.refs.load := hspare
  rcases fresh_ok hfresh with ⟨values, hp, rfl⟩ | ⟨refs, hp, rfl⟩
  · have hnew : values.load = s.values.load + 1 := Pool.load_acquire hp
    refine ⟨y, rfl, { hy with values := (hy.values.acquire hp).1, load := ?_ }⟩
    change values.load + s.refs.load ≤ y.values.load + y.refs.load
    omega
  · have hnew : refs.load = s.refs.load + 1 := Pool.load_acquire hp
    refine ⟨y, rfl, { hy with refs := (hy.refs.acquire hp).1, load := ?_ }⟩
    change s.values.load + refs.load ≤ y.values.load + y.refs.load
    omega

theorem evaluate_abreast (hrec : Lenient rec) {id : NodeId} {forced forced' later : Bool} {s t s' t' : EmitState}
    {e e' : Evaluated} (hf : forced = true → forced' = true) (hs : Abreast H s t) (h : evaluate rec id forced later s = .ok e s')
    (h' : evaluate rec id forced' later t = .ok e' t') : Abreast H s' t' := by
  by_cases heq : forced = forced'
  · subst heq
    exact (Matched.evaluate hrec id forced later s t e e' s' t' hs h h').1
  obtain ⟨rfl, rfl⟩ : forced = false ∧ forced' = true := by
    cases forced <;> cases forced' <;> simp_all
  unfold evaluate at h h'
  obtain ⟨o, s₁, ho, h⟩ := bind_ok h
  obtain ⟨o', t₁, ho', h'⟩ := bind_ok h'
  obtain ⟨hs₁, hscratch, hspare⟩ := hrec.forced H id s t o o' s₁ t₁ hs ho ho'
  rw [not_variable_of_scratch hscratch, Bool.and_false, if_neg Bool.false_ne_true] at h'
  cases h'
  split at h
  · rename_i hvar
    have hvar : o.isVariable = true := (Bool.and_eq_true_iff.1 hvar).2
    obtain ⟨n, s₂, hn, h⟩ := bind_ok h
    obtain ⟨r, s₃, hr, h⟩ := bind_ok h
    cases h
    cases hn.symm.trans ((Consults.node id).ok rfl hn)
    refine hs₁.behind hvar (hspare ?_) hr
    refine Bool.eq_false_iff.2 fun hx => ?_
    rw [not_variable_of_scratch hx] at hvar
    cases hvar
  · cases h
    exact hs₁

/-- What is forced in the first set is forced in the second. -/
def ForcesMore (forced forced' : List Bool) : Prop := List.Forall₂ (fun f f' => f = true → f' = true) forced forced'

theorem evaluateAll_abreast (hrec : Lenient rec) {ids : List NodeId} {storing forced forced' : List Bool} {s t s' t' : EmitState}
    {es es' : List Evaluated} (hf : ForcesMore forced forced') (hs : Abreast H s t)
    (h : evaluateAll rec (ids.zip (forced.zip storing)) s = .ok es s')
    (h' : evaluateAll rec (ids.zip (forced'.zip storing)) t = .ok es' t') : Abreast H s' t' := by
  induction ids generalizing forced forced' storing s t es es' with
  | nil =>
    cases h
    cases h'
    exact hs
  | cons id ids ih =>
    cases hf with
    | nil =>
      cases h
      cases h'
      exact hs
    | cons hfirst hrest =>
      cases storing with
      | nil =>
        cases h
        cases h'
        exact hs
      | cons st storing =>
        obtain ⟨e, s₁, he, h⟩ := bind_ok h
        obtain ⟨e', t₁, he', h'⟩ := bind_ok h'
        obtain ⟨es, s₂, hes, h⟩ := bind_ok h
        obtain ⟨es', t₂, hes', h'⟩ := bind_ok h'
        cases h
        cases h'
        exact ih hrest (evaluate_abreast hrec hfirst hs he he') hes hes'

end Emit

end TreeCompiler
