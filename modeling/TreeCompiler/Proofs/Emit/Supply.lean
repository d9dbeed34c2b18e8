import TreeCompiler.Proofs.Emit.Defaults
import TreeCompiler.Proofs.Emit.Describe
import TreeCompiler.Proofs.Types.Acceptance

/-!
# Operands that are there

A call of type void leaves an empty operand. Where the call is a statement this operand is dropped, and a return may carry it;
everywhere else an instruction reads it. Analysis refuses a value of type void where a type is wanted, unless that is void
or dynamic.

* `Instr.reads` : the operands that an instruction reads as values;
* `AnalysisResult.consumes` : the expressions whose values a place reads;
* `Feeds u m Q` : the computation `m` emits no instruction that reads an empty operand;
* `Analysis.coerce_void` : what becomes of a value of type void that a place takes;
* `values_supplied` : a program whose code consumes no expression of type void reads no empty operand.
-/

namespace TreeCompiler

/-! ## What is read -/

def Opcode.isBinary (o : Opcode) : Bool := add.number ≤ o.number && o.number ≤ geText.number

def Opcode.isUnary (o : Opcode) : Bool := neg.number ≤ o.number && o.number ≤ cast.number

/-- The operands that an instruction reads as values. A return also has an operand, which may be empty. -/
def Instr.reads (i : Instr) : List Operand :=
  match i.op with
  | .mov => [i.b]
  | .push | .unpack | .callValue | .jumpIf | .jumpUnless | .tag | .payload | .iterate | .iterNext | .iterKey | .iterValue =>
    [i.a]
  | .index | .field => [i.a, i.b]
  | .setIndex | .setField => [i.a, i.b, i.c]
  | o => if o.isBinary then [i.a, i.b] else if o.isUnary then [i.a] else []

def Operand.IsPresent (o : Operand) : Prop := o.kind ≠ .none

/-- Every operand that the instruction reads is there. -/
def Instr.IsFed (i : Instr) : Prop := ∀ o ∈ i.reads, o.IsPresent

theorem Operand.present {k : OperandKind} {v : Int} (h : k ≠ .none) : IsPresent { kind := k, val := v } := h

theorem Operand.accumulator_present : accumulator.IsPresent := present (by decide)

theorem Operand.present_of {o : Operand} {k : OperandKind} (h : o.kind = k) (hk : k ≠ .none) : o.IsPresent := by
  rw [IsPresent, h]
  exact hk

namespace Instr

variable {i : Instr} {x y z : Operand}

theorem fed_none (h : i.reads = []) : i.IsFed := by
  rw [IsFed, h]
  exact List.forall_mem_nil _

theorem fed_one (h : i.reads = [x]) (hx : x.IsPresent) : i.IsFed := by
  rw [IsFed, h]
  exact List.forall_mem_singleton.2 hx

theorem fed_two (h : i.reads = [x, y]) (hx : x.IsPresent) (hy : y.IsPresent) : i.IsFed := by
  rw [IsFed, h]
  exact List.forall_mem_cons.2 ⟨hx, List.forall_mem_singleton.2 hy⟩

theorem fed_three (h : i.reads = [x, y, z]) (hx : x.IsPresent) (hy : y.IsPresent) (hz : z.IsPresent) : i.IsFed := by
  rw [IsFed, h]
  exact List.forall_mem_cons.2 ⟨hx, List.forall_mem_cons.2 ⟨hy, List.forall_mem_singleton.2 hz⟩⟩

theorem reads_of_binary (h : i.op.isBinary = true) : i.reads = [i.a, i.b] := by
  unfold reads
  split
  all_goals rename_i hop
  all_goals first
    | exact if_pos h
    | exact absurd (hop ▸ h) (by decide)

theorem reads_of_unary (h : i.op.isUnary = true) (hb : i.op.isBinary = false) : i.reads = [i.a] := by
  unfold reads
  split
  all_goals rename_i hop
  all_goals first
    | exact absurd (hop ▸ h) (by decide)
    | rw [if_neg (by rw [hb]; decide), if_pos h]

end Instr

namespace AnalysisResult

variable (u : AnalysisResult)

/-- An expression of type void. -/
def IsVoid (id : NodeId) : Prop := ∃ n, u.tree.get? id = some n ∧ u.types.kind n.valueType = .void

instance (id : NodeId) : Decidable (u.IsVoid id) :=
  decidable_of_iff (∃ n ∈ (u.tree.get? id).toList, u.types.kind n.valueType = .void) (by simp [IsVoid])

end AnalysisResult

def Place.expr? : Place → Option NodeId
  | .expr id => some id
  | _ => none

namespace AnalysisResult

variable (u : AnalysisResult)

/-- A statement that drops the value of its expression, and a return, which hands it on. -/
def passesOn (n : Node) : Bool := n.kind.isExpr && n.kind ≠ .func || n.kind = .exprStmt || n.kind = .returnStmt

/-- The expressions whose values the code of a place reads. -/
def consumes (p : Place) : List NodeId :=
  match p with
  | .stmt id => if ((u.tree.get? id).map passesOn).getD false then [] else (u.parts p).filterMap Place.expr?
  | p => (u.parts p).filterMap Place.expr?

/-- The code of a function reads the value of the expression. -/
def Consumes (fn : SymbolId) (e : NodeId) : Prop :=
  (∃ p ∈ u.codeParts fn, ∃ q, u.Reaches p q ∧ e ∈ u.consumes q) ∨
    fn = 0 ∧ ∃ st ∈ u.statics, Place.expr e ∈ u.staticParts st

variable {u}

/-- Places that are closed under their parts bound what a function reads. -/
theorem not_void_of_closed {fn : SymbolId} {l : List Place}
    (hclosed : (∀ p ∈ u.codeParts fn, p ∈ l) ∧ (∀ p ∈ l, ∀ q ∈ u.parts p, q ∈ l) ∧
      (∀ p ∈ l, ∀ e ∈ u.consumes p, ¬u.IsVoid e) ∧
      (fn = 0 → ∀ e ∈ (u.statics.flatMap u.staticParts).filterMap Place.expr?, ¬u.IsVoid e)) :
    ∀ e, u.Consumes fn e → ¬u.IsVoid e := by
  obtain ⟨hcode, hparts, hvoid, hstatic⟩ := hclosed
  rintro e (⟨p, hp, q, hq, he⟩ | ⟨h0, st, hst, he⟩)
  · have hmem : q ∈ l := by
      clear he
      induction hq with
      | refl => exact hcode p hp
      | tail _ hstep ih => exact hparts _ ih _ hstep
    exact hvoid q hmem e he
  · exact hstatic h0 e (List.mem_filterMap.2 ⟨_, List.mem_flatMap.2 ⟨st, hst, he⟩, rfl⟩)

end AnalysisResult

namespace Emit

/-! ## Computations -/

/-- A state of the unit whose code reads no empty operand. -/
structure Fed (u : AnalysisResult) (s : EmitState) : Prop where
  unit : s.unit = u
  values : s.values.kind = .value
  refs : s.refs.kind = .ref
  code : ∀ i ∈ s.asm.code, i.IsFed

def Feeds {α : Type} (u : AnalysisResult) (m : EmitM α) (Q : α → Prop) : Prop :=
  ∀ s a s', Fed u s → m s = .ok a s' → Fed u s' ∧ Q a

variable {u : AnalysisResult} {s s' : EmitState} {α β : Type}

theorem Fed.congr (h : Fed u s) (unit : s'.unit = s.unit) (values : s'.values.kind = s.values.kind)
    (refs : s'.refs.kind = s.refs.kind) (code : s'.asm.code = s.asm.code) : Fed u s' :=
  ⟨unit.trans h.unit, values.trans h.values, refs.trans h.refs, code ▸ h.code⟩

theorem Fed.quiet (h : Fed u s) (hq : Quiet s s') : Fed u s' :=
  h.congr hq.unit (by rw [hq.values]) (by rw [hq.refs]) hq.code

theorem Fed.push (h : Fed u s) {i : Instr} (hi : i.IsFed) (unit : s'.unit = s.unit) (values : s'.values = s.values)
    (refs : s'.refs = s.refs) (code : s'.asm.code = s.asm.code.push i) : Fed u s' := by
  refine ⟨unit.trans h.unit, by rw [values, h.values], by rw [refs, h.refs], fun j hj => ?_⟩
  rw [code, Array.mem_push] at hj
  rcases hj with hj | rfl
  · exact h.code j hj
  · exact hi

theorem Fed.over (h : Fed u s) : Over (Guards.anywhere u s.frame.captures s.asm.labels.size) s :=
  ⟨h.unit, rfl, Nat.le_refl _, h.values, h.refs⟩

/-- A rewind gives back the pools of its mark and drops code. -/
theorem Fed.rewind {m : Mark} {a : Unit} {s₁ s₂ : EmitState} (h : Fed u s) (h₁ : Fed u s₁) (hm : mark s = .ok m s)
    (hr : rewind m s₁ = .ok a s₂) : Fed u s₂ := by
  cases hm
  cases hr
  refine ⟨h₁.unit, h.values, h.refs, fun i hi => h₁.code i ?_⟩
  simp only [Assembler.rewind, Array.take_eq_extract, ← Array.mem_toList_iff, Array.toList_extract,
    List.extract_eq_take_drop] at hi
  exact Array.mem_toList_iff.1 (List.mem_of_mem_drop (List.mem_of_mem_take hi))

namespace Feeds

theorem bind {x : EmitM α} {f : α → EmitM β} {P : α → Prop} {Q : β → Prop} (hx : Feeds u x P)
    (hf : ∀ a, P a → Feeds u (f a) Q) : Feeds u (x >>= f) Q := by
  intro s c s' hs h
  obtain ⟨a, s₁, hxs, hfs⟩ := bind_ok h
  obtain ⟨hs₁, ha⟩ := hx s a s₁ hs hxs
  exact hf a ha s₁ c s' hs₁ hfs

theorem pure {a : α} {Q : α → Prop} (h : Q a) : Feeds u (pure a) Q := by
  intro s c s' hs hm
  cases hm
  exact ⟨hs, h⟩

theorem throw {e : EmitFailure} {Q : α → Prop} : Feeds u (throw e : EmitM α) Q := by
  intro s c s' _ h
  cases h

theorem fatal {id : NodeId} {cause : EmitCause} {Q : α → Prop} : Feeds u (fatal id cause : EmitM α) Q := throw

theorem mono {m : EmitM α} {P Q : α → Prop} (h : Feeds u m P) (hPQ : ∀ a, P a → Q a) : Feeds u m Q :=
  fun s a s' hs hm => ⟨(h s a s' hs hm).1, hPQ a (h s a s' hs hm).2⟩

theorem ite {c : Prop} [Decidable c] {x y : EmitM α} {Q : α → Prop} (hx : c → Feeds u x Q) (hy : ¬c → Feeds u y Q) :
    Feeds u (if c then x else y) Q := by
  split
  · exact hx ‹_›
  · exact hy ‹_›

theorem get_bind {f : EmitState → EmitM β} {Q : β → Prop} (h : ∀ s, Fed u s → Feeds u (f s) Q) :
    Feeds u (get >>= f) Q := fun s c s' hs hm => h s hs s c s' hs hm

theorem modify {f : EmitState → EmitState} (h : ∀ s, Fed u s → Fed u (f s)) :
    Feeds u (modify f : EmitM Unit) fun _ => True := by
  intro s a s' hs hm
  cases hm
  exact ⟨h s hs, trivial⟩

theorem quiet {m : EmitM α} (h : IsQuiet m) : Feeds u m fun _ => True :=
  fun s a s' hs hm => ⟨hs.quiet (h s a s' hm), trivial⟩

/-- A lookup finds what it finds in any setting. -/
theorem look {m : EmitM α} {Q : α → Prop} (h : IsQuiet m)
    (hm : ∀ captures base, Emits (Guards.anywhere u captures base) m Q) : Feeds u m Q :=
  fun s a s' hs hrun => ⟨hs.quiet (h s a s' hrun), (hm _ _ s a s' hs.over hrun).2⟩

theorem forM {f : α → EmitM PUnit} (l : List α) (h : ∀ a ∈ l, Feeds u (f a) fun _ => True) :
    Feeds u (l.forM f) fun _ => True := by
  induction l with
  | nil => exact .pure trivial
  | cons a l ih =>
    exact .bind (h a (List.mem_cons_self ..)) fun _ _ => ih fun x hx => h x (List.mem_cons_of_mem _ hx)

theorem mapM {f : α → EmitM β} {Q : β → Prop} (l : List α) (h : ∀ a ∈ l, Feeds u (f a) Q) :
    Feeds u (l.mapM f) fun bs => ∀ b ∈ bs, Q b := by
  induction l with
  | nil => exact .pure (List.forall_mem_nil _)
  | cons a l ih =>
    rw [List.mapM_cons]
    refine .bind (h a (List.mem_cons_self ..)) fun b hb => ?_
    exact .bind (ih fun x hx => h x (List.mem_cons_of_mem _ hx)) fun bs hbs => .pure (List.forall_mem_cons.2 ⟨hb, hbs⟩)

theorem foldlM {f : β → α → EmitM β} (l : List α) (h : ∀ c, ∀ a ∈ l, Feeds u (f c a) fun _ => True) :
    ∀ c, Feeds u (l.foldlM f c) fun _ => True := by
  induction l with
  | nil => exact fun c => .pure trivial
  | cons a l ih =>
    exact fun c => .bind (h c a (List.mem_cons_self ..)) fun c' _ => ih (fun c x hx => h c x (List.mem_cons_of_mem _ hx)) c'

theorem forIn {f : α → PUnit → EmitM (ForInStep PUnit)} (l : List α)
    (h : ∀ a ∈ l, Feeds u (f a ⟨⟩) fun _ => True) :
    Feeds u (forIn l PUnit.unit f) fun _ => True := by
  induction l with
  | nil => exact .pure trivial
  | cons a l ih =>
    rw [List.forIn_cons]
    refine .bind (h a (List.mem_cons_self ..)) fun r _ => ?_
    cases r with
    | done _ => exact .pure trivial
    | yield _ => exact ih fun x hx => h x (List.mem_cons_of_mem _ hx)

/-! ### Lookups -/

theorem unit : Feeds u unit fun r => r = u := .look .unit fun _ _ => .unit

theorem node (id : NodeId) : Feeds u (node id) fun n => u.tree.get? id = some n := .look (.node id) fun _ _ => .node id

theorem typeInfo (t : TypeId) : Feeds u (typeInfo t) fun ty => u.types.lookup? t = some ty :=
  .look (.typeInfo t) fun _ _ => .typeInfo t

theorem typeKind (t : TypeId) : Feeds u (typeKind t) fun k => k = u.types.kind t := by
  refine .bind unit fun r hr => .pure ?_
  rw [hr]

theorem kindOf (id : NodeId) : Feeds u (kindOf id) fun k => k = u.tree.kind id := by
  refine .bind unit fun r hr => .pure ?_
  rw [hr]

theorem symbol (id : SymbolId) : Feeds u (symbol id) fun s => u.scopes.symbol? id = some s :=
  .look (.symbol id) fun _ _ => .symbol id

theorem stringRef (text : String) : Feeds u (stringRef text) Operand.IsPresent :=
  (look (.stringRef text) fun _ _ => .stringRef text).mono fun _ ho =>
    Operand.present_of ho (by decide)

theorem present_of_slot {captures : Nat} {st : Storage} {o : Operand} (h : slotOf? captures st = some o) : o.IsPresent := by
  cases st <;> cases h <;> exact Operand.present (by decide)

theorem storage (id : SymbolId) : Feeds u (storage id) Operand.IsPresent :=
  look (.storage id) fun _ _ => (Emits.storage id).mono fun o ho => by
    obtain ⟨sym, -, h⟩ := ho
    exact present_of_slot h

/-! ### Registers and instructions -/

theorem emit {i : Instr} (h : i.IsFed) : Feeds u (emit i) fun _ => True :=
  modify fun _ hs => hs.push h rfl rfl rfl rfl

theorem bindLabel (l : Label) : Feeds u (bindLabel l) fun _ => True := by
  intro s a s' hs h
  obtain ⟨-, -, rfl⟩ := bindLabel_ok h
  exact ⟨hs.congr rfl rfl rfl rfl, trivial⟩

theorem acquireValue (id : NodeId) : Feeds u (acquireValue id) Operand.IsPresent := by
  intro s o s' hs h
  obtain ⟨p, hp, rfl⟩ := acquireValue_ok h
  obtain ⟨i, _, _, rfl, rfl⟩ := Pool.acquire?_eq_some hp
  exact ⟨hs.congr rfl rfl rfl rfl, Operand.present_of hs.values (by decide)⟩

theorem acquireRef (id : NodeId) : Feeds u (acquireRef id) Operand.IsPresent := by
  intro s o s' hs h
  obtain ⟨p, hp, rfl⟩ := acquireRef_ok h
  obtain ⟨i, _, _, rfl, rfl⟩ := Pool.acquire?_eq_some hp
  exact ⟨hs.congr rfl rfl rfl rfl, Operand.present_of hs.refs (by decide)⟩

theorem withValues {step : Pool → Except EmitCause Pool} (h : ∀ p q, step p = .ok q → q.kind = p.kind) :
    Feeds u (withValues step) fun _ => True := by
  intro s a s' hs hm
  obtain ⟨q, hq, rfl⟩ := withValues_ok hm
  exact ⟨hs.congr rfl (h _ _ hq) rfl rfl, trivial⟩

theorem withRefs {step : Pool → Except EmitCause Pool} (h : ∀ p q, step p = .ok q → q.kind = p.kind) :
    Feeds u (withRefs step) fun _ => True := by
  intro s a s' hs hm
  obtain ⟨q, hq, rfl⟩ := withRefs_ok hm
  exact ⟨hs.congr rfl rfl (h _ _ hq) rfl, trivial⟩

theorem free (o : Operand) : Feeds u (free o) fun _ => True := by
  unfold Emit.free
  split
  · exact .withValues fun _ _ => Pool.kind_release
  · exact .withRefs fun _ _ => Pool.kind_release
  · exact .pure trivial

/-- Only what is there gets into a register. -/
theorem toRegister (o : Operand) (t : TypeId) (id : NodeId) : Feeds u (toRegister o t id) Operand.IsPresent := by
  unfold Emit.toRegister
  split
  · exact .pure (Operand.present_of (by assumption) (by decide))
  · exact .pure (Operand.present_of (by assumption) (by decide))
  · exact .fatal
  · rename_i h
    have copy (r : Operand) (hr : r.IsPresent) : Feeds u (do
        Emit.emit { op := .mov, a := r, b := o }
        Pure.pure r) Operand.IsPresent :=
      .bind (.emit (Instr.fed_one rfl h)) fun _ _ => .pure hr
    refine .bind (.quiet (.isValue t)) fun v _ => .ite (fun _ => ?_) fun _ => ?_
    · exact .bind (.acquireValue id) copy
    · exact .bind (.acquireRef id) copy

theorem stable {o : Operand} (ho : o.IsPresent) (t : TypeId) (id : NodeId) : Feeds u (stable o t id) Operand.IsPresent :=
  .ite (fun _ => toRegister o t id) fun _ => .pure ho

theorem move {dst src : Operand} (h : src.IsPresent) : Feeds u (move dst src) fun _ => True := by
  unfold Emit.move
  exact .ite (fun _ => .bind (.emit (Instr.fed_one rfl h)) fun _ _ => free src) fun _ => free src

theorem pushOperand {o : Operand} (h : o.IsPresent) : Feeds u (pushOperand o) fun _ => True :=
  .bind (.emit (Instr.fed_one rfl h)) fun _ _ => free o

theorem spill : Feeds u spill Operand.IsPresent := by
  intro s o s' hs h
  cases h
  exact ⟨hs.congr rfl rfl rfl rfl, Operand.present (by decide)⟩

theorem unspill (n : Nat) : Feeds u (unspill n) fun _ => True := modify fun _ hs => hs.congr rfl rfl rfl rfl

end Feeds

/-! ## Values -/

/-- The emitter feeds the code of a place and leaves its value. -/
def Supplies (u : AnalysisResult) (rec : Emitter) : Place → Prop
  | .expr id => ∀ inRegister, Feeds u (rec.expr id inRegister) Operand.IsPresent
  | .stmt id => Feeds u (rec.stmt id) fun _ => True
  | .zero t => ∀ at', Feeds u (rec.zero at' t) Operand.IsPresent

/-- The emitter feeds the code of a place; its value is there unless it is of type void. -/
def Serves (u : AnalysisResult) (rec : Emitter) : Place → Prop
  | .expr id => ∀ inRegister, Feeds u (rec.expr id inRegister) fun o => ¬u.IsVoid id → o.IsPresent
  | p => Supplies u rec p

variable {rec : Emitter}

namespace Feeds

theorem exprAny {id : NodeId} (h : Supplies u rec (.expr id)) : Feeds u (exprAny rec id) Operand.IsPresent := h false

theorem push {id : NodeId} (h : Supplies u rec (.expr id)) : Feeds u (push rec id) fun _ => True :=
  .bind (exprAny h) fun _ ho => pushOperand ho

theorem pushAll {ids : List NodeId} (h : ∀ id ∈ ids, Supplies u rec (.expr id)) :
    Feeds u (pushAll rec ids) fun _ => True :=
  .forM ids fun id hid => push (h id hid)

theorem evaluate {id : NodeId} (h : Supplies u rec (.expr id)) (forced storesLater : Bool) :
    Feeds u (evaluate rec id forced storesLater) fun e => e.op.IsPresent := by
  have done (op : Operand) (ho : op.IsPresent) : Feeds u (do
      let s ← MonadState.get
      Pure.pure { op, accumulatorWrites := s.accumulatorWrites, returnWrites := s.returnWrites : Evaluated })
      fun e => e.op.IsPresent := .get_bind fun _ _ => .pure ho
  unfold Emit.evaluate
  refine .bind (h forced) fun op ho => .ite (fun _ => ?_) fun _ => .bind (.pure ho) done
  exact .bind (node id) fun n _ => .bind (toRegister op n.valueType id) done

theorem evaluateAll {items : List (NodeId × Bool × Bool)} (h : ∀ x ∈ items, Supplies u rec (.expr x.1)) :
    Feeds u (evaluateAll rec items) fun es => ∀ e ∈ es, e.op.IsPresent := by
  induction items with
  | nil => exact .pure (List.forall_mem_nil _)
  | cons x rest ih =>
    refine .bind (evaluate (h x (List.mem_cons_self ..)) _ _) fun e he => ?_
    refine .bind (ih fun y hy => h y (List.mem_cons_of_mem _ hy)) fun es hes => .pure ?_
    exact List.forall_mem_cons.2 ⟨he, hes⟩

theorem operandsAux {ids : List NodeId} (h : ∀ id ∈ ids, Supplies u rec (.expr id)) (storing : List Bool) (fuel : Nat) :
    ∀ forced, Feeds u (operandsAux rec ids storing fuel forced) fun os => ∀ o ∈ os, o.IsPresent := by
  induction fuel with
  | zero => exact fun _ => .throw
  | succ fuel ih =>
    intro forced s os s' hs hrun
    obtain ⟨m, s₀, hm, hrun₁⟩ := bind_ok hrun
    have hs₀ : s₀ = s := by cases hm; rfl
    subst hs₀
    obtain ⟨values, s₁, hv, hrun₂⟩ := bind_ok hrun₁
    obtain ⟨h₁, hvalues⟩ := evaluateAll (fun x hx => h x.1 (List.of_mem_zip hx).1) _ _ _ hs hv
    obtain ⟨s₂, _, hget, hrun₃⟩ := bind_ok hrun₂
    cases hget
    dsimp only at hrun₃
    by_cases hstale : (values.dropLast.map (·.isStale s₁)).any id = true
    · rw [if_pos hstale] at hrun₃
      obtain ⟨_, s₂, hr, hrun₄⟩ := bind_ok hrun₃
      exact ih _ _ _ _ (hs.rewind h₁ hm hr) hrun₄
    · rw [if_neg hstale] at hrun₃
      cases hrun₃
      refine ⟨h₁, fun o ho => ?_⟩
      obtain ⟨e, he, rfl⟩ := List.mem_map.1 ho
      exact hvalues e he

theorem operands {ids : List NodeId} (h : ∀ id ∈ ids, Supplies u rec (.expr id)) :
    Feeds u (operands rec ids) fun os => ∀ o ∈ os, o.IsPresent :=
  .bind (.quiet (Guards.storesAfter_quiet ids)) fun _ _ => operandsAux h _ _ _

theorem operands2 {x y : NodeId} (hx : Supplies u rec (.expr x)) (hy : Supplies u rec (.expr y)) :
    Feeds u (operands2 rec x y) fun p => p.1.IsPresent ∧ p.2.IsPresent := by
  refine .bind (operands (show ∀ id ∈ [x, y], Supplies u rec (.expr id) by simp [hx, hy])) fun os hos => ?_
  split
  · exact .pure ⟨hos _ (by simp), hos _ (by simp)⟩
  · exact .throw

theorem operands3 {x y z : NodeId} (hx : Supplies u rec (.expr x)) (hy : Supplies u rec (.expr y))
    (hz : Supplies u rec (.expr z)) :
    Feeds u (operands3 rec x y z) fun p => p.1.IsPresent ∧ p.2.1.IsPresent ∧ p.2.2.IsPresent := by
  refine .bind (operands (show ∀ id ∈ [x, y, z], Supplies u rec (.expr id) by simp [hx, hy, hz])) fun os hos => ?_
  split
  · exact .pure ⟨hos _ (by simp), hos _ (by simp), hos _ (by simp)⟩
  · exact .throw

/-! ### Operators -/

theorem isBinary_of_binaryCode? {op : Operator} {code : Opcode} (h : binaryCode? op = some code) :
    code.isBinary = true ∧ ∀ p, (specializeFor code p).isBinary = true := by
  cases op <;> cases h <;> refine ⟨rfl, fun p => ?_⟩ <;> rcases p with _ | _ | _ | _ <;> rfl

theorem isUnary_of_unaryCode? {op : Operator} {code : Opcode} (h : unaryCode? op = some code) (p : Option Prim) :
    (specializeFor code p).isUnary = true ∧ (specializeFor code p).isBinary = false := by
  cases op <;> cases h <;> rcases p with _ | _ | _ | _ <;> exact ⟨rfl, rfl⟩

theorem binaryCode (at' : NodeId) (op : Operator) (l r : NodeId) :
    Feeds u (binaryCode at' op l r) fun code => code.isBinary = true := by
  unfold Emit.binaryCode
  split
  · exact .fatal
  · rename_i code hcode
    have hbinary := isBinary_of_binaryCode? hcode
    refine .bind (.quiet (.valueKind l)) fun lk _ => .bind (.quiet (.valueKind r)) fun rk _ => ?_
    exact .ite (fun _ => .pure hbinary.1) fun _ => .pure (hbinary.2 _)

theorem fed_binary {op : Opcode} {x y : Operand} (h : op.isBinary = true) (hx : x.IsPresent) (hy : y.IsPresent) :
    ({ op, a := x, b := y } : Instr).IsFed := Instr.fed_two (Instr.reads_of_binary h) hx hy

theorem accumulator : Feeds u (Pure.pure Operand.accumulator) Operand.IsPresent := .pure Operand.accumulator_present

/-- The operands are given back after they were read. -/
theorem consume {x y : Operand} : Feeds u (do
    Emit.free x
    Emit.free y
    Pure.pure Operand.accumulator) Operand.IsPresent :=
  .bind (free x) fun _ _ => .bind (free y) fun _ _ => accumulator

theorem logical {id : NodeId} {n : Node} (ha : Supplies u rec (.expr n.a)) (hb : Supplies u rec (.expr n.b)) :
    Feeds u (logical rec id n) Operand.IsPresent := by
  refine .bind (acquireValue id) fun res hres => .bind (exprAny ha) fun x hx => .bind (move hx) fun _ _ => ?_
  refine .bind (.quiet .newLabel) fun stop _ => .bind (.emit ?_) fun _ _ => ?_
  · by_cases hor : n.op = .or
    · rw [if_pos hor]
      exact Instr.fed_one rfl hres
    · rw [if_neg hor]
      exact Instr.fed_one rfl hres
  · exact .bind (exprAny hb) fun y hy => .bind (move hy) fun _ _ => .bind (bindLabel stop) fun _ _ => .pure hres

theorem binary {id : NodeId} {n : Node} (ha : Supplies u rec (.expr n.a)) (hb : Supplies u rec (.expr n.b)) :
    Feeds u (binary rec id n) Operand.IsPresent := by
  unfold Emit.binary
  refine .ite (fun _ => logical ha hb) fun _ => .bind (binaryCode id n.op n.a n.b) fun op hop => ?_
  exact .bind (operands2 ha hb) fun p hp => .bind (.emit (fed_binary hop hp.1 hp.2)) fun _ _ => consume

theorem unary {n : Node} (ha : Supplies u rec (.expr n.a)) : Feeds u (unary rec n) Operand.IsPresent := by
  unfold Emit.unary
  split
  · rename_i code hcode
    refine .bind (.quiet (.valueKind n.a)) fun k _ => .bind (exprAny ha) fun x hx => ?_
    have hunary := isUnary_of_unaryCode? hcode (primOf? k)
    refine .bind (.emit ?_) fun _ _ => .bind (free x) fun _ _ => accumulator
    exact Instr.fed_one (Instr.reads_of_unary hunary.1 hunary.2) hx
  · exact .fatal

/-! ### Names -/

theorem name (id : NodeId) (n : Node) : Feeds u (name id n) Operand.IsPresent := by
  refine .bind (.quiet (.binding id)) fun v _ => .bind (.quiet (.symbol v)) fun sym _ => ?_
  split
  · exact storage v
  · refine .ite (fun _ => ?_) fun _ => ?_
    · exact .bind (.quiet (.nativeRef v)) fun _ _ => .pure (Operand.present (by decide))
    · exact .bind (.quiet (.funcRef v)) fun _ _ => .pure (Operand.present (by decide))
  · exact .bind (.quiet (.typeRef _)) fun t _ => .bind (.emit (Instr.fed_none rfl)) fun _ _ => accumulator
  · exact .fatal

theorem fieldOperand (id : NodeId) (n : Node) : Feeds u (fieldOperand id n) Operand.IsPresent := by
  refine .bind unit fun r _ => ?_
  split
  · exact .pure (Operand.present (by decide))
  · exact stringRef n.name

theorem literal (id : NodeId) : Feeds u (literal id) Operand.IsPresent := by
  refine .bind unit fun r _ => ?_
  split
  · refine .bind (.quiet (.funcRef _)) fun index _ => .bind (.quiet (.funcScope _)) fun sc _ => ?_
    refine .ite (fun _ => .pure (Operand.present (by decide))) fun _ => .bind (.forM _ fun p _ => ?_) fun _ _ =>
      .bind (.emit (Instr.fed_none rfl)) fun _ _ => accumulator
    exact .bind (storage p.1) fun o ho => .emit (Instr.fed_one rfl ho)
  · exact .fatal

/-! ### Assignments -/

theorem combine {id : NodeId} {n : Node} {value : Operand} (h : value.IsPresent) :
    Feeds u (combine id n value) Operand.IsPresent := by
  refine .bind (binaryCode id n.op n.a n.b) fun op hop => ?_
  refine .bind (.emit (fed_binary hop Operand.accumulator_present h)) fun _ _ => ?_
  exact .bind (free value) fun _ _ => accumulator

theorem assignName {id : NodeId} {n : Node} (ha : n.op ≠ .none → Supplies u rec (.expr n.a))
    (hb : Supplies u rec (.expr n.b)) : Feeds u (assignName rec id n) Operand.IsPresent := by
  refine .bind (.quiet (.binding n.a)) fun v _ => .bind (storage v) fun dst hdst => .ite (fun _ => ?_) fun hop => ?_
  · exact .bind (exprAny hb) fun x hx => .bind (move hx) fun _ _ => .pure hdst
  · refine .bind (operands2 (ha hop) hb) fun p hp => .bind (binaryCode id n.op n.a n.b) fun op hbin => ?_
    refine .bind (.emit (fed_binary hbin hp.1 hp.2)) fun _ _ => .bind (free p.1) fun _ _ => .bind (free p.2) fun _ _ => ?_
    exact .bind (move Operand.accumulator_present) fun _ _ => .pure hdst

theorem assignElement {id : NodeId} {n tn : Node} (hx : Supplies u rec (.expr tn.a)) (hk : Supplies u rec (.expr tn.b))
    (hv : Supplies u rec (.expr n.b)) : Feeds u (assignElement rec id n tn) Operand.IsPresent := by
  refine .bind (operands3 hx hk hv) fun p hp => ?_
  obtain ⟨x, k, v⟩ := p
  obtain ⟨hx, hk, hv⟩ := hp
  refine .ite (fun _ => ?_) fun _ => ?_
  · refine .bind (.emit (Instr.fed_three rfl hx hk hv)) fun _ _ => ?_
    exact .bind (free x) fun _ _ => .bind (free k) fun _ _ => .pure hv
  · refine .bind (node tn.a) fun xn _ => .bind (stable hx xn.valueType id) fun x hx => ?_
    refine .bind (node tn.b) fun kn _ => .bind (stable hk kn.valueType id) fun k hk => ?_
    refine .bind (node n.b) fun vn _ => .bind (stable hv vn.valueType id) fun v hv => ?_
    refine .bind (.emit (Instr.fed_two rfl hx hk)) fun _ _ => .bind (combine hv) fun v hv => ?_
    refine .bind (.emit (Instr.fed_three rfl hx hk hv)) fun _ _ => ?_
    exact .bind (free x) fun _ _ => .bind (free k) fun _ _ => .pure hv

theorem assignMember {id : NodeId} {n tn : Node} (hx : Supplies u rec (.expr tn.a)) (hv : Supplies u rec (.expr n.b)) :
    Feeds u (assignMember rec id n tn) Operand.IsPresent := by
  refine .bind (operands2 hx hv) fun p hp => ?_
  obtain ⟨x, v⟩ := p
  obtain ⟨hx, hv⟩ := hp
  refine .bind (fieldOperand n.a tn) fun f hf => .ite (fun _ => ?_) fun _ => ?_
  · exact .bind (.emit (Instr.fed_three rfl hx hf hv)) fun _ _ => .bind (free x) fun _ _ => .pure hv
  · refine .bind (node tn.a) fun xn _ => .bind (stable hx xn.valueType id) fun x hx => ?_
    refine .bind (node n.b) fun vn _ => .bind (stable hv vn.valueType id) fun v hv => ?_
    refine .bind (.emit (Instr.fed_two rfl hx hf)) fun _ _ => .bind (combine hv) fun v hv => ?_
    exact .bind (.emit (Instr.fed_three rfl hx hf hv)) fun _ _ => .bind (free x) fun _ _ => .pure hv

theorem assign {id : NodeId} {n : Node} (h : ∀ p ∈ u.assignParts n, Supplies u rec p) :
    Feeds u (assign rec id n) Operand.IsPresent := by
  refine .bind (node n.a) fun tn htn => ?_
  unfold AnalysisResult.assignParts at h
  rw [htn] at h
  split
  all_goals rename_i hk
  · simp only [hk] at h
    refine assignName (fun hop => h _ (by simp [hop])) (h _ ?_)
    split <;> simp
  · simp only [hk] at h
    exact assignElement (h _ (by simp)) (h _ (by simp)) (h _ (by simp))
  · simp only [hk] at h
    exact assignMember (h _ (by simp)) (h _ (by simp))
  · exact .fatal

/-! ### Structs and zero values -/

theorem fieldDefaults (t : TypeId) : Feeds u (fieldDefaults t) fun ds => ds = u.defaultsOf t :=
  .look (.fieldDefaults t) fun _ _ => .fieldDefaults t

theorem makeStruct {at' : NodeId} {t : TypeId} {given : List (String × NodeId)}
    (h : ∀ p ∈ u.structParts t given, Supplies u rec p) : Feeds u (makeStruct rec at' t given) Operand.IsPresent := by
  refine .bind (typeInfo t) fun ty hty => .bind (fieldDefaults t) fun ds hds => ?_
  subst hds
  refine .bind (.forIn _ fun p hp => ?_) fun _ _ => .bind (.quiet (.typeRef t)) fun _ _ =>
    .bind (.emit (Instr.fed_none rfl)) fun _ _ => accumulator
  have hpart : Supplies u rec (u.fieldPart t given p.1 p.2) := by
    refine h _ ?_
    simp only [AnalysisResult.structParts, hty]
    exact List.mem_map.2 ⟨p, hp, rfl⟩
  unfold AnalysisResult.fieldPart at hpart
  dsimp only
  split
  all_goals simp only [*] at hpart
  · exact .bind (push hpart) fun _ _ => .pure trivial
  · exact .bind (hpart at') fun o ho => .bind (pushOperand ho) fun _ _ => .pure trivial
  · exact .bind (push hpart) fun _ _ => .pure trivial

theorem zeroStep {at' : NodeId} {t : TypeId} (h : ∀ p ∈ u.parts (.zero t), Supplies u rec p) :
    Feeds u (zeroStep rec at' t) Operand.IsPresent := by
  refine .bind (typeInfo t) fun ty hty => ?_
  unfold AnalysisResult.parts AnalysisResult.zeroParts at h
  simp only [hty] at h
  split
  all_goals rename_i hshape
  case h_3 => exact stringRef ""
  case h_6 =>
    simp only [hshape] at h
    refine .bind (.forM _ fun e he => ?_) fun _ _ => .bind (.emit (Instr.fed_none rfl)) fun _ _ => accumulator
    exact .bind (h _ (List.mem_map_of_mem he) at') fun o ho => pushOperand ho
  case h_7 =>
    simp only [hshape] at h
    exact makeStruct h
  case h_4 => exact .bind (.emit (Instr.fed_none rfl)) fun _ _ => accumulator
  case h_5 => exact .bind (.emit (Instr.fed_none rfl)) fun _ _ => accumulator
  all_goals exact .pure (Operand.present (by decide))

theorem givenFields (list : List NodeId) : Feeds u (givenFields list) fun g => g = u.givenOf list :=
  .look (.givenFields list) fun _ _ => .givenFields list

theorem cast {id : NodeId} {n : Node} (ha : Supplies u rec (.expr n.a)) : Feeds u (cast rec id n) Operand.IsPresent := by
  refine .bind (exprAny ha) fun v hv => .bind (.quiet (.valueKind n.a)) fun source _ => .bind (typeKind _) fun target _ => ?_
  refine .ite (fun _ => .pure hv) fun _ => .ite (fun _ => .fatal) fun _ => ?_
  exact .bind (.emit (Instr.fed_one rfl hv)) fun _ _ => .bind (free v) fun _ _ => accumulator

/-! ### Calls -/

theorem present_live {p : Pool} {k : OperandKind} (h : p.kind = k) (hk : k ≠ .none) : ∀ r ∈ p.live, r.IsPresent := by
  intro r hr hnone
  obtain ⟨i, _, rfl⟩ := List.mem_map.1 hr
  exact hk (h.symm.trans hnone)

theorem spillLive : Feeds u spillLive fun saved => ∀ p ∈ saved, p.2.IsPresent := by
  refine .get_bind fun s hs => .mapM _ fun reg hreg => ?_
  have hpresent : reg.IsPresent := by
    rcases List.mem_append.1 hreg with h | h
    · exact present_live hs.values (by decide) reg h
    · exact present_live hs.refs (by decide) reg h
  exact .bind spill fun slot hslot => .bind (.emit (Instr.fed_one rfl hpresent)) fun _ _ => .pure hslot

theorem restoreLive {saved : List (Operand × Operand)} (h : ∀ p ∈ saved, p.2.IsPresent) :
    Feeds u (restoreLive saved) fun _ => True :=
  .bind (.forM _ fun p hp => .emit (Instr.fed_one rfl (h p hp))) fun _ _ => unspill _

/-- A call reads its callee if that is a value. -/
theorem invoke {op : Opcode} {callee : Operand} {fixed : Nat} (h : ({ op, a := callee, b := .int fixed } : Instr).IsFed) :
    Feeds u (invoke op callee fixed) fun _ => True :=
  .bind spillLive fun _ hsaved => .bind (.emit h) fun _ _ => restoreLive hsaved

theorem pushArg {arg : NodeId} (h : Supplies u rec (u.argPart arg)) : Feeds u (pushArg rec arg) fun _ => True := by
  refine .bind (node arg) fun an han => ?_
  simp only [AnalysisResult.argPart, han] at h
  refine .ite (fun hk => ?_) fun hk => ?_
  · rw [if_neg hk] at h
    exact .bind (push h) fun _ _ => .pure trivial
  · rw [if_pos (Decidable.not_not.1 hk)] at h
    refine .bind (.quiet (.note _)) fun _ _ => .bind (exprAny h) fun v hv => ?_
    exact .bind (.emit (Instr.fed_one rfl hv)) fun _ _ => .bind (free v) fun _ _ => .pure trivial

theorem makeVariant {id : NodeId} {n : Node} {target : SymbolId} (h : ∀ x ∈ n.list, Supplies u rec (.expr x)) :
    Feeds u (makeVariant rec id n target) Operand.IsPresent := by
  refine .bind (.quiet (.symbol target)) fun s _ => .bind (pushAll h) fun _ _ => .bind (.quiet (.typeRef _)) fun _ _ =>
    .bind (.emit (Instr.fed_none rfl)) fun _ _ => ?_
  exact .bind (.quiet (.isResolved _)) fun r _ => .ite (fun _ => .fatal) fun _ => accumulator

theorem calleeOperand {id : NodeId} {n : Node} {info : CallInfo} (hk : info.kind ≠ .variant)
    (h : info.kind = .value → Supplies u rec (.expr n.a)) :
    Feeds u (calleeOperand rec id n info) fun p =>
      ∀ fixed : Nat, ({ op := p.1, a := p.2, b := .int fixed } : Instr).IsFed := by
  unfold Emit.calleeOperand
  split
  · exact .bind (.quiet (.funcRef _)) fun _ _ => .pure fun _ => Instr.fed_none rfl
  · exact .bind (.quiet (.nativeRef _)) fun _ _ => .pure fun _ => Instr.fed_none rfl
  · have hvalue : info.kind = .value := by
      cases hi : info.kind <;> simp_all
    refine .bind (exprAny (h hvalue)) fun v hv => .bind (node n.a) fun an _ => ?_
    exact .bind (stable hv _ id) fun o ho => .pure fun _ => Instr.fed_one rfl ho

theorem pushArgs {n : Node} {method : Bool} (hargs : ∀ arg ∈ n.list, Supplies u rec (u.argPart arg))
    (hrecv : method = true → Supplies u rec (.expr (u.receiver n))) :
    Feeds u (pushArgs rec n method) fun _ => True := by
  have hfold := foldlM (u := u) (f := fun k arg => do Pure.pure (k + (← Emit.pushArg rec arg))) n.list.reverse
    (fun k arg harg => .bind (pushArg (hargs arg (List.mem_reverse.1 harg))) fun _ _ => .pure trivial) 0
  refine .bind hfold fun fixed _ => .ite (fun _ => .pure trivial) fun hm => ?_
  have hm : method = true := by simpa using hm
  refine .bind (node n.a) fun an han => .bind (push ?_) fun _ _ => .pure trivial
  have := hrecv hm
  rwa [AnalysisResult.receiver, han] at this

theorem saveSpread : Feeds u saveSpread fun saved => ∀ slot, saved = some slot → slot.IsPresent := by
  refine .get_bind fun s _ => .ite (fun _ => ?_) fun _ => .pure fun slot h => by cases h
  refine .bind spill fun slot hslot => ?_
  refine .bind (.emit (Instr.fed_one rfl (Operand.present (by decide)))) fun _ _ => .pure ?_
  rintro x ⟨⟩
  exact hslot

theorem beginSpread (spread : Bool) :
    Feeds u (beginSpread spread) fun saved => ∀ slot, saved = some slot → slot.IsPresent := by
  refine .ite (fun _ => ?_) fun _ => .pure fun slot h => by cases h
  refine .bind saveSpread fun saved hsaved => ?_
  refine .bind (.emit (Instr.fed_one rfl (Operand.present (by decide)))) fun _ _ => ?_
  exact .bind (.modify fun _ hs => hs.congr rfl rfl rfl rfl) fun _ _ => .pure hsaved

theorem restoreSpread {saved : Option Operand} (h : ∀ slot, saved = some slot → slot.IsPresent) :
    Feeds u (restoreSpread saved) fun _ => True := by
  cases saved with
  | none => exact .pure trivial
  | some slot => exact .bind (.emit (Instr.fed_one rfl (h slot rfl))) fun _ _ => unspill 1

/-- The result of a call is there unless the type of the call is void. -/
theorem call {id : NodeId} {n : Node} (h : ∀ p ∈ u.callParts id n, Supplies u rec p) :
    Feeds u (call rec id n) fun o => u.types.kind n.valueType ≠ .void → o.IsPresent := by
  refine .bind unit fun r hr => ?_
  subst hr
  split
  · rename_i info hinfo
    simp only [AnalysisResult.callParts, hinfo] at h
    refine .ite (fun hk => ?_) fun hk => ?_
    · simp only [hk] at h
      exact (makeVariant fun x hx => h _ (List.mem_map_of_mem hx)).mono fun _ ho _ => ho
    · have hparts : ∀ p ∈ (if info.kind = .value then [Place.expr n.a] else []) ++ n.list.map r.argPart ++
          (if info.method then [.expr (r.receiver n)] else []), Supplies r rec p := by
        cases hik : info.kind <;> simp_all
      refine .bind (calleeOperand hk fun hv => hparts _ (by simp [hv])) fun p hp => ?_
      have hargs : ∀ arg ∈ n.list, Supplies r rec (r.argPart arg) := fun arg harg =>
        hparts _ (List.mem_append_left _ (List.mem_append_right _ (List.mem_map_of_mem harg)))
      have hrecv : info.method = true → Supplies r rec (.expr (r.receiver n)) := fun hm =>
        hparts _ (List.mem_append_right _ (by simp [hm]))
      refine .bind unit fun r' _ => .bind (beginSpread _) fun saved hsaved => .bind (pushArgs hargs hrecv) fun fixed _ => ?_
      refine .bind (.modify fun _ hs => hs.congr rfl rfl rfl rfl) fun _ _ => .bind (free p.2) fun _ _ => ?_
      refine .bind (invoke (hp fixed)) fun _ _ => .bind (restoreSpread hsaved) fun _ _ => .bind (typeKind _) fun k hk => ?_
      refine .pure fun hvoid => ?_
      rw [if_neg (hk ▸ hvoid)]
      exact Operand.present (by decide)
  · exact .fatal

/-! ### Every kind of expression -/

theorem value {id : NodeId} {n : Node} (h : ∀ p ∈ u.exprParts id n, Supplies u rec p) :
    Feeds u (value rec id n) fun o => u.types.kind n.valueType ≠ .void → o.IsPresent := by
  unfold Emit.value
  unfold AnalysisResult.exprParts at h
  -- only a call may leave nothing
  have present {m : EmitM Operand} (hm : Feeds u m Operand.IsPresent) :
      Feeds u m fun o => u.types.kind n.valueType ≠ .void → o.IsPresent := hm.mono fun _ ho _ => ho
  split
  all_goals rename_i hk
  all_goals simp only [hk] at h
  case h_3 => exact present (stringRef _)
  case h_6 => exact present (name id n)
  case h_7 => exact present (binary (h _ (by simp)) (h _ (by simp)))
  case h_8 => exact present (unary (h _ (by simp)))
  case h_9 => exact present (assign h)
  case h_10 => exact call h
  case h_11 =>
    refine present (.bind (operands2 (h _ (by simp)) (h _ (by simp))) fun p hp => ?_)
    exact .bind (.emit (Instr.fed_two rfl hp.1 hp.2)) fun _ _ => consume
  case h_12 =>
    refine present (.bind (exprAny (h _ (by simp))) fun x hx => .bind (fieldOperand id n) fun f hf => ?_)
    exact .bind (.emit (Instr.fed_two rfl hx hf)) fun _ _ => .bind (free x) fun _ _ => accumulator
  case h_13 =>
    exact present (.bind (pushAll fun x hx => h _ (List.mem_map_of_mem hx)) fun _ _ =>
      .bind (.emit (Instr.fed_none rfl)) fun _ _ => accumulator)
  case h_14 =>
    refine present (.bind (.forM _ fun p hp => .bind (node p) fun pn hpn => ?_) fun _ _ =>
      .bind (.emit (Instr.fed_none rfl)) fun _ _ => accumulator)
    have hmem : pn ∈ n.list.filterMap u.tree.get? := List.mem_filterMap.2 ⟨p, hp, hpn⟩
    have hpair := fun x hx => h x (List.mem_flatMap.2 ⟨pn, hmem, hx⟩)
    exact .bind (push (hpair _ (by simp))) fun _ _ => push (hpair _ (by simp))
  case h_15 =>
    exact present (.bind (pushAll fun x hx => h _ (List.mem_map_of_mem hx)) fun _ _ =>
      .bind (.emit (Instr.fed_none rfl)) fun _ _ => accumulator)
  case h_16 =>
    refine present (.bind (givenFields n.list) fun given hg => ?_)
    subst hg
    exact makeStruct h
  case h_17 => exact present (cast (h _ (by simp)))
  case h_18 => exact present (literal id)
  case h_19 => exact .fatal
  all_goals exact present (.pure (Operand.present (by decide)))

/-- An expression that is not of type void leaves its value, if the expressions it reads do. -/
theorem exprStep {id : NodeId} {inRegister : Bool} (h : ∀ p ∈ u.parts (.expr id), Supplies u rec p) :
    Feeds u (exprStep rec id inRegister) fun o => ¬u.IsVoid id → o.IsPresent := by
  refine .bind (node id) fun n hn => .bind (.quiet (.isResolved _)) fun r _ => .ite (fun _ => .fatal) fun _ => ?_
  simp only [AnalysisResult.parts, hn, Option.map_some, Option.getD_some] at h
  refine .bind (.quiet (.note _)) fun _ _ => .bind (value h) fun op hop => .ite (fun _ => ?_) fun _ => .pure fun hvoid => ?_
  · exact (toRegister op n.valueType id).mono fun _ ho _ => ho
  · exact hop fun hk => hvoid ⟨n, hn, hk⟩

/-! ### Statements -/

theorem letStmt {id : NodeId} {n : Node} (h : ∀ p ∈ u.letParts id n, Supplies u rec p) :
    Feeds u (letStmt rec id n) fun _ => True := by
  refine .ite (fun _ => .pure trivial) fun hg => .bind unit fun r hr => ?_
  subst hr
  split
  · exact .pure trivial
  · rename_i v hv
    refine .bind (symbol v) fun s hs => .ite (fun _ => .pure trivial) fun hrej => ?_
    have hinit : r.initialized? id n = some (v, s) := by
      simp [AnalysisResult.initialized?, hg, hv, hs, hrej]
    simp only [AnalysisResult.letParts, hinit, List.mem_singleton, forall_eq] at h
    refine .bind (storage v) fun dst _ => ?_
    split at h
    all_goals rename_i hb
    · rw [if_pos hb]
      exact .bind (h id) fun x hx => move hx
    · rw [if_neg hb]
      exact .bind (exprAny h) fun x hx => move hx

theorem condition {id : NodeId} (h : Supplies u rec (.expr id)) (l : Label) : Feeds u (condition rec id l) fun _ => True :=
  .bind (exprAny h) fun c hc => .bind (.emit (Instr.fed_one rfl hc)) fun _ _ => free c

theorem jumpTo (l : Label) : Feeds u (jumpTo l) fun _ => True := .emit (Instr.fed_none rfl)

theorem newLabel : Feeds u newLabel fun _ => True := .quiet .newLabel

theorem ifStmt {n : Node} (ha : Supplies u rec (.expr n.a)) (hb : Supplies u rec (.stmt n.b))
    (hc : Supplies u rec (.stmt n.c)) : Feeds u (ifStmt rec n) fun _ => True := by
  refine .bind newLabel fun stop _ => .ite (fun _ => ?_) fun _ => .bind newLabel fun no _ => ?_
  · exact .bind (condition ha stop) fun _ _ => .bind hb fun _ _ => bindLabel stop
  · refine .bind (condition ha no) fun _ _ => .bind hb fun _ _ => .bind (jumpTo stop) fun _ _ => ?_
    exact .bind (bindLabel no) fun _ _ => .bind hc fun _ _ => bindLabel stop

theorem inLoop {l : LoopTargets} {body : NodeId} (h : Supplies u rec (.stmt body)) :
    Feeds u (inLoop rec l body) fun _ => True := by
  refine .bind (.modify fun _ hs => ?_) fun _ _ => .bind h fun _ _ => .modify fun _ hs => ?_
  · exact hs.congr rfl rfl rfl rfl
  · exact hs.congr rfl rfl rfl rfl

theorem whileLoop {n : Node} (ha : Supplies u rec (.expr n.a)) (hb : Supplies u rec (.stmt n.b)) :
    Feeds u (whileLoop rec n) fun _ => True := by
  refine .bind newLabel fun top _ => .bind newLabel fun exit _ => .bind (bindLabel top) fun _ _ => ?_
  refine .bind (condition ha exit) fun _ _ => .bind (inLoop hb) fun _ _ => ?_
  exact .bind (jumpTo top) fun _ _ => bindLabel exit

theorem forLoop {n : Node} (ha : Supplies u rec (.stmt n.a)) (hb : n.b ≠ 0 → Supplies u rec (.expr n.b))
    (hc : Supplies u rec (.stmt n.c)) (hd : Supplies u rec (.stmt n.d)) : Feeds u (forLoop rec n) fun _ => True := by
  refine .bind ha fun _ _ => .bind newLabel fun top _ => .bind newLabel fun again _ => ?_
  refine .bind newLabel fun exit _ => .bind (bindLabel top) fun _ _ => ?_
  have body : Feeds u (do
      Emit.inLoop rec { label := n.label, exit, again } n.d
      Emit.bindLabel again
      rec.stmt n.c
      Emit.jumpTo top
      Emit.bindLabel exit) fun _ => True := by
    refine .bind (inLoop hd) fun _ _ => .bind (bindLabel again) fun _ _ => .bind hc fun _ _ => ?_
    exact .bind (jumpTo top) fun _ _ => bindLabel exit
  exact .ite (fun h => .bind (condition (hb h) exit) fun _ _ => body) fun _ => body

theorem fetch {op : Opcode} {it : Operand} (h : ({ op, a := it } : Instr).IsFed) (v : SymbolId) :
    Feeds u (fetch op it v) fun _ => True :=
  .bind (.emit h) fun _ _ => .bind (storage v) fun _ _ => move Operand.accumulator_present

/-- Fetches into a variable if there is one. -/
theorem fetch? {op : Opcode} {it : Operand} (h : ({ op, a := it } : Instr).IsFed) (v : Option SymbolId) {m : EmitM Unit}
    (hm : Feeds u m fun _ => True) :
    Feeds u (match v with
      | some x => do
        Emit.fetch op it x
        m
      | _ => m) fun _ => True := by
  split
  · exact .bind (fetch h _) fun _ _ => hm
  · exact hm

theorem foreach {id : NodeId} {n : Node} (ha : Supplies u rec (.expr n.a)) (hb : Supplies u rec (.stmt n.b)) :
    Feeds u (foreach rec id n) fun _ => True := by
  refine .bind (exprAny ha) fun x hx => .bind (.emit (Instr.fed_one rfl hx)) fun _ _ => .bind (free x) fun _ _ => ?_
  refine .bind (acquireRef id) fun it hit => .bind (.emit (Instr.fed_one rfl Operand.accumulator_present)) fun _ _ => ?_
  refine .bind (.withRefs fun _ _ => Pool.kind_hold) fun _ _ => ?_
  refine .bind newLabel fun top _ => .bind newLabel fun exit _ => .bind (bindLabel top) fun _ _ => ?_
  refine .bind (.emit (Instr.fed_one rfl hit)) fun _ _ => .bind unit fun r hr => ?_
  refine fetch? (Instr.fed_one rfl hit) _ (fetch? (Instr.fed_one rfl hit) _ ?_)
  refine .bind (inLoop hb) fun _ _ => .bind (jumpTo top) fun _ _ => .bind (bindLabel exit) fun _ _ => ?_
  exact .withRefs fun _ _ => Pool.kind_unhold

theorem dispatch {tag : Operand} (htag : tag.IsPresent) (arms : List NodeId) :
    ∀ fallback, Feeds u (dispatch tag arms fallback) fun _ => True := by
  induction arms with
  | nil => exact fun fallback => .pure trivial
  | cons c rest ih =>
    intro fallback
    refine .bind newLabel fun l _ => .bind unit fun r _ => ?_
    split
    · rename_i t _
      refine .ite (fun _ => ?_) fun _ => .bind (ih _) fun p _ => .pure trivial
      refine .bind (.emit (Instr.fed_two rfl htag (Operand.present (by decide)))) fun _ _ => ?_
      refine .bind (.emit (Instr.fed_one rfl Operand.accumulator_present)) fun _ _ => ?_
      exact .bind (ih _) fun p _ => .pure trivial
    · exact .fatal

theorem arm {subject : Operand} {stop l : Label} {c : NodeId} (hsubject : subject.IsPresent)
    (hc : Supplies u rec (u.armPart c)) : Feeds u (arm rec subject stop c l) fun _ => True := by
  refine .bind (bindLabel l) fun _ _ => .bind (node c) fun cn hcn => ?_
  refine .bind (.quiet (.note _)) fun _ _ => .bind unit fun r _ => ?_
  have hbody : Feeds u (rec.stmt cn.a) fun _ => True := by
    rw [AnalysisResult.armPart, hcn] at hc
    exact hc
  exact fetch? (Instr.fed_one rfl hsubject) _ (.bind hbody fun _ _ => jumpTo stop)

/-- The arms of a match, after its subject. -/
theorem arms {id : NodeId} {n : Node} {subject : Operand} (hsubject : subject.IsPresent)
    (hl : ∀ c ∈ n.list, Supplies u rec (u.armPart c)) :
    Feeds u (do
      Emit.emit { op := .tag, a := subject }
      let tag ← Emit.acquireValue id
      Emit.emit { op := .mov, a := tag, b := .accumulator }
      let stop ← Emit.newLabel
      let (labels, fallback) ← Emit.dispatch tag n.list stop
      Emit.jumpTo fallback
      Emit.withValues (·.release tag.val.toNat)
      (n.list.zip labels).forM fun (c, l) => Emit.arm rec subject stop c l
      Emit.bindLabel stop
      if (subject.kind = .ref : Bool) then Emit.withRefs (·.unhold subject.val.toNat) else Emit.free subject)
      fun _ => True := by
  refine .bind (.emit (Instr.fed_one rfl hsubject)) fun _ _ => .bind (acquireValue id) fun tag htag => ?_
  refine .bind (.emit (Instr.fed_one rfl Operand.accumulator_present)) fun _ _ => .bind newLabel fun stop _ => ?_
  refine .bind (dispatch htag n.list stop) fun p _ => .bind (jumpTo _) fun _ _ => ?_
  refine .bind (.withValues fun _ _ => Pool.kind_release) fun _ _ => ?_
  refine .bind (.forM _ fun q hq => arm hsubject (hl _ (List.of_mem_zip hq).1)) fun _ _ => .bind (bindLabel stop) fun _ _ => ?_
  exact .ite (fun _ => .withRefs fun _ _ => Pool.kind_unhold) fun _ => free subject

theorem matchStmt {id : NodeId} {n : Node} (ha : Supplies u rec (.expr n.a))
    (hl : ∀ c ∈ n.list, Supplies u rec (u.armPart c)) : Feeds u (matchStmt rec id n) fun _ => True := by
  refine .bind (exprAny ha) fun v hv => .bind (node n.a) fun an _ => .bind (stable hv _ id) fun subject hsubject => ?_
  refine .ite (fun _ => ?_) fun _ => arms hsubject hl
  exact .bind (.withRefs fun _ _ => Pool.kind_hold) fun _ _ => arms hsubject hl

/-- A return may have nothing to return. -/
theorem returnStmt {n : Node} (ha : n.a ≠ 0 → Serves u rec (.expr n.a)) : Feeds u (returnStmt rec n) fun _ => True := by
  refine .get_bind fun s _ => .ite (fun _ => .ite (fun h => ?_) fun _ => .emit (Instr.fed_none rfl)) fun _ =>
    .ite (fun _ => .emit (Instr.fed_none rfl)) fun h => ?_
  · exact .bind (ha h false) fun x _ => .bind (free x) fun _ _ => .emit (Instr.fed_none rfl)
  · exact .bind (ha h false) fun x _ => .bind (.emit (Instr.fed_none rfl)) fun _ _ => free x

theorem loopTarget (id : NodeId) (label : String) : Feeds u (loopTarget id label) fun _ => True := by
  refine .get_bind fun s _ => ?_
  split
  · exact .pure trivial
  · exact .fatal

end Feeds

theorem supplies_of_serves {p : Place} (h : Serves u rec p) (hp : ∀ e ∈ p.expr?, ¬u.IsVoid e) : Supplies u rec p := by
  cases p with
  | expr id => exact fun inRegister => (h inRegister).mono fun o ho => ho (hp id rfl)
  | stmt id => exact h
  | zero t => exact h

/-- The parts of a place leave their values when none of them is of type void. -/
theorem supplies_parts {ps : List Place} (h : ∀ p ∈ ps, Serves u rec p)
    (hv : ∀ e ∈ ps.filterMap Place.expr?, ¬u.IsVoid e) : ∀ p ∈ ps, Supplies u rec p :=
  fun p hp => supplies_of_serves (h p hp) fun e he => hv e (List.mem_filterMap.2 ⟨p, hp, he⟩)

namespace Feeds

theorem stmtStep {id : NodeId} (h : ∀ p ∈ u.parts (.stmt id), Serves u rec p)
    (hv : ∀ e ∈ u.consumes (.stmt id), ¬u.IsVoid e) : Feeds u (stmtStep rec id) fun _ => True := by
  refine .ite (fun _ => .pure trivial) fun _ => .bind (node id) fun n hn => ?_
  have hs : AnalysisResult.passesOn n = false → ∀ p ∈ u.stmtParts id n, Supplies u rec p := by
    intro hpass
    simp only [AnalysisResult.consumes, AnalysisResult.parts, hn, Option.map_some, Option.getD_some, hpass] at h hv
    exact supplies_parts h hv
  simp only [AnalysisResult.parts, hn, Option.map_some, Option.getD_some] at h
  unfold AnalysisResult.stmtParts at h hs
  refine .ite (fun hexpr => ?_) fun hexpr => .bind (.quiet (.note _)) fun _ _ => ?_
  · rw [if_pos hexpr] at h
    exact .bind (h (.expr id) (by simp) false) fun o _ => free o
  · rw [if_neg hexpr] at h hs
    split
    all_goals rename_i hk
    all_goals simp only [hk] at h hs
    case h_4 => exact .bind (h (.expr n.a) (by simp) false) fun o _ => free o
    case h_17 => exact returnStmt fun ha => h _ (by simp [ha])
    case h_18 => exact .fatal
    case h_15 => exact .bind (loopTarget id n.label) fun _ _ => jumpTo _
    case h_16 => exact .bind (loopTarget id n.label) fun _ _ => jumpTo _
    all_goals
      have hs := hs (by
        simp only [AnalysisResult.passesOn, hk]
        decide)
    case h_5 => exact letStmt hs
    case h_10 => exact ifStmt (hs _ (by simp)) (hs _ (by simp)) (hs _ (by simp))
    case h_11 => exact whileLoop (hs _ (by simp)) (hs _ (by simp))
    case h_12 => exact forLoop (hs _ (by simp)) (fun hb => hs _ (by simp [hb])) (hs _ (by simp)) (hs _ (by simp))
    case h_13 => exact foreach (hs _ (by simp)) (hs _ (by simp))
    case h_14 => exact matchStmt (hs _ (by simp)) fun c hc => hs _ (List.mem_cons_of_mem _ (List.mem_map_of_mem hc))
    all_goals first
      | exact .pure trivial
      | exact .forM _ fun x hx => hs _ (List.mem_map_of_mem hx)

end Feeds

/-- The emitter feeds the code of a place below which no void expression is consumed. -/
theorem emitter_serves (fuel : Nat) : ∀ p, (∀ q, u.Reaches p q → ∀ e ∈ u.consumes q, ¬u.IsVoid e) →
    Serves u (emitter fuel) p := by
  induction fuel with
  | zero =>
    intro p _
    cases p with
    | expr id => exact fun _ => .throw
    | stmt id => exact .throw
    | zero t => exact fun _ => .throw
  | succ fuel ih =>
    intro p hp
    have hparts : ∀ q ∈ u.parts p, Serves u (emitter fuel) q :=
      fun q hq => ih q fun r hr => hp r (Relation.ReflTransGen.head hq hr)
    cases p with
    | expr id => exact fun _ => .exprStep (supplies_parts hparts (hp _ .refl))
    | stmt id => exact .stmtStep hparts (hp _ .refl)
    | zero t => exact fun _ => .zeroStep (supplies_parts hparts (hp _ .refl))

/-! ## Programs -/

theorem serves_codeParts {fn : SymbolId} (h : ∀ e, u.Consumes fn e → ¬u.IsVoid e) (fuel : Nat) :
    ∀ p ∈ u.codeParts fn, Serves u (emitter fuel) p :=
  fun p hp => emitter_serves fuel p fun q hq e he => h e (.inl ⟨p, hp, q, hq, he⟩)

namespace Feeds

theorem emitBody {body : NodeId} (h : ∀ p ∈ u.bodyParts body, Serves u rec p) :
    Feeds u (emitBody rec body) fun _ => True := by
  unfold AnalysisResult.bodyParts at h
  refine .bind (kindOf body) fun k hk => ?_
  refine .ite (fun hb => ?_) fun hb => ?_
  · refine .bind (node body) fun n hn => ?_
    rw [if_pos (hk ▸ hb), hn] at h
    exact .bind (.forM _ fun x hx => h _ (List.mem_map_of_mem hx)) fun _ _ => .emit (Instr.fed_none rfl)
  · rw [if_neg (hk ▸ hb)] at h
    refine .ite (fun h0 => ?_) fun _ => .pure trivial
    rw [if_neg h0] at h
    exact .bind (h _ (List.mem_singleton_self _) false) fun x _ => .emit (Instr.fed_none rfl)

theorem emitStatic {st : StaticInit} (h : ∀ p ∈ u.staticParts st, Supplies u rec p) :
    Feeds u (emitStatic rec st) fun _ => True := by
  refine .bind (symbol st.symbol) fun sym hsym => .bind unit fun r hr => ?_
  subst hr
  refine .ite (fun _ => .pure trivial) fun hlive => ?_
  have hlive : r.isLive sym = true := by
    simp only [Bool.or_eq_true, not_or, Bool.not_eq_true, Bool.not_eq_false'] at hlive
    simp [AnalysisResult.isLive, hlive.1.1, hlive.1.2, hlive.2]
  simp only [AnalysisResult.staticParts, hsym, Option.filter_some, hlive, if_true, List.mem_singleton, forall_eq] at h
  refine .bind (storage st.symbol) fun dst _ => ?_
  split at h
  all_goals rename_i hi
  · rw [if_pos hi]
    exact .bind (h _) fun x hx => move hx
  · rw [if_neg hi]
    exact .bind (exprAny h) fun x hx => move hx

theorem entryCode {fuel : Nat} (h : ∀ e, u.Consumes 0 e → ¬u.IsVoid e) :
    Feeds u (entryCode (emitter fuel)) fun _ => True := by
  have hparts := serves_codeParts h fuel
  simp only [AnalysisResult.codeParts, if_true] at hparts
  refine .bind unit fun r hr => ?_
  subst hr
  refine .bind (.forM _ fun st hst => ?_) fun _ _ => .bind (.forM _ fun x hx => ?_) fun _ _ => .emit (Instr.fed_none rfl)
  · refine .emitStatic fun p hp => supplies_of_serves ?_ fun e he => ?_
    · exact hparts p (List.mem_append_left _ (List.mem_flatMap.2 ⟨st, hst, hp⟩))
    · cases p with
      | expr x =>
        cases he
        exact h _ (.inr ⟨rfl, st, hst, hp⟩)
      | stmt x => cases he
      | zero t => cases he
  · exact hparts _ (List.mem_append_right _ (List.mem_map_of_mem hx))

end Feeds

theorem Fed.opened {ip : Nat} {entry : Label} (h : Fed u s) (ho : Opened s s' ip entry) : Fed u s' :=
  h.push (Instr.fed_none rfl) ho.unit ho.values ho.refs ho.code

theorem Fed.patched {ip slots : Nat} {a : Unit} (h : Fed u s) (hp : patch ip slots s = .ok a s') : Fed u s' := by
  obtain ⟨i, -, hop, rfl⟩ := patch_ok hp
  refine ⟨h.unit, h.values, h.refs, fun j hj => ?_⟩
  rcases Array.mem_or_eq_of_mem_setIfInBounds hj with hj | rfl
  · exact h.code j hj
  · refine Instr.fed_none ?_
    simp only [Instr.reads, hop]
    rfl

theorem emitEntry_fed {fuel : Nat} {entry : Label} (hs : Fed u s) (hv : ∀ e, u.Consumes 0 e → ¬u.IsVoid e)
    (h : emitEntry (emitter fuel) s = .ok entry s') : Fed u s' := by
  obtain ⟨⟨l, ip⟩, s₁, hopen, h₁⟩ := bind_ok h
  obtain ⟨_, s₂, hcode, h₂⟩ := bind_ok h₁
  obtain ⟨_, _, hget, h₃⟩ := bind_ok h₂
  cases hget
  obtain ⟨_, s₃, hpatch, h₄⟩ := bind_ok h₃
  cases h₄
  exact (Feeds.entryCode hv _ _ _ (hs.opened (openEntry_ok hopen).1) hcode).1.patched hpatch

theorem emitFunc_fed {fuel : Nat} {fn : SymbolId} {a : Unit} (hs : Fed u s) (hv : ∀ e, u.Consumes fn e → ¬u.IsVoid e)
    (h : emitFunc (emitter fuel) fn s = .ok a s') : Fed u s' := by
  obtain ⟨sym, s₀, hsym, h₁⟩ := bind_ok h
  obtain ⟨hsym, rfl⟩ := symbol_ok hsym
  obtain ⟨n, s₀, hn, h₂⟩ := bind_ok h₁
  obtain ⟨hn, rfl⟩ := declaration_ok hn
  obtain ⟨_, _, hget, h₃⟩ := bind_ok h₂
  cases hget
  cases hf : s₀.funcs.get? fn with
  | none =>
    rw [hf] at h₃
    cases h₃
  | some p =>
    obtain ⟨index, entry⟩ := p
    rw [hf] at h₃
    obtain ⟨⟨span, ip⟩, s₁, hopen, h₄⟩ := bind_ok h₃
    obtain ⟨_, s₂, hbody, h₅⟩ := bind_ok h₄
    obtain ⟨_, _, hget, h₆⟩ := bind_ok h₅
    cases hget
    obtain ⟨_, s₃, hpatch, h₇⟩ := bind_ok h₆
    cases h₇
    have hne : fn ≠ 0 := by
      rintro rfl
      cases hsym
    have hparts : u.codeParts fn = u.bodyParts n.b := by
      rw [← hs.unit, AnalysisResult.codeParts, if_neg hne, AnalysisResult.declarationOf?, hsym, Option.bind_some, hn]
      rfl
    have hfed := Feeds.emitBody (hparts ▸ serves_codeParts hv fuel) _ _ _ (hs.opened (openFunc_ok hopen).1) hbody
    exact (hfed.1.patched hpatch).congr rfl rfl rfl rfl

/-- Emitting a function only adds to the queue. -/
theorem emitFunc_work {fuel : Nat} {fn : SymbolId} {a : Unit} (hu : s.unit = u) (hv : s.values.kind = .value)
    (hr : s.refs.kind = .ref) (h : emitFunc (emitter fuel) fn s = .ok a s') :
    s'.unit = u ∧ s'.values.kind = .value ∧ s'.refs.kind = .ref ∧ ∀ g ∈ s.work, g ∈ s'.work := by
  obtain ⟨index, entry, slots, is, s₁, -, hadds, -, hfill⟩ := emitFunc_ok hu hv hr h
  obtain ⟨fns, hfns⟩ := hadds.work
  have hvalues : s'.values.kind = .value := by rw [hfill.values, hadds.values, hv]
  have hrefs : s'.refs.kind = .ref := by rw [hfill.refs, hadds.refs, hr]
  refine ⟨by rw [hfill.unit, hadds.unit, hu], hvalues, hrefs, fun g hg => ?_⟩
  rw [hfill.work, ← Array.mem_toList_iff, hfns]
  exact List.mem_append_left _ (Array.mem_toList_iff.2 hg)

theorem emitQueue_work {fuel rounds i : Nat} {a : Unit} (hu : s.unit = u) (hv : s.values.kind = .value)
    (hr : s.refs.kind = .ref) (h : emitQueue (emitter fuel) rounds i s = .ok a s') : ∀ g ∈ s.work, g ∈ s'.work := by
  induction rounds generalizing i s with
  | zero => cases h
  | succ rounds ih =>
    obtain ⟨_, _, hget, hcase⟩ := bind_ok h
    cases hget
    cases hfn : s.work[i]? with
    | none =>
      rw [hfn] at hcase
      cases hcase
      exact fun _ hg => hg
    | some fn =>
      rw [hfn] at hcase
      obtain ⟨_, s₁, hfunc, hrest⟩ := bind_ok hcase
      obtain ⟨hu₁, hv₁, hr₁, hgrow⟩ := emitFunc_work hu hv hr hfunc
      exact fun g hg => ih hu₁ hv₁ hr₁ hrest g (hgrow g hg)

theorem emitQueue_fed {fuel rounds i : Nat} {a : Unit} (h : emitQueue (emitter fuel) rounds i s = .ok a s') (hs : Fed u s)
    (hv : ∀ fn ∈ s'.work, ∀ e, u.Consumes fn e → ¬u.IsVoid e) : Fed u s' := by
  induction rounds generalizing i s with
  | zero => cases h
  | succ rounds ih =>
    obtain ⟨_, _, hget, hcase⟩ := bind_ok h
    cases hget
    cases hfn : s.work[i]? with
    | none =>
      rw [hfn] at hcase
      cases hcase
      exact hs
    | some fn =>
      rw [hfn] at hcase
      obtain ⟨_, s₁, hfunc, hrest⟩ := bind_ok hcase
      -- what was queued before is in the queue at the end
      obtain ⟨hu₁, hv₁, hr₁, hgrow⟩ := emitFunc_work hs.unit hs.values hs.refs hfunc
      have hmem : fn ∈ s'.work := emitQueue_work hu₁ hv₁ hr₁ hrest fn (hgrow fn (Array.mem_of_getElem? hfn))
      exact ih hrest (emitFunc_fed hs (hv fn hmem) hfunc)

end Emit

namespace Assembler

theorem Resolves.present {o o' : Operand} (h : Resolves o o') (ho : o.IsPresent) : o'.IsPresent := by
  rcases h with rfl | ⟨-, hk⟩
  · exact ho
  · exact Operand.present_of hk (by decide)

theorem ResolvesTo.reads {i i' : Instr} (h : ResolvesTo i i') : List.Forall₂ Resolves i.reads i'.reads := by
  unfold Instr.reads
  rw [h.op]
  split
  case h_17 =>
    split
    · exact .cons h.a (.cons h.b .nil)
    · split
      · exact .cons h.a .nil
      · exact .nil
  all_goals first
    | exact .cons h.b .nil
    | exact .cons h.a .nil
    | exact .cons h.a (.cons h.b .nil)
    | exact .cons h.a (.cons h.b (.cons h.c .nil))

/-- Resolving labels leaves the operands that are read. -/
theorem ResolvesTo.fed {i i' : Instr} (h : ResolvesTo i i') (hi : i.IsFed) : i'.IsFed := by
  intro o' ho'
  obtain ⟨o, ho, hres⟩ := exists_mem_of_forall₂ h.reads ho'
  exact hres.present (hi o ho)

end Assembler

namespace Analysis

/-- A value of type void is refused with a report, unless its type or a dynamic one is wanted. -/
theorem coerce_void {value v : NodeId} {want : TypeId} {code : Code} {s s' : Analysis} (hv : s.result.IsVoid value)
    (h : coerce value want code s = .ok (true, v) s') :
    s.result.types.kind want = .void ∨ s.result.types.kind want = .dynamic ∨
      ∃ d, d.severity = .error ∧ s' = { s with sink := s.sink.report d } := by
  obtain ⟨n, hn, hk⟩ := hv
  unfold coerce at h
  obtain ⟨m, s₁, hm, h₁⟩ := bind_ok h
  obtain ⟨rfl, hm⟩ := node_ok hm
  obtain rfl := Option.some.inj (hn.symm.trans hm)
  obtain ⟨_, _, hgot, h₂⟩ := bind_ok h₁
  cases hgot
  obtain ⟨_, _, hwant, h₃⟩ := bind_ok h₂
  cases hwant
  split at h₃
  · cases h₃
  obtain ⟨_, _, htypes, h₄⟩ := bind_ok h₃
  cases htypes
  split at h₄
  · rename_i haccepts
    rcases TypeTable.accepts_void hk haccepts with rfl | hdynamic
    · exact .inl hk
    · exact .inr (.inl hdynamic)
  split at h₄
  · rename_i hcast
    exact .inl (TypeTable.implicitCast_void hk hcast ▸ hk)
  cases h₄
  exact .inr (.inr ⟨_, rfl, rfl⟩)

end Analysis

namespace Emit

theorem fed_start (u : AnalysisResult) (o : EmitOptions) (tracer : Tracer) : Fed u (start u o tracer) :=
  ⟨rfl, rfl, rfl, by simp [start]⟩

/-- A program whose code reads the value of no expression of type void has an operand wherever an instruction reads one. -/
theorem values_supplied (u : AnalysisResult) (o : EmitOptions) (tracer : Tracer) {p : Program} {table : DebugTable}
    {s : EmitState} (h : run (start u o tracer) = .ok (p, table) s)
    (hv : ∀ fn, fn = 0 ∨ fn ∈ s.work → ∀ e, u.Consumes fn e → ¬u.IsVoid e) : ∀ i ∈ p.code, i.IsFed := by
  obtain ⟨_, _, hu, h₁⟩ := bind_ok h
  cases hu
  obtain ⟨span, s₁, hspan, h₂⟩ := bind_ok h₁
  cases hspan
  obtain ⟨entry, s₂, hentry, h₃⟩ := bind_ok h₂
  obtain ⟨_, s₃, hqueue, h₄⟩ := bind_ok h₃
  obtain ⟨_, s₄, hclose, h₅⟩ := bind_ok h₄
  obtain ⟨_, _, hget, h₆⟩ := bind_ok h₅
  cases hget
  have hs₂ : Fed u s₂ := by
    refine emitEntry_fed ?_ (hv 0 (.inl rfl)) hentry
    exact (fed_start u o tracer).congr rfl rfl rfl rfl
  have hwork : s₄.work = s₃.work := by
    cases hclose
    rfl
  have hclosed : Fed u s₃ → Fed u s₄ := by
    cases hclose
    exact fun hs => hs.congr rfl rfl rfl rfl
  cases hfin : s₄.asm.finish entry with
  | error e =>
    rw [hfin] at h₆
    cases h₆
  | ok q =>
    rw [hfin] at h₆
    cases h₆
    have hs : Fed u s := hclosed (emitQueue_fed hqueue hs₂ fun fn hfn => hv fn (.inr (hwork ▸ hfn)))
    intro i hi
    obtain ⟨j, hj, hres⟩ := exists_mem_of_forall₂ (Assembler.finish_ok hfin).1 (Array.mem_toList_iff.2 hi)
    exact hres.fed (hs.code j (Array.mem_toList_iff.1 hj))

/-- A call without a result that is a statement, and a call that is the argument of another. -/
def droppedCall : Tree where
  nodes := #[
    .typeName ["int"], .param "x" 1, .block [], .func "g" [2] 0 3,
    .ident ["g"], .intLit 1, .intLit 2, .binary .add 6 7, .call 5 [8], .exprStmt 9, { kind := .file, list := [4, 10] }]
  roots := [11]

theorem droppedCall_supplied :
    let u := (droppedCall.analyze {} {}).state.result
    u.IsVoid 9 ∧ ∃ p table s, run (start u {} {}) = .ok (p, table) s ∧ s.work = #[9] ∧ ∀ i ∈ p.code, i.IsFed := by
  obtain ⟨hvoid, hview, ⟨hcode, hparts, hreads, hstatic⟩, hbody⟩ :
      let u := (droppedCall.analyze {} {}).state.result
      let l : List Place := [.stmt 11, .stmt 4, .stmt 10, .expr 9, .expr 8, .expr 6, .expr 7]
      u.IsVoid 9 ∧ view? run (fun _ s => s.work) (start u {} {}) = some #[9] ∧
        ((∀ p ∈ u.codeParts 0, p ∈ l) ∧ (∀ p ∈ l, ∀ q ∈ u.parts p, q ∈ l) ∧ (∀ p ∈ l, ∀ e ∈ u.consumes p, ¬u.IsVoid e) ∧
          ∀ e ∈ (u.statics.flatMap u.staticParts).filterMap Place.expr?, ¬u.IsVoid e) ∧ u.codeParts 9 = [] := by
    decide +kernel
  obtain ⟨r, s, hrun, hwork⟩ := view?_eq_some hview
  refine ⟨hvoid, r.1, r.2, s, hrun, hwork, values_supplied _ {} {} hrun fun fn hfn => ?_⟩
  rw [hwork] at hfn
  rcases hfn with rfl | hfn
  · exact AnalysisResult.not_void_of_closed ⟨hcode, hparts, hreads, fun _ => hstatic⟩
  · obtain rfl : fn = 9 := by simpa using hfn
    exact AnalysisResult.not_void_of_closed (l := []) ⟨by simp [hbody], by simp, by simp, nofun⟩

/-- A call without a result as the argument for a parameter that takes anything. -/
def passedCall : Tree where
  nodes := #[
    .block [], .func "f" [] 0 1, .typeName ["dynamic"], .param "x" 3, .block [], .func "g" [4] 0 5,
    .ident ["f"], .call 7 [], .ident ["g"], .call 9 [8], .exprStmt 10, { kind := .file, list := [2, 6, 11] }]
  roots := [12]

/-- The argument is accepted, and an empty operand is pushed. -/
theorem passedCall_pushes_nothing :
    let e := passedCall.analyze {} {}
    e.failure = none ∧ e.hasErrors = false ∧
    ∃ p table s, run (start e.state.result {} {}) = .ok (p, table) s ∧ ∃ i ∈ p.code, ¬i.IsFed := by
  obtain ⟨hfailure, herrors, hview⟩ :
      let e := passedCall.analyze {} {}
      e.failure = none ∧ e.hasErrors = false ∧
        view? run (fun r _ => decide ({ op := .push } ∈ r.1.code)) (start e.state.result {} {}) = some true := by
    decide +kernel
  refine ⟨hfailure, herrors, ?_⟩
  obtain ⟨r, s, hrun, hmem⟩ := view?_eq_some hview
  exact ⟨r.1, r.2, s, hrun, _, of_decide_eq_true hmem, fun h => h _ (List.mem_singleton_self _) rfl⟩

end Emit

end TreeCompiler
