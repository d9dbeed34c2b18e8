import TreeCompiler.Proofs.Emit.Act

/-!
# Relations across emission

A relation between states that holds across each primitive, and that can be composed, holds across everything that is emitted.
So an invariant of emission is proved for the primitives alone.

* `Closed R X` : what `R` must say of the primitives. An expression begins with its node, so more may be known across it: `X`;
  operands that are evaluated again after a rewind lie between `retry` and `after`;
* `Carries R m` : `R` holds across the computation `m`. Every step of generation is found by instance.
-/

namespace TreeCompiler

namespace Emit

/-! ## What asking for a row does -/

theorem consult_of_ok {α : Type} {m : EmitM α} (hm : Consults m) {s s' : EmitState} {a : α} (h : m s = .ok a s') :
    consult m s.unit = .ok a := by
  rw [hm.run s] at h
  cases hc : consult m s.unit with
  | error e =>
    rw [hc] at h
    cases h
  | ok b =>
    rw [hc] at h
    cases h
    rfl

/-- A function gets its row when it is first asked for. -/
theorem funcRef_cases {s s' : EmitState} {fn : SymbolId} {k : Nat} (h : funcRef fn s = .ok k s') :
    s' = s ∨ ∃ name params, consult (funcName fn) s.unit = .ok name ∧
      s' = { s with
        asm := (s.asm.declareFunc name params).2.2
        funcs := s.funcs.insert fn ((s.asm.declareFunc name params).1, (s.asm.declareFunc name params).2.1)
        work := s.work.push fn } := by
  unfold funcRef at h
  rw [get_bind_apply] at h
  cases hf : s.funcs.get? fn with
  | some p =>
    rw [hf] at h
    cases h
    exact .inl rfl
  | none =>
    rw [hf] at h
    obtain ⟨sym, s₁, hsym, h₁⟩ := bind_ok h
    obtain ⟨-, rfl⟩ := symbol_ok hsym
    obtain ⟨n, s₂, hn, h₂⟩ := bind_ok h₁
    obtain ⟨-, rfl⟩ := declaration_ok hn
    obtain ⟨name, s₃, hname, h₃⟩ := bind_ok h₂
    have hconsult := consult_of_ok (.funcName fn) hname
    obtain rfl := reads_funcName fn _ _ _ hname
    cases h₃
    exact .inr ⟨name, n.list.length, hconsult, rfl⟩

theorem nativeRef_cases {s s' : EmitState} {fn : SymbolId} {k : Nat} (h : nativeRef fn s = .ok k s') :
    s' = s ∨ ∃ row, s' = { s with
      asm := (s.asm.addNative row).2
      natives := s.natives.insert fn (s.asm.addNative row).1 } := by
  unfold nativeRef at h
  rw [get_bind_apply] at h
  cases hf : s.natives.get? fn with
  | some k =>
    rw [hf] at h
    cases h
    exact .inl rfl
  | none =>
    rw [hf] at h
    obtain ⟨sym, s₁, hsym, h₁⟩ := bind_ok h
    obtain ⟨-, rfl⟩ := symbol_ok hsym
    obtain ⟨u, s₂, hu, h₂⟩ := bind_ok h₁
    cases hu
    obtain ⟨n, s₃, hn, h₃⟩ := bind_ok h₂
    obtain ⟨-, rfl⟩ := declaration_ok hn
    cases h₃
    exact .inr ⟨_, rfl⟩

theorem typeRef_cases {s s' : EmitState} {t : TypeId} {k : Nat} (h : typeRef t s = .ok k s') :
    s' = s ∨ ∃ row, s' = { s with
      asm := (s.asm.addType row).2
      typeRows := s.typeRows.insert t (s.asm.addType row).1 } := by
  unfold typeRef at h
  rw [get_bind_apply] at h
  cases hf : s.typeRows.get? t with
  | some k =>
    rw [hf] at h
    cases h
    exact .inl rfl
  | none =>
    rw [hf] at h
    obtain ⟨ty, s₁, hty, h₁⟩ := bind_ok h
    obtain ⟨-, rfl⟩ := typeInfo_ok hty
    obtain ⟨u, s₂, hu, h₂⟩ := bind_ok h₁
    cases hu
    cases h₂
    exact .inr ⟨_, rfl⟩

/-! ## Relations -/

/-- The relation holds between the states before and after. -/
class Carries {α : Type} (R : EmitState → EmitState → Prop) (m : EmitM α) : Prop where
  carries : ∀ s a s', m s = .ok a s' → R s s'

class Closed (R : EmitState → EmitState → Prop) (X : outParam (EmitState → EmitState → Prop)) : Prop where
  refl : ∀ s, R s s
  trans : ∀ {s s' s''}, R s s' → R s' s'' → R s s''
  pools : ∀ (s : EmitState) (values refs : Pool), R s { s with values, refs }
  frame : ∀ (s : EmitState) (frame : Frame), R s { s with frame }
  counting : ∀ (s : EmitState) (n : Nat), R s { s with countingCalls := n }
  emit : ∀ i, Carries R (emit i)
  note : ∀ span, Carries R (note span)
  newLabel : Carries R newLabel
  bindLabel : ∀ l, Carries R (bindLabel l)
  stringRef : ∀ text, Carries R (stringRef text)
  funcRef : ∀ fn, Carries R (funcRef fn)
  nativeRef : ∀ fn, Carries R (nativeRef fn)
  typeRef : ∀ t, Carries R (typeRef t)
  le : ∀ {s s'}, X s s' → R s s'
  /-- An expression starts with its node. -/
  enter : ∀ {s s₁ s' : EmitState} {id : NodeId} {n : Node} {a : Unit}, s.unit.tree.get? id = some n → n.kind.isExpr = true →
    Emit.note n.span s = .ok a s₁ → R s₁ s' → X s s'
  after : ∀ {s s₁ s'}, X s s₁ → R s₁ s' → X s s'
  /-- What was emitted since `s` is taken back, and emitted again. -/
  retry : ∀ {s s₁ s₂ s' : EmitState} {a : Unit}, X s s₁ → rewind (markOf s) s₁ = .ok a s₂ → X s₂ s' → X s s'

variable {α β : Type} {R X : EmitState → EmitState → Prop}

namespace Carries

section

theorem throws (e : EmitFailure) : Carries R (throw e : EmitM α) := ⟨fun _ _ _ h => by cases h⟩

theorem ite {c : Prop} [Decidable c] {x y : EmitM α} (hx : Carries R x) (hy : Carries R y) :
    Carries R (if c then x else y) := by
  split
  · exact hx
  · exact hy

theorem modify {f : EmitState → EmitState} (h : ∀ s, R s (f s)) : Carries R (modify f : EmitM Unit) :=
  ⟨fun s a s' hm => by cases hm; exact h s⟩

theorem modifyGet {f : EmitState → α × EmitState} (h : ∀ s, R s (f s).2) : Carries R (modifyGet f : EmitM α) :=
  ⟨fun s a s' hm => by cases hm; exact h s⟩

variable [hR : Closed R X]

include hR

theorem of_reads {m : EmitM α} (h : Reads m) : Carries R m := ⟨fun s a s' hm => by rw [h s a s' hm]; exact hR.refl s⟩

instance (a : α) : Carries R (pure a : EmitM α) := of_reads (reads_pure a)

instance (e : EmitFailure) : Carries R (throw e : EmitM α) := throws e

instance (id : NodeId) (cause : EmitCause) : Carries R (fatal id cause : EmitM α) := throws _

instance : Carries R (get : EmitM EmitState) := of_reads fun _ _ _ h => by cases h; rfl

theorem seq {x : EmitM α} {f : α → EmitM β} (hx : Carries R x) (hf : ∀ a, Carries R (f a)) : Carries R (x >>= f) := by
  refine ⟨fun s c s' h => ?_⟩
  obtain ⟨a, s₁, hxs, hfs⟩ := bind_ok h
  exact hR.trans (hx.carries s a s₁ hxs) ((hf a).carries s₁ c s' hfs)

/-- The first part is found by instance. -/
theorem bind {x : EmitM α} {f : α → EmitM β} [hx : Carries R x] (hf : ∀ a, Carries R (f a)) : Carries R (x >>= f) := seq hx hf

instance {x : EmitM α} {f : α → EmitM β} [hx : Carries R x] [hf : ∀ a, Carries R (f a)] : Carries R (x >>= f) := seq hx hf

instance {c : Prop} [Decidable c] {x y : EmitM α} [hx : Carries R x] [hy : Carries R y] : Carries R (if c then x else y) := ite hx hy

instance (l : List α) (f : α → EmitM PUnit) [h : ∀ a, Carries R (f a)] : Carries R (l.forM f) := by
  induction l with
  | nil => exact inferInstanceAs (Carries R (pure _))
  | cons a l ih => exact seq (h a) fun _ => ih

instance (l : List α) (f : α → EmitM β) [h : ∀ a, Carries R (f a)] : Carries R (l.mapM f) := by
  induction l with
  | nil => exact inferInstanceAs (Carries R (pure _))
  | cons a l ih =>
    rw [List.mapM_cons]
    exact seq (h a) fun _ => seq ih fun _ => inferInstance

instance (l : List α) (f : β → α → EmitM β) (b : β) [h : ∀ b a, Carries R (f b a)] : Carries R (l.foldlM f b) := by
  induction l generalizing b with
  | nil => exact inferInstanceAs (Carries R (pure _))
  | cons a l ih => exact seq (h b a) ih

instance (l : List α) (f : α → β → EmitM (ForInStep β)) (b : β) [h : ∀ a b, Carries R (f a b)] :
    Carries R (ForIn.forIn l b f) := by
  induction l generalizing b with
  | nil => exact inferInstanceAs (Carries R (pure _))
  | cons a l ih =>
    rw [List.forIn_cons]
    refine seq (h a b) fun r => ?_
    cases r
    · exact inferInstanceAs (Carries R (pure _))
    · exact ih _

/-! ### The primitives -/

instance : Carries R unit := of_reads reads_unit

instance (id : NodeId) : Carries R (node id) := by
  unfold node
  refine bind fun u => ?_
  split <;> infer_instance

instance (id : NodeId) : Carries R (kindOf id) := by unfold kindOf; infer_instance

instance (id : SymbolId) : Carries R (symbol id) := of_reads fun _ _ _ h => (symbol_ok h).2

instance (sym : Symbol) : Carries R (declaration sym) := of_reads fun _ _ _ h => (declaration_ok h).2

instance (fn : SymbolId) : Carries R (funcScope fn) := of_reads fun _ _ _ h => (funcScope_ok h).2

instance (fn : SymbolId) : Carries R (funcName fn) := of_reads (reads_funcName fn)

instance (t : TypeId) : Carries R (typeInfo t) := by
  unfold typeInfo
  refine bind fun u => ?_
  split <;> infer_instance

instance (t : TypeId) : Carries R (typeKind t) := by unfold typeKind; infer_instance

instance (t : TypeId) : Carries R (isResolved t) := by unfold isResolved; infer_instance

instance (i : Instr) : Carries R (emit i) := hR.emit i

instance (span : Span) : Carries R (note span) := hR.note span

instance : Carries R newLabel := hR.newLabel

instance (l : Label) : Carries R (bindLabel l) := hR.bindLabel l

instance (text : String) : Carries R (stringRef text) := hR.stringRef text

instance (t : TypeId) : Carries R (isValue t) := by
  unfold isValue
  refine bind fun k => ?_
  split <;> infer_instance

instance (id : NodeId) : Carries R (acquireValue id) := by
  refine ⟨fun s a s' h => ?_⟩
  obtain ⟨_, -, rfl⟩ := acquireValue_ok h
  exact hR.pools _ _ _

instance (id : NodeId) : Carries R (acquireRef id) := by
  refine ⟨fun s a s' h => ?_⟩
  obtain ⟨_, -, rfl⟩ := acquireRef_ok h
  exact hR.pools _ _ _

instance (step : Pool → Except EmitCause Pool) : Carries R (withValues step) := by
  refine ⟨fun s a s' h => ?_⟩
  obtain ⟨_, -, rfl⟩ := withValues_ok h
  exact hR.pools _ _ _

instance (step : Pool → Except EmitCause Pool) : Carries R (withRefs step) := by
  refine ⟨fun s a s' h => ?_⟩
  obtain ⟨_, -, rfl⟩ := withRefs_ok h
  exact hR.pools _ _ _

instance (o : Operand) : Carries R (free o) := by
  unfold free
  split <;> infer_instance

instance (o : Operand) (t : TypeId) (id : NodeId) : Carries R (toRegister o t id) := by
  unfold toRegister
  split <;> infer_instance

instance (o : Operand) (t : TypeId) (id : NodeId) : Carries R (stable o t id) := by unfold stable; infer_instance

instance (dst src : Operand) : Carries R (move dst src) := by unfold move; infer_instance

instance (o : Operand) : Carries R (pushOperand o) := by unfold pushOperand; infer_instance

instance : Carries R spill := modifyGet fun _ => hR.frame _ _

instance (n : Nat) : Carries R (unspill n) := modify fun _ => hR.frame _ _

instance : Carries R mark := by unfold mark; infer_instance

instance (fn : SymbolId) : Carries R (funcRef fn) := hR.funcRef fn

instance (fn : SymbolId) : Carries R (nativeRef fn) := hR.nativeRef fn

instance (t : TypeId) : Carries R (typeRef t) := hR.typeRef t

instance (id : SymbolId) : Carries R (storage id) := by
  unfold storage
  refine bind fun sym => bind fun s => ?_
  dsimp only
  split <;> infer_instance

/-! ### Values -/

instance (id : NodeId) : Carries R (stores id) := by
  unfold stores
  refine bind fun u => ?_
  dsimp only
  split <;> infer_instance

theorem storesAfter (ids : List NodeId) : Carries R (storesAfter ids) := by
  fun_induction Emit.storesAfter ids with
  | case1 => infer_instance
  | case2 => infer_instance
  | case3 _ next rest ih => exact seq ih fun tail => inferInstance

instance (ids : List NodeId) : Carries R (Emit.storesAfter ids) := storesAfter ids

instance (id : NodeId) : Carries R (binding id) := by
  unfold binding
  refine bind fun u => ?_
  split <;> infer_instance

instance (id : NodeId) (n : Node) : Carries R (fieldOperand id n) := by
  unfold fieldOperand
  refine bind fun u => ?_
  split <;> infer_instance

instance (id : NodeId) : Carries R (valueKind id) := by unfold valueKind; infer_instance

instance (id : NodeId) (op : Operator) (l r : NodeId) : Carries R (binaryCode id op l r) := by
  unfold binaryCode
  split <;> infer_instance

instance (t : TypeId) : Carries R (fieldDefaults t) := by
  unfold fieldDefaults
  refine bind fun u => ?_
  split <;> infer_instance

instance (list : List NodeId) : Carries R (givenFields list) := by unfold givenFields; infer_instance

instance (id : NodeId) : Carries R (literal id) := by
  unfold literal
  refine bind fun u => ?_
  split <;> infer_instance

instance (id : NodeId) (n : Node) : Carries R (name id n) := by
  unfold name
  refine bind fun v => bind fun sym => ?_
  split <;> infer_instance

instance (id : NodeId) (n : Node) (value : Operand) : Carries R (combine id n value) := by unfold combine; infer_instance

instance : Carries R spillLive := by unfold spillLive; infer_instance

instance (saved : List (Operand × Operand)) : Carries R (restoreLive saved) := by unfold restoreLive; infer_instance

instance (op : Opcode) (callee : Operand) (fixed : Nat) : Carries R (invoke op callee fixed) := by unfold invoke; infer_instance

instance : Carries R saveSpread := by unfold saveSpread; infer_instance

instance (spread : Bool) : Carries R (beginSpread spread) := by
  unfold beginSpread
  split
  · exact bind fun _ => bind fun _ => seq (modify fun _ => hR.counting _ _) fun _ => inferInstance
  · infer_instance

instance (spread : Bool) : Carries R (endSpread spread) := modify fun _ => hR.counting _ _

instance (saved : Option Operand) : Carries R (restoreSpread saved) := by
  unfold restoreSpread
  split <;> infer_instance

end

end Carries

/-- What is left of a `match` once its subject is in place. -/
def matchArms (rec : Emitter) (id : NodeId) (n : Node) (subject : Operand) (held : Bool) : EmitM Unit := do
  emit { op := .tag, a := subject }
  let tag ← acquireValue id
  emit { op := .mov, a := tag, b := .accumulator }
  let stop ← newLabel
  let (labels, fallback) ← dispatch tag n.list stop
  jumpTo fallback
  withValues (·.release tag.val.toNat)
  (n.list.zip labels).forM fun (c, l) => arm rec subject stop c l
  bindLabel stop
  if held then withRefs (·.unhold subject.val.toNat) else free subject

theorem matchStmt_eq (rec : Emitter) (id : NodeId) (n : Node) :
    matchStmt rec id n = (do
      let v ← exprAny rec n.a
      let subject ← stable v (← node n.a).valueType id
      if (subject.kind = .ref : Bool) then withRefs (·.hold subject.val.toNat)
      matchArms rec id n subject (subject.kind = .ref : Bool)) := by
  unfold matchStmt matchArms
  rfl

class EmitterCarries (R : EmitState → EmitState → Prop) (X : outParam (EmitState → EmitState → Prop)) (rec : Emitter) :
    Prop where
  expr : ∀ id b, Carries X (rec.expr id b)
  stmt : ∀ id, Carries R (rec.stmt id)
  zero : ∀ id t, Carries R (rec.zero id t)

namespace Carries

section

variable [hR : Closed R X] (rec : Emitter) [h : EmitterCarries R X rec]

include hR

instance (id : NodeId) (b : Bool) : Carries R (rec.expr id b) :=
  ⟨fun s a s' hm => hR.le ((h.expr id b).carries s a s' hm)⟩

instance (id : NodeId) : Carries R (rec.stmt id) := h.stmt id

instance (id : NodeId) (t : TypeId) : Carries R (rec.zero id t) := h.zero id t

instance (id : NodeId) : Carries R (exprAny rec id) := inferInstanceAs (Carries R (rec.expr id false))

instance (id : NodeId) : Carries R (push rec id) := by unfold push; infer_instance

instance (ids : List NodeId) : Carries R (pushAll rec ids) := by unfold pushAll; infer_instance

instance (id : NodeId) (forced storesLater : Bool) : Carries R (evaluate rec id forced storesLater) := by
  unfold evaluate; infer_instance

instance (l : List (NodeId × Bool × Bool)) : Carries R (evaluateAll rec l) := by
  induction l with
  | nil => exact inferInstanceAs (Carries R (pure _))
  | cons p l ih => exact bind fun e => seq ih fun es => inferInstance

/-- Across a list of expressions that is not empty `X` holds. -/
theorem evaluateAll_enters {l : List (NodeId × Bool × Bool)} (hl : l ≠ []) : Carries X (Emit.evaluateAll rec l) := by
  cases l with
  | nil => exact absurd rfl hl
  | cons p l =>
    obtain ⟨id, forced, storesLater⟩ := p
    refine ⟨fun s es s' hm => ?_⟩
    obtain ⟨e, s₁, he, hrest⟩ := bind_ok hm
    obtain ⟨op, s₂, hop, hcopy⟩ := bind_ok he
    have hafter : Carries R (do
        let op ← if storesLater && op.isVariable then toRegister op (← node id).valueType id else pure op
        let s ← get
        return { op, accumulatorWrites := s.accumulatorWrites, returnWrites := s.returnWrites } : EmitM Evaluated) := inferInstance
    have htail : Carries R (do return e :: (← Emit.evaluateAll rec l) : EmitM (List Evaluated)) := inferInstance
    exact hR.after ((h.expr id forced).carries _ _ _ hop) (hR.trans (hafter.carries _ _ _ hcopy) (htail.carries _ _ _ hrest))

omit h hR in
theorem again_ne_nil {ids : List NodeId} {forced storing stale : List Bool} (hne : ids.zip (forced.zip storing) ≠ [])
    (hstale : stale ≠ []) : ids.zip ((forced.zipWith or stale).zip storing) ≠ [] := by
  cases ids <;> cases forced <;> cases storing <;> cases stale <;> simp_all

theorem operandsAux_enters (ids : List NodeId) (storing : List Bool) (fuel : Nat) :
    ∀ forced, ids.zip (forced.zip storing) ≠ [] → Carries X (Emit.operandsAux rec ids storing fuel forced) := by
  induction fuel with
  | zero => exact fun _ _ => throws _
  | succ fuel ih =>
    intro forced hne
    refine ⟨fun s os s' hm => ?_⟩
    unfold Emit.operandsAux at hm
    obtain ⟨_, _, hmark, h₁⟩ := bind_ok hm
    cases hmark
    obtain ⟨values, s₁, hvalues, h₂⟩ := bind_ok h₁
    obtain ⟨_, _, hget, h₃⟩ := bind_ok h₂
    cases hget
    have hround := (evaluateAll_enters (R := R) rec hne).carries _ _ _ hvalues
    dsimp only at h₃
    split at h₃
    · obtain ⟨_, s₂, hrewind, h₄⟩ := bind_ok h₃
      have hstale : values.dropLast.map (·.isStale s₁) ++ [false] ≠ [] := by simp
      have hagain := again_ne_nil hne hstale
      exact hR.retry hround hrewind ((ih _ hagain).carries _ _ _ h₄)
    · cases h₃
      exact hround

theorem operandsAux (ids : List NodeId) (storing : List Bool) (fuel : Nat) (forced : List Bool) :
    Carries R (Emit.operandsAux rec ids storing fuel forced) := by
  by_cases hne : ids.zip (forced.zip storing) = []
  · cases fuel with
    | zero => exact throws _
    | succ fuel =>
      -- without expressions nothing can be stale
      refine ⟨fun s os s' hm => ?_⟩
      unfold Emit.operandsAux at hm
      rw [hne] at hm
      cases hm
      exact hR.refl s
  · exact ⟨fun s os s' hm => hR.le ((operandsAux_enters (R := R) rec ids storing fuel forced hne).carries s os s' hm)⟩

instance (ids : List NodeId) : Carries R (operands rec ids) := bind fun _ => operandsAux rec _ _ _ _

instance (a b : NodeId) : Carries R (operands2 rec a b) := by
  unfold operands2
  refine bind fun os => ?_
  split <;> infer_instance

instance (a b c : NodeId) : Carries R (operands3 rec a b c) := by
  unfold operands3
  refine bind fun os => ?_
  split <;> infer_instance

instance (id : NodeId) (n : Node) : Carries R (logical rec id n) :=
  bind fun _ => bind fun _ => bind fun _ => bind fun _ => inferInstance

instance (id : NodeId) (n : Node) : Carries R (binary rec id n) := by unfold binary; infer_instance

instance (n : Node) : Carries R (unary rec n) := by
  unfold unary
  split <;> infer_instance

instance (id : NodeId) (n : Node) : Carries R (assignName rec id n) :=
  bind fun _ => bind fun _ => ite inferInstance (bind fun _ => bind fun _ => bind fun _ => inferInstance)

instance (id : NodeId) (n tn : Node) : Carries R (assignElement rec id n tn) := by
  unfold assignElement
  refine bind fun p => ?_
  obtain ⟨x, k, v⟩ := p
  dsimp only
  split
  · infer_instance
  · exact bind fun _ => bind fun _ => bind fun _ => bind fun _ => bind fun _ => bind fun _ => inferInstance

instance (id : NodeId) (n tn : Node) : Carries R (assignMember rec id n tn) := by
  unfold assignMember
  refine bind fun p => ?_
  obtain ⟨x, v⟩ := p
  refine bind fun field => ?_
  split
  · infer_instance
  · exact bind fun _ => bind fun _ => bind fun _ => bind fun _ => inferInstance

instance (id : NodeId) (n : Node) : Carries R (assign rec id n) := by
  unfold assign
  refine bind fun tn => ?_
  split <;> infer_instance

/-- A field is pushed as it is given, as its default has it, or as zero. -/
theorem pushField (id : NodeId) (given : List (String × NodeId)) (ds : List NodeId) (p : TyField × Nat) (b : PUnit) :
    Carries R (match given.lookup p.1.name, ds.getD p.2 0 with
      | some v, _ => do push rec v; pure (ForInStep.yield b)
      | none, 0 => do pushOperand (← rec.zero id p.1.type); pure (ForInStep.yield b)
      | none, d => do push rec d; pure (ForInStep.yield b)) := by
  split <;> infer_instance

instance (id : NodeId) (t : TypeId) (given : List (String × NodeId)) : Carries R (makeStruct rec id t given) := by
  unfold makeStruct
  refine bind fun ty => bind fun ds => seq ?_ fun _ => inferInstance
  have hfield := @pushField R X hR rec h id given ds
  exact inferInstance

instance (id : NodeId) (t : TypeId) : Carries R (zeroStep rec id t) := by
  unfold zeroStep
  refine bind fun ty => ?_
  split <;> infer_instance

instance (id : NodeId) (n : Node) : Carries R (cast rec id n) := by unfold cast; infer_instance

instance (arg : NodeId) : Carries R (pushArg rec arg) := by unfold pushArg; infer_instance

instance (id : NodeId) (n : Node) (target : SymbolId) : Carries R (makeVariant rec id n target) := by
  unfold makeVariant; infer_instance

instance (id : NodeId) (n : Node) (info : CallInfo) : Carries R (calleeOperand rec id n info) := by
  unfold calleeOperand
  split <;> infer_instance

instance (n : Node) (method : Bool) : Carries R (pushArgs rec n method) := by unfold pushArgs; infer_instance

instance (id : NodeId) (n : Node) : Carries R (call rec id n) := by
  unfold call
  refine bind fun u => ?_
  split
  · exact ite inferInstance (bind fun _ => bind fun _ => bind fun _ => bind fun _ => bind fun _ => bind fun _ => inferInstance)
  · infer_instance

instance (id : NodeId) (n : Node) : Carries R (value rec id n) := by
  unfold value
  split <;> infer_instance

omit h hR in
/-- Only expressions have values. -/
theorem value_isExpr {id : NodeId} {n : Node} {s s' : EmitState} {o : Operand} (hm : value rec id n s = .ok o s') :
    n.kind.isExpr = true := by
  unfold value at hm
  cases hk : n.kind <;> first | rfl | (rw [hk] at hm; cases hm)

theorem exprStep_enters (id : NodeId) (inRegister : Bool) : Carries X (exprStep rec id inRegister) := by
  refine ⟨fun s o s' hm => ?_⟩
  obtain ⟨n, _, hn, h₁⟩ := bind_ok hm
  obtain ⟨hn, rfl⟩ := node_ok hn
  obtain ⟨_, _, hresolved, h₂⟩ := bind_ok h₁
  cases hresolved
  split at h₂
  · cases h₂
  · obtain ⟨_, s₁, hnote, h₃⟩ := bind_ok h₂
    obtain ⟨v, s₂, hv, h₄⟩ := bind_ok h₃
    have hrest : Carries R (if inRegister = true then toRegister v n.valueType id else pure v) := inferInstance
    have hvalue : Carries R (value rec id n) := inferInstance
    exact hR.enter hn (value_isExpr rec hv) hnote (hR.trans (hvalue.carries _ _ _ hv) (hrest.carries _ _ _ h₄))

/-! ### Statements -/

instance (id : NodeId) (n : Node) : Carries R (letStmt rec id n) := by
  unfold letStmt
  split
  · infer_instance
  · refine bind fun u => ?_
    split <;> infer_instance

instance (id : NodeId) (l : Label) : Carries R (condition rec id l) := by unfold condition; infer_instance

omit h in
instance (l : Label) : Carries R (jumpTo l) := by unfold jumpTo; infer_instance

instance (n : Node) : Carries R (ifStmt rec n) :=
  bind fun _ => ite inferInstance (bind fun _ => bind fun _ => bind fun _ => inferInstance)

instance (l : LoopTargets) (body : NodeId) : Carries R (inLoop rec l body) :=
  seq (modify fun _ => hR.frame _ _) fun _ => bind fun _ => modify fun _ => hR.frame _ _

instance (n : Node) : Carries R (whileLoop rec n) := by unfold whileLoop; infer_instance

instance (n : Node) : Carries R (forLoop rec n) := by
  unfold forLoop
  refine bind fun _ => bind fun top => bind fun again => bind fun exit => bind fun _ => ?_
  have body : Carries R (do
      inLoop rec { label := n.label, exit, again } n.d
      bindLabel again
      rec.stmt n.c
      jumpTo top
      bindLabel exit) := bind fun _ => bind fun _ => inferInstance
  exact ite (bind fun _ => body) body

omit h in
instance (op : Opcode) (it : Operand) (sym : SymbolId) : Carries R (fetch op it sym) := by unfold fetch; infer_instance

omit h in
/-- A variable may be set before the rest. -/
theorem fetch? {op : Opcode} {it : Operand} {v : Option SymbolId} {m : EmitM Unit} (hm : Carries R m) : Carries R (match v with
      | some x => do
        fetch op it x
        m
      | _ => m) := by
  split
  · exact bind fun _ => hm
  · exact hm

instance (id : NodeId) (n : Node) : Carries R (foreach rec id n) := by
  unfold foreach
  refine bind fun x => bind fun _ => bind fun _ => bind fun it => bind fun _ => bind fun _ => bind fun top => ?_
  exact bind fun exit => bind fun _ => bind fun _ => bind fun u => fetch? (fetch? inferInstance)

omit h in
theorem dispatch (tag : Operand) (arms : List NodeId) : ∀ fallback, Carries R (dispatch tag arms fallback) := by
  induction arms with
  | nil => exact fun _ => inferInstanceAs (Carries R (pure _))
  | cons c rest ih =>
    intro fallback
    unfold Emit.dispatch
    refine bind fun l => bind fun u => ?_
    split <;> infer_instance

omit h in
instance (tag : Operand) (arms : List NodeId) (fallback : Label) : Carries R (Emit.dispatch tag arms fallback) :=
  dispatch tag arms fallback

instance (subject : Operand) (stop : Label) (c : NodeId) (l : Label) : Carries R (arm rec subject stop c l) := by
  unfold arm
  exact bind fun _ => bind fun _ => bind fun _ => bind fun _ => fetch? inferInstance

instance (id : NodeId) (n : Node) (subject : Operand) (held : Bool) : Carries R (matchArms rec id n subject held) := by
  unfold matchArms
  exact bind fun _ => bind fun _ => bind fun _ => bind fun _ => bind fun p => bind fun _ => bind fun _ => inferInstance

instance (id : NodeId) (n : Node) : Carries R (matchStmt rec id n) := by rw [matchStmt_eq]; infer_instance

instance (n : Node) : Carries R (returnStmt rec n) := by unfold returnStmt; infer_instance

omit h in
instance (id : NodeId) (label : String) : Carries R (loopTarget id label) := by
  unfold loopTarget
  refine bind fun s => ?_
  split <;> infer_instance

instance (id : NodeId) : Carries R (stmtStep rec id) := by
  unfold stmtStep
  split
  · infer_instance
  · refine bind fun n => ?_
    split
    · infer_instance
    · refine bind fun _ => ?_
      split <;> infer_instance

end

instance emitter [hR : Closed R X] (fuel : Nat) : EmitterCarries R X (emitter fuel) := by
  induction fuel with
  | zero => exact ⟨fun _ _ => throws _, fun _ => throws _, fun _ _ => throws _⟩
  | succ fuel ih =>
    exact ⟨fun id b => exprStep_enters (R := R) _ id b, fun id => inferInstanceAs (Carries R (stmtStep _ id)),
      fun id t => inferInstanceAs (Carries R (zeroStep _ id t))⟩

end Carries

/-! ## Programs -/

/-- What `R` must also say for functions to be opened and closed, and for the program to be finished. -/
class ClosedProgram (R : EmitState → EmitState → Prop) (X : outParam (EmitState → EmitState → Prop)) : Prop
    extends Closed R X where
  reserve : Carries R reserve
  patch : ∀ ip slots, Carries R (patch ip slots)
  opening : ∀ (s : EmitState) (tracer : Tracer) (span : Nat) (frame : Frame), R s { s with tracer, span, frame }
  beginning : ∀ (s : EmitState) (name : String) (span : Span), R s { s with recorder := s.recorder.beginFunc name s.asm.pos span }
  closing : ∀ (s : EmitState) (index : Nat) (frame captures : Int) (tracer : Tracer),
    R s { s with
      asm := s.asm.setFrame index frame captures
      recorder := (s.recorder.endFunc? s.asm.pos).getD s.recorder
      tracer }
  globals : ∀ (s : EmitState) (n : Nat) (tracer : Tracer), R s { s with asm := s.asm.setGlobals n, tracer }

namespace Carries

section

variable [hR : Closed R X] (rec : Emitter) [h : EmitterCarries R X rec]

include hR

instance (st : StaticInit) : Carries R (emitStatic rec st) := by unfold emitStatic; infer_instance

instance : Carries R (entryCode rec) := by unfold entryCode; infer_instance

instance (body : NodeId) : Carries R (emitBody rec body) := by unfold emitBody; infer_instance

end

section

variable [hR : ClosedProgram R X] (rec : Emitter) [h : EmitterCarries R X rec]

include hR

instance : Carries R reserve := hR.reserve

instance (ip slots : Nat) : Carries R (patch ip slots) := hR.patch ip slots

instance : Carries R openEntry :=
  bind fun _ => bind fun _ => seq (modify fun s => hR.opening s s.tracer s.span {}) fun _ => inferInstance

instance : Carries R (emitEntry rec) := by
  refine bind fun p => ?_
  obtain ⟨entry, ip⟩ := p
  infer_instance

instance (fn : SymbolId) (entry : Label) : Carries R (openFunc fn entry) :=
  bind fun _ => bind fun _ => bind fun _ => bind fun _ => seq (modifyGet fun s => hR.opening s _ s.span _) fun _ =>
    bind fun _ => seq (modify fun s => hR.beginning s _ _) fun _ => inferInstance

instance (index : Nat) (span : OpenSpan) (ip : Nat) : Carries R (closeFunc index span ip) :=
  bind fun _ => bind fun _ => modify fun s => hR.closing s _ _ _ _

instance (fn : SymbolId) : Carries R (emitFunc rec fn) := by
  unfold emitFunc
  refine bind fun sym => bind fun n => bind fun s => ?_
  split <;> infer_instance

theorem emitQueue (rounds : Nat) : ∀ i, Carries R (emitQueue rec rounds i) := by
  induction rounds with
  | zero => exact fun _ => throws _
  | succ rounds ih =>
    intro i
    unfold Emit.emitQueue
    refine bind fun s => ?_
    split
    · infer_instance
    · exact bind fun _ => ih _

theorem run : Carries R run := by
  unfold Emit.run
  refine bind fun u => seq (modifyGet fun s => hR.opening s _ _ s.frame) fun _ => bind fun entry => ?_
  refine seq (emitQueue _ _ _) fun _ => seq (modify fun s => hR.globals s _ _) fun _ => bind fun s => ?_
  split
  · exact throws _
  · infer_instance

end

end Carries

end Emit

end TreeCompiler
