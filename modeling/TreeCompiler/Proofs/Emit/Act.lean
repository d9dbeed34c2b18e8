import TreeCompiler.Proofs.Emit.Once

/-!
# What emission does to its code and its types

* `Act` : one change of the code, of the type table or of the types met so far. An instruction that builds a value of a
  described type is a change of its own, and so is the first meeting with a type;
* `Acts` : any number of changes;
* `Performs m` : the computation `m` makes only such changes. The class finds its way through the control structures, and
  the instances below lead from the primitives to the whole run.
-/

namespace TreeCompiler

/-- The description of a type. -/
def AnalysisResult.typeRow? (u : AnalysisResult) (t : TypeId) : Option TypeRow :=
  (u.types.lookup? t).map fun ty =>
    { name := u.types.format t, kind := ty.kind.name, fields := ty.shape.fields.map (·.name) }

/-- The instructions that build values of described types. -/
def Opcode.isBuild : Opcode → Bool
  | makeStruct | makeVariant => true
  | _ => false

namespace Emit

/-- The instruction builds a value of the type `t`, whose row has the number `k`. -/
structure Builds (u : AnalysisResult) (t : TypeId) (k : Nat) (i : Instr) : Prop where
  op : i.op.isBuild = true
  row : i.a = .type k
  fields : i.op = .makeStruct → ∃ row, u.typeRow? t = some row ∧ i.b = .int row.fields.length

/-- The types met and their table are the same. -/
structure SameTypes (s s' : EmitState) : Prop where
  unit : s'.unit = s.unit
  rows : s'.typeRows = s.typeRows
  types : s'.asm.types = s.asm.types

theorem SameTypes.refl (s : EmitState) : SameTypes s s := ⟨rfl, rfl, rfl⟩

inductive Act : EmitState → EmitState → Prop
  | quiet {s s' : EmitState} (h : SameTypes s s') (code : s'.asm.code = s.asm.code) : Act s s'
  | emit {s s' : EmitState} (h : SameTypes s s') (i : Instr) (plain : i.op.isBuild = false)
      (code : s'.asm.code = s.asm.code.push i) : Act s s'
  | build {s s' : EmitState} (h : SameTypes s s') (t : TypeId) (k : Nat) (i : Instr) (row : s.typeRows.get? t = some k)
      (builds : Builds s.unit t k i) (code : s'.asm.code = s.asm.code.push i) : Act s s'
  | cut {s s' : EmitState} (h : SameTypes s s') (n : Nat) (code : s'.asm.code = s.asm.code.take n) : Act s s'
  | patch {s s' : EmitState} (h : SameTypes s s') (ip : Nat) (i : Instr) (o : Operand) (op : i.op = .reserve)
      (code : s'.asm.code = s.asm.code.setIfInBounds ip { i with a := o }) : Act s s'
  | describe {s s' : EmitState} (t : TypeId) (row : TypeRow) (new : s.typeRows.get? t = none)
      (of : s.unit.typeRow? t = some row) (unit : s'.unit = s.unit) (code : s'.asm.code = s.asm.code)
      (types : s'.asm.types = (s.asm.addType row).2.types)
      (rows : s'.typeRows = s.typeRows.insert t (s.asm.addType row).1) : Act s s'

abbrev Acts : EmitState → EmitState → Prop := Relation.ReflTransGen Act

theorem Acts.quiet {s s' : EmitState} (unit : s'.unit = s.unit) (rows : s'.typeRows = s.typeRows)
    (types : s'.asm.types = s.asm.types) (code : s'.asm.code = s.asm.code) : Acts s s' :=
  .single (.quiet ⟨unit, rows, types⟩ code)

/-! ## Computations -/

class Performs {α : Type} (m : EmitM α) : Prop where
  acts : ∀ s a s', m s = .ok a s' → Acts s s'

variable {α β : Type}

namespace Performs

theorem of_reads {m : EmitM α} (h : Reads m) : Performs m := ⟨fun s a s' hm => by rw [h s a s' hm]⟩

instance (a : α) : Performs (pure a : EmitM α) := of_reads (reads_pure a)

instance (e : EmitFailure) : Performs (throw e : EmitM α) := of_reads (reads_throw e)

instance (id : NodeId) (cause : EmitCause) : Performs (fatal id cause : EmitM α) := of_reads (reads_throw _)

instance : Performs (get : EmitM EmitState) := of_reads fun _ _ _ h => by cases h; rfl

theorem seq {x : EmitM α} {f : α → EmitM β} (hx : Performs x) (hf : ∀ a, Performs (f a)) : Performs (x >>= f) := by
  refine ⟨fun s c s' h => ?_⟩
  obtain ⟨a, s₁, hxs, hfs⟩ := bind_ok h
  exact (hx.acts s a s₁ hxs).trans ((hf a).acts s₁ c s' hfs)

/-- The first part is found by instance. -/
theorem bind {x : EmitM α} {f : α → EmitM β} [hx : Performs x] (hf : ∀ a, Performs (f a)) : Performs (x >>= f) := seq hx hf

instance {x : EmitM α} {f : α → EmitM β} [hx : Performs x] [hf : ∀ a, Performs (f a)] : Performs (x >>= f) := seq hx hf

theorem ite {c : Prop} [Decidable c] {x y : EmitM α} (hx : Performs x) (hy : Performs y) :
    Performs (if c then x else y) := by
  split
  · exact hx
  · exact hy

instance {c : Prop} [Decidable c] {x y : EmitM α} [hx : Performs x] [hy : Performs y] : Performs (if c then x else y) :=
  ite hx hy

theorem modify {f : EmitState → EmitState} (h : ∀ s, Acts s (f s)) : Performs (modify f : EmitM Unit) :=
  ⟨fun s a s' hm => by cases hm; exact h s⟩

theorem modifyGet {f : EmitState → α × EmitState} (h : ∀ s, Acts s (f s).2) : Performs (modifyGet f : EmitM α) :=
  ⟨fun s a s' hm => by cases hm; exact h s⟩

theorem forM {f : α → EmitM PUnit} (l : List α) (h : ∀ a, Performs (f a)) : Performs (l.forM f) := by
  induction l with
  | nil => exact inferInstanceAs (Performs (pure _))
  | cons a l ih => exact seq (h a) fun _ => ih

instance (l : List α) (f : α → EmitM PUnit) [h : ∀ a, Performs (f a)] : Performs (l.forM f) := forM l h

theorem mapM {f : α → EmitM β} (l : List α) (h : ∀ a, Performs (f a)) : Performs (l.mapM f) := by
  induction l with
  | nil => exact inferInstanceAs (Performs (pure _))
  | cons a l ih =>
    rw [List.mapM_cons]
    exact seq (h a) fun _ => seq ih fun _ => inferInstance

instance (l : List α) (f : α → EmitM β) [h : ∀ a, Performs (f a)] : Performs (l.mapM f) := mapM l h

theorem foldlM {f : β → α → EmitM β} (l : List α) (b : β) (h : ∀ b a, Performs (f b a)) : Performs (l.foldlM f b) := by
  induction l generalizing b with
  | nil => exact inferInstanceAs (Performs (pure _))
  | cons a l ih => exact seq (h b a) ih

instance (l : List α) (f : β → α → EmitM β) (b : β) [h : ∀ b a, Performs (f b a)] : Performs (l.foldlM f b) :=
  foldlM l b h

theorem forIn {f : α → β → EmitM (ForInStep β)} (l : List α) (b : β) (h : ∀ a b, Performs (f a b)) :
    Performs (forIn l b f) := by
  induction l generalizing b with
  | nil => exact inferInstanceAs (Performs (pure _))
  | cons a l ih =>
    rw [List.forIn_cons]
    refine seq (h a b) fun r => ?_
    cases r
    · exact inferInstanceAs (Performs (pure _))
    · exact ih _

instance (l : List α) (f : α → β → EmitM (ForInStep β)) (b : β) [h : ∀ a b, Performs (f a b)] :
    Performs (ForIn.forIn l b f) := forIn l b h

/-! ### The primitives -/

instance : Performs unit := of_reads reads_unit

instance (id : NodeId) : Performs (node id) := by
  unfold node
  refine bind fun u => ?_
  split <;> infer_instance

instance (id : NodeId) : Performs (kindOf id) := by unfold kindOf; infer_instance

instance (id : SymbolId) : Performs (symbol id) := of_reads fun _ _ _ h => (symbol_ok h).2

instance (sym : Symbol) : Performs (declaration sym) := of_reads fun _ _ _ h => (declaration_ok h).2

instance (fn : SymbolId) : Performs (funcScope fn) := of_reads fun _ _ _ h => (funcScope_ok h).2

instance (fn : SymbolId) : Performs (funcName fn) := of_reads (reads_funcName fn)

instance (t : TypeId) : Performs (typeInfo t) := by
  unfold typeInfo
  refine bind fun u => ?_
  split <;> infer_instance

instance (t : TypeId) : Performs (typeKind t) := by unfold typeKind; infer_instance

instance (t : TypeId) : Performs (isResolved t) := by unfold isResolved; infer_instance

theorem emit (i : Instr) (h : i.op.isBuild = false) : Performs (emit i) :=
  modify fun _ => .single (.emit ⟨rfl, rfl, rfl⟩ i h rfl)

instance (span : Span) : Performs (note span) := modify fun _ => .quiet rfl rfl rfl rfl

instance : Performs newLabel := modifyGet fun _ => .quiet rfl rfl rfl rfl

instance (l : Label) : Performs (bindLabel l) := by
  refine ⟨fun s a s' h => ?_⟩
  obtain ⟨-, -, rfl⟩ := bindLabel_ok h
  exact .quiet rfl rfl rfl rfl

instance : Performs reserve := modifyGet fun _ => .single (.emit ⟨rfl, rfl, rfl⟩ { op := .reserve, a := .int 0 } rfl rfl)

theorem types_addString (a : Assembler) (text : String) :
    (a.addString text).2.types = a.types ∧ (a.addString text).2.code = a.code := by
  unfold Assembler.addString
  split
  · exact ⟨rfl, rfl⟩
  · exact ⟨rfl, rfl⟩

instance (text : String) : Performs (stringRef text) :=
  modifyGet fun s => .quiet rfl rfl (types_addString s.asm text).1 (types_addString s.asm text).2

instance (t : TypeId) : Performs (isValue t) := by
  unfold isValue
  refine bind fun k => ?_
  split <;> infer_instance

instance (id : NodeId) : Performs (acquireValue id) := by
  refine ⟨fun s a s' h => ?_⟩
  obtain ⟨_, -, rfl⟩ := acquireValue_ok h
  exact .quiet rfl rfl rfl rfl

instance (id : NodeId) : Performs (acquireRef id) := by
  refine ⟨fun s a s' h => ?_⟩
  obtain ⟨_, -, rfl⟩ := acquireRef_ok h
  exact .quiet rfl rfl rfl rfl

instance (step : Pool → Except EmitCause Pool) : Performs (withValues step) := by
  refine ⟨fun s a s' h => ?_⟩
  obtain ⟨_, -, rfl⟩ := withValues_ok h
  exact .quiet rfl rfl rfl rfl

instance (step : Pool → Except EmitCause Pool) : Performs (withRefs step) := by
  refine ⟨fun s a s' h => ?_⟩
  obtain ⟨_, -, rfl⟩ := withRefs_ok h
  exact .quiet rfl rfl rfl rfl

instance (o : Operand) : Performs (free o) := by
  unfold free
  split <;> infer_instance

instance (o : Operand) (t : TypeId) (id : NodeId) : Performs (toRegister o t id) := by
  have fetch (r : Operand) : Performs (Emit.emit { op := .mov, a := r, b := o }) := emit _ rfl
  unfold toRegister
  split <;> infer_instance

instance (o : Operand) (t : TypeId) (id : NodeId) : Performs (stable o t id) := by unfold stable; infer_instance

instance (dst src : Operand) : Performs (move dst src) := by
  have copy : Performs (Emit.emit { op := .mov, a := dst, b := src }) := emit _ rfl
  unfold move
  infer_instance

instance (o : Operand) : Performs (pushOperand o) := by
  have push : Performs (Emit.emit { op := .push, a := o }) := emit _ rfl
  unfold pushOperand
  infer_instance

instance : Performs spill := modifyGet fun _ => .quiet rfl rfl rfl rfl

instance (n : Nat) : Performs (unspill n) := modify fun _ => .quiet rfl rfl rfl rfl

instance : Performs mark := by unfold mark; infer_instance

instance (m : Mark) : Performs (rewind m) := modify fun _ => .single (.cut ⟨rfl, rfl, rfl⟩ m.code.ip rfl)

instance (fn : SymbolId) : Performs (funcRef fn) := by
  unfold funcRef
  refine bind fun s => ?_
  split
  · infer_instance
  · exact bind fun sym => bind fun n => bind fun name => modifyGet fun _ => .quiet rfl rfl rfl rfl

instance (fn : SymbolId) : Performs (nativeRef fn) := by
  unfold nativeRef
  refine bind fun s => ?_
  split
  · infer_instance
  · exact bind fun sym => bind fun u => bind fun n => modifyGet fun _ => .quiet rfl rfl rfl rfl

instance (id : SymbolId) : Performs (storage id) := by
  unfold storage
  refine bind fun sym => bind fun s => ?_
  dsimp only
  split <;> infer_instance

end Performs

/-! ### Rows of types -/

theorem typeInfo_ok {t : TypeId} {s s' : EmitState} {ty : Ty} (h : typeInfo t s = .ok ty s') :
    s.unit.types.lookup? t = some ty ∧ s' = s := by
  obtain ⟨u, s₁, hu, hcase⟩ := bind_ok h
  cases hu
  cases hty : s.unit.types.lookup? t with
  | none =>
    rw [hty] at hcase
    cases hcase
  | some ty =>
    rw [hty] at hcase
    cases hcase
    exact ⟨rfl, rfl⟩

theorem code_addType (a : Assembler) (row : TypeRow) : (a.addType row).2.code = a.code := by
  unfold Assembler.addType
  split
  · rfl
  · rfl

/-- Asking for the row of a type describes it unless it has been met. -/
theorem typeRef_ok {t : TypeId} {s s' : EmitState} {k : Nat} (h : typeRef t s = .ok k s') :
    Acts s s' ∧ s'.typeRows.get? t = some k := by
  unfold typeRef at h
  rw [get_bind_apply] at h
  cases hk : s.typeRows.get? t with
  | some j =>
    rw [hk] at h
    cases h
    exact ⟨.refl, hk⟩
  | none =>
    rw [hk] at h
    obtain ⟨ty, s₁, hinfo, hrest⟩ := bind_ok h
    obtain ⟨hty, rfl⟩ := typeInfo_ok hinfo
    obtain ⟨u, s₂, hu, hadd⟩ := bind_ok hrest
    cases hu
    cases hadd
    refine ⟨.single (.describe t _ hk ?_ rfl ?_ rfl rfl), ?_⟩
    · rw [AnalysisResult.typeRow?, hty]
      rfl
    · exact code_addType s₁.asm _
    · rw [IdMap.get?_insert, if_pos rfl]

theorem Act.unit {s s' : EmitState} (h : Act s s') : s'.unit = s.unit := by
  cases h with
  | quiet h | emit h | build h | cut h | patch h => exact h.unit
  | describe _ _ _ _ unit => exact unit

theorem Acts.unit {s s' : EmitState} (h : Acts s s') : s'.unit = s.unit := by
  induction h with
  | refl => rfl
  | tail _ h ih => exact h.unit.trans ih

/-- An instruction that names the row of the type it builds. -/
theorem acts_build {t : TypeId} {k : Nat} {i : Instr} {s s₁ s₂ : EmitState} {a : Unit} (href : typeRef t s = .ok k s₁)
    (hemit : emit i s₁ = .ok a s₂) (hi : Builds s.unit t k i) : Acts s s₂ := by
  obtain ⟨hacts, hk⟩ := typeRef_ok href
  cases hemit
  refine hacts.tail (.build ⟨rfl, rfl, rfl⟩ t k i hk ?_ rfl)
  rw [hacts.unit]
  exact hi

theorem Performs.build {t : TypeId} {i : Nat → Instr} (hi : ∀ u k, Builds u t k (i k)) :
    Performs (typeRef t >>= fun k => Emit.emit (i k)) := by
  refine ⟨fun s a s' h => ?_⟩
  obtain ⟨k, s₁, href, hemit⟩ := bind_ok h
  exact acts_build href hemit (hi s.unit k)

/-! ## The generator -/

class EmitterPerforms (rec : Emitter) : Prop where
  expr : ∀ id b, Performs (rec.expr id b)
  stmt : ∀ id, Performs (rec.stmt id)
  zero : ∀ id t, Performs (rec.zero id t)

def Yields (m : EmitM α) (P : α → Prop) : Prop := ∀ s a s', m s = .ok a s' → P a

theorem Yields.bind {x : EmitM α} {f : α → EmitM β} {P : β → Prop} (hf : ∀ a, Yields (f a) P) : Yields (x >>= f) P := by
  intro s c s' h
  obtain ⟨a, s₁, -, hfs⟩ := bind_ok h
  exact hf a s₁ c s' hfs

theorem Yields.pure {a : α} {P : α → Prop} (h : P a) : Yields (Pure.pure a) P := fun _ _ _ hm => by cases hm; exact h

theorem Yields.ite {c : Prop} [Decidable c] {x y : EmitM α} {P : α → Prop} (hx : Yields x P) (hy : Yields y P) :
    Yields (if c then x else y) P := by
  split
  · exact hx
  · exact hy

namespace Performs

instance (id : NodeId) : Performs (stores id) := by
  unfold stores
  refine bind fun u => ?_
  dsimp only
  split <;> infer_instance

theorem storesAfter (ids : List NodeId) : Performs (storesAfter ids) := by
  fun_induction Emit.storesAfter ids with
  | case1 => infer_instance
  | case2 => infer_instance
  | case3 _ next rest ih => exact seq ih fun tail => inferInstance

instance (ids : List NodeId) : Performs (Emit.storesAfter ids) := storesAfter ids

instance (id : NodeId) : Performs (binding id) := by
  unfold binding
  refine bind fun u => ?_
  split <;> infer_instance

instance (id : NodeId) (n : Node) : Performs (fieldOperand id n) := by
  unfold fieldOperand
  refine bind fun u => ?_
  split <;> infer_instance

instance (id : NodeId) : Performs (valueKind id) := by unfold valueKind; infer_instance

instance (id : NodeId) (op : Operator) (l r : NodeId) : Performs (binaryCode id op l r) := by
  unfold binaryCode
  split <;> infer_instance

instance (t : TypeId) : Performs (fieldDefaults t) := by
  unfold fieldDefaults
  refine bind fun u => ?_
  split <;> infer_instance

instance (list : List NodeId) : Performs (givenFields list) := by unfold givenFields; infer_instance

section

variable (rec : Emitter) [h : EmitterPerforms rec]

instance (id : NodeId) (b : Bool) : Performs (rec.expr id b) := h.expr id b

instance (id : NodeId) : Performs (rec.stmt id) := h.stmt id

instance (id : NodeId) (t : TypeId) : Performs (rec.zero id t) := h.zero id t

instance (id : NodeId) : Performs (exprAny rec id) := h.expr id false

instance (id : NodeId) : Performs (push rec id) := by unfold push; infer_instance

instance (ids : List NodeId) : Performs (pushAll rec ids) := by unfold pushAll; infer_instance

instance (id : NodeId) (forced storesLater : Bool) : Performs (evaluate rec id forced storesLater) := by
  unfold evaluate; infer_instance

theorem evaluateAll (l : List (NodeId × Bool × Bool)) : Performs (Emit.evaluateAll rec l) := by
  induction l with
  | nil => exact inferInstanceAs (Performs (pure _))
  | cons p l ih => exact bind fun e => seq ih fun es => inferInstance

theorem operandsAux (ids : List NodeId) (storing : List Bool) (fuel : Nat) :
    ∀ forced, Performs (Emit.operandsAux rec ids storing fuel forced) := by
  induction fuel with
  | zero => exact fun _ => inferInstanceAs (Performs (throw _))
  | succ fuel ih =>
    intro forced
    unfold Emit.operandsAux
    have hall := evaluateAll rec (ids.zip (forced.zip storing))
    infer_instance

instance (ids : List NodeId) : Performs (operands rec ids) := bind fun _ => operandsAux rec _ _ _ _

instance (a b : NodeId) : Performs (operands2 rec a b) := by
  unfold operands2
  refine bind fun os => ?_
  split <;> infer_instance

instance (a b c : NodeId) : Performs (operands3 rec a b c) := by
  unfold operands3
  refine bind fun os => ?_
  split <;> infer_instance

end

/-- What holds of the results of a computation may be used after it. -/
theorem knowing {x : EmitM α} {f : α → EmitM β} {P : α → Prop} [hx : Performs x] (hP : Yields x P)
    (hf : ∀ a, P a → Performs (f a)) : Performs (x >>= f) := by
  refine ⟨fun s c s' h => ?_⟩
  obtain ⟨a, s₁, hxs, hfs⟩ := bind_ok h
  exact (hx.acts s a s₁ hxs).trans ((hf a (hP s a s₁ hxs)).acts s₁ c s' hfs)

/-! ### Values -/

theorem isBuild_specializeFor {code : Opcode} (h : code.isBuild = false) (p : Option Prim) :
    (specializeFor code p).isBuild = false := by
  cases p with
  | none => exact h
  | some p => cases code <;> cases p <;> first | rfl | exact h

theorem isBuild_binaryCode? {op : Operator} {code : Opcode} (h : binaryCode? op = some code) : code.isBuild = false := by
  cases op <;> cases h <;> rfl

theorem isBuild_unaryCode? {op : Operator} {code : Opcode} (h : unaryCode? op = some code) : code.isBuild = false := by
  cases op <;> cases h <;> rfl

theorem yields_binaryCode (id : NodeId) (op : Operator) (l r : NodeId) :
    Yields (binaryCode id op l r) fun code => code.isBuild = false := by
  unfold binaryCode
  cases hc : binaryCode? op with
  | none => exact fun _ _ _ h => by cases h
  | some code =>
    have hplain := isBuild_binaryCode? hc
    exact .bind fun lk => .bind fun rk => .ite (.pure hplain) (.pure (isBuild_specializeFor hplain _))

section

variable (rec : Emitter) [EmitterPerforms rec]

instance (id : NodeId) (n : Node) : Performs (logical rec id n) := by
  have jump (res : Operand) (l : Label) :
      Performs (Emit.emit { op := if n.op = .or then .jumpIf else .jumpUnless, a := res, b := .label l }) :=
    emit _ (by dsimp only; split <;> rfl)
  unfold logical
  infer_instance

instance (id : NodeId) (n : Node) : Performs (binary rec id n) := by
  have operate {code : Opcode} (h : code.isBuild = false) (l r : Operand) :
      Performs (Emit.emit { op := code, a := l, b := r }) := emit _ h
  unfold binary
  split
  · infer_instance
  · exact knowing (yields_binaryCode _ _ _ _) fun code h => bind fun p => seq (operate h p.1 p.2) fun _ => inferInstance

instance (n : Node) : Performs (unary rec n) := by
  unfold unary
  split
  · rename_i code hcode
    refine bind fun k => bind fun x => seq (emit _ ?_) fun _ => inferInstance
    exact isBuild_specializeFor (isBuild_unaryCode? hcode) _
  · infer_instance

/-- A union value without payload names the row of its type. -/
instance (id : NodeId) (n : Node) : Performs (name id n) := by
  unfold name
  refine bind fun v => bind fun sym => ?_
  split
  · infer_instance
  · infer_instance
  · have make : Performs (typeRef n.valueType >>= fun k =>
        Emit.emit { op := .makeVariant, a := .type k, b := .int sym.tag, c := .int 0 }) :=
      build fun _ _ => ⟨rfl, rfl, nofun⟩
    rw [← bind_assoc]
    infer_instance
  · infer_instance

instance (id : NodeId) : Performs (literal id) := by
  have capture (o : Operand) : Performs (Emit.emit { op := .push, a := o }) := emit _ rfl
  have close (f n : Operand) : Performs (Emit.emit { op := .makeClosure, a := f, b := n }) := emit _ rfl
  unfold literal
  refine bind fun u => ?_
  split
  · infer_instance
  · infer_instance

instance (id : NodeId) (n : Node) : Performs (assignName rec id n) := by
  have operate {code : Opcode} (h : code.isBuild = false) (l r : Operand) :
      Performs (Emit.emit { op := code, a := l, b := r }) := emit _ h
  unfold assignName
  refine bind fun v => bind fun dst => ?_
  split
  · infer_instance
  · refine bind fun p => knowing (yields_binaryCode _ _ _ _) fun code h => ?_
    exact seq (operate h p.1 p.2) fun _ => inferInstance

instance (id : NodeId) (n : Node) (value : Operand) : Performs (combine id n value) :=
  knowing (yields_binaryCode _ _ _ _) fun _ h => seq (emit _ h) fun _ => inferInstance

instance (id : NodeId) (n tn : Node) : Performs (assignElement rec id n tn) := by
  have store (x k v : Operand) : Performs (Emit.emit { op := .setIndex, a := x, b := k, c := v }) := emit _ rfl
  have load (x k : Operand) : Performs (Emit.emit { op := .index, a := x, b := k }) := emit _ rfl
  unfold assignElement
  refine bind fun p => ?_
  obtain ⟨x, k, v⟩ := p
  dsimp only
  split
  · infer_instance
  · refine bind fun an => bind fun x => bind fun kn => bind fun k => bind fun vn => bind fun v => bind fun _ => ?_
    exact bind fun v => inferInstance

instance (id : NodeId) (n tn : Node) : Performs (assignMember rec id n tn) := by
  have store (x k v : Operand) : Performs (Emit.emit { op := .setField, a := x, b := k, c := v }) := emit _ rfl
  have load (x k : Operand) : Performs (Emit.emit { op := .field, a := x, b := k }) := emit _ rfl
  unfold assignMember
  refine bind fun p => ?_
  obtain ⟨x, v⟩ := p
  refine bind fun field => ?_
  split
  · infer_instance
  · refine bind fun an => bind fun x => bind fun vn => bind fun v => bind fun _ => ?_
    exact bind fun v => inferInstance

instance (id : NodeId) (n : Node) : Performs (assign rec id n) := by
  unfold assign
  refine bind fun tn => ?_
  split <;> infer_instance

/-- The fields are pushed, then the row of the type is named. -/
theorem makeStruct_ok {id : NodeId} {t : TypeId} {given : List (String × NodeId)} {s s' : EmitState} {o : Operand}
    (h : makeStruct rec id t given s = .ok o s') :
    ∃ s₁ s₂ k row, Acts s s₁ ∧ typeRef t s₁ = .ok k s₂ ∧ s.unit.typeRow? t = some row ∧
      Emit.emit { op := .makeStruct, a := .type k, b := .int row.fields.length } s₂ = .ok () s' := by
  obtain ⟨ty, s₁, hinfo, hrest⟩ := bind_ok h
  obtain ⟨hty, rfl⟩ := typeInfo_ok hinfo
  obtain ⟨defaults, s₂, hdefaults, hrest⟩ := bind_ok hrest
  have hacts₂ := (inferInstance : Performs (fieldDefaults t)).acts _ _ _ hdefaults
  obtain ⟨_, s₃, hloop, hrest⟩ := bind_ok hrest
  have hacts₃ : Acts s₂ s₃ := by
    refine (forIn _ _ fun p _ => ?_).acts _ _ _ hloop
    obtain ⟨f, i⟩ := p
    dsimp only
    split <;> infer_instance
  obtain ⟨k, s₄, href, hrest⟩ := bind_ok hrest
  obtain ⟨_, s₅, hemit, hlast⟩ := bind_ok hrest
  cases hlast
  refine ⟨s₃, s₄, k, _, hacts₂.trans hacts₃, href, by rw [AnalysisResult.typeRow?, hty]; rfl, ?_⟩
  simpa only [List.length_map] using hemit

instance (id : NodeId) (t : TypeId) (given : List (String × NodeId)) : Performs (makeStruct rec id t given) := by
  refine ⟨fun s o s' h => ?_⟩
  obtain ⟨s₁, s₂, k, row, hacts, href, hrow, hemit⟩ := makeStruct_ok rec h
  refine hacts.trans (acts_build href hemit ⟨rfl, rfl, fun _ => ⟨row, ?_, rfl⟩⟩)
  rw [hacts.unit]
  exact hrow

instance (id : NodeId) (t : TypeId) : Performs (zeroStep rec id t) := by
  have array : Performs (Emit.emit { op := .makeArray, a := .int 0 }) := emit _ rfl
  have map : Performs (Emit.emit { op := .makeMap, a := .int 0 }) := emit _ rfl
  have tuple (n : Operand) : Performs (Emit.emit { op := .makeTuple, a := n }) := emit _ rfl
  unfold zeroStep
  refine bind fun ty => ?_
  split <;> infer_instance

instance (id : NodeId) (n : Node) : Performs (cast rec id n) := by
  have convert (v t : Operand) : Performs (Emit.emit { op := .cast, a := v, b := t }) := emit _ rfl
  unfold cast
  infer_instance

/-! ### Calls -/

omit [EmitterPerforms rec] in
instance : Performs spillLive := by
  have save (slot reg : Operand) : Performs (Emit.emit { op := .mov, a := slot, b := reg }) := emit _ rfl
  unfold spillLive
  infer_instance

omit [EmitterPerforms rec] in
instance (saved : List (Operand × Operand)) : Performs (restoreLive saved) :=
  seq (forM _ fun _ => emit _ rfl) fun _ => inferInstance

instance (arg : NodeId) : Performs (pushArg rec arg) := by
  have spread (v n : Operand) : Performs (Emit.emit { op := .unpack, a := v, b := n }) := emit _ rfl
  unfold pushArg
  infer_instance

theorem makeVariant_ok {id : NodeId} {n : Node} {target : SymbolId} {s s' : EmitState} {o : Operand}
    (h : makeVariant rec id n target s = .ok o s') :
    ∃ s₁ s₂ k tag, Acts s s₁ ∧ typeRef n.valueType s₁ = .ok k s₂ ∧
      Emit.emit { op := .makeVariant, a := .type k, b := tag, c := .int n.list.length } s₂ = .ok () s' := by
  obtain ⟨sym, s₁, hsym, hrest⟩ := bind_ok h
  obtain ⟨-, rfl⟩ := symbol_ok hsym
  obtain ⟨_, s₂, hpush, hrest⟩ := bind_ok hrest
  obtain ⟨k, s₃, href, hrest⟩ := bind_ok hrest
  obtain ⟨_, s₄, hemit, hrest⟩ := bind_ok hrest
  obtain ⟨r, s₅, hr, hlast⟩ := bind_ok hrest
  cases hr
  refine ⟨s₂, s₃, k, .int sym.tag, (inferInstance : Performs (pushAll rec n.list)).acts _ _ _ hpush, href, ?_⟩
  split at hlast
  · cases hlast
  · cases hlast
    exact hemit

instance (id : NodeId) (n : Node) (target : SymbolId) : Performs (makeVariant rec id n target) := by
  refine ⟨fun s o s' h => ?_⟩
  obtain ⟨s₁, s₂, k, tag, hacts, href, hemit⟩ := makeVariant_ok rec h
  exact hacts.trans (acts_build href hemit ⟨rfl, rfl, nofun⟩)

instance (id : NodeId) (n : Node) (info : CallInfo) : Performs (calleeOperand rec id n info) := by
  unfold calleeOperand
  split <;> infer_instance

omit [EmitterPerforms rec] in
instance : Performs saveSpread := by
  have save (slot : Operand) : Performs (Emit.emit { op := .mov, a := slot, b := .spreadCount }) := emit _ rfl
  unfold saveSpread
  infer_instance

omit [EmitterPerforms rec] in
instance (spread : Bool) : Performs (beginSpread spread) := by
  unfold beginSpread
  split
  · refine bind fun saved => seq (emit _ rfl) fun _ => seq (modify fun _ => ?_) fun _ => inferInstance
    exact .quiet rfl rfl rfl rfl
  · infer_instance

omit [EmitterPerforms rec] in
instance (spread : Bool) : Performs (endSpread spread) := modify fun _ => .quiet rfl rfl rfl rfl

omit [EmitterPerforms rec] in
instance (saved : Option Operand) : Performs (restoreSpread saved) := by
  cases saved with
  | none => exact inferInstanceAs (Performs (pure _))
  | some slot => exact seq (emit _ rfl) fun _ => inferInstance

instance (n : Node) (method : Bool) : Performs (pushArgs rec n method) := by unfold pushArgs; infer_instance

omit [EmitterPerforms rec] in
theorem yields_calleeOperand (id : NodeId) (n : Node) (info : CallInfo) :
    Yields (calleeOperand rec id n info) fun p => p.1.isBuild = false := by
  unfold calleeOperand
  split
  · exact .bind fun _ => .pure rfl
  · exact .bind fun _ => .pure rfl
  · exact .bind fun _ => .bind fun _ => .bind fun _ => .pure rfl

omit [EmitterPerforms rec] in
theorem invoke {op : Opcode} (h : op.isBuild = false) (callee : Operand) (fixed : Nat) :
    Performs (invoke op callee fixed) := bind fun _ => seq (emit _ h) fun _ => inferInstance

instance (id : NodeId) (n : Node) : Performs (call rec id n) := by
  unfold call
  refine bind fun u => ?_
  split
  · split
    · infer_instance
    · refine knowing (yields_calleeOperand rec _ _ _) fun p hp => ?_
      obtain ⟨op, callee⟩ := p
      have invoked (fixed : Nat) := invoke hp callee fixed
      refine bind fun u => bind fun saved => bind fun fixed => bind fun _ => bind fun _ => ?_
      infer_instance
  · infer_instance

/-! ### Every kind of expression -/

instance (id : NodeId) (n : Node) : Performs (value rec id n) := by
  have access (op : Opcode) (h : op.isBuild = false) (x k : Operand) : Performs (Emit.emit { op, a := x, b := k }) :=
    emit _ h
  have collect (op : Opcode) (h : op.isBuild = false) (k : Operand) : Performs (Emit.emit { op, a := k }) := emit _ h
  unfold value
  split
  all_goals first | infer_instance | skip
  · exact bind fun p => seq (access .index rfl _ _) fun _ => inferInstance
  · exact bind fun x => bind fun f => seq (access .field rfl _ _) fun _ => inferInstance
  · exact bind fun _ => seq (collect .makeArray rfl _) fun _ => inferInstance
  · exact bind fun _ => seq (collect .makeMap rfl _) fun _ => inferInstance
  · exact bind fun _ => seq (collect .makeTuple rfl _) fun _ => inferInstance

instance (id : NodeId) (inRegister : Bool) : Performs (exprStep rec id inRegister) := by
  unfold exprStep; infer_instance

/-! ### Statements -/

instance (id : NodeId) (n : Node) : Performs (letStmt rec id n) := by
  unfold letStmt
  split
  · infer_instance
  · refine bind fun u => ?_
    split <;> infer_instance

instance (id : NodeId) (l : Label) : Performs (condition rec id l) :=
  bind fun _ => seq (emit _ rfl) fun _ => inferInstance

omit [EmitterPerforms rec] in
instance (l : Label) : Performs (jumpTo l) := emit _ rfl

instance (n : Node) : Performs (ifStmt rec n) := by
  unfold ifStmt
  refine bind fun stop => ?_
  split
  · infer_instance
  · exact bind fun no => bind fun _ => bind fun _ => inferInstance

instance (l : LoopTargets) (body : NodeId) : Performs (inLoop rec l body) :=
  seq (modify fun _ => .quiet rfl rfl rfl rfl) fun _ => bind fun _ => modify fun _ => .quiet rfl rfl rfl rfl

instance (n : Node) : Performs (whileLoop rec n) := by unfold whileLoop; infer_instance

instance (n : Node) : Performs (forLoop rec n) := by
  unfold forLoop
  refine bind fun _ => bind fun top => bind fun again => bind fun exit => bind fun _ => ?_
  infer_instance

omit [EmitterPerforms rec] in
/-- A variable may be set before the rest. -/
theorem fetch? {op : Opcode} (h : op.isBuild = false) (it : Operand) (v : Option SymbolId) {m : EmitM Unit}
    (hm : Performs m) : Performs (match v with
      | some x => do
        fetch op it x
        m
      | _ => m) := by
  split
  · exact seq (seq (emit _ h) fun _ => inferInstance) fun _ => hm
  · exact hm

instance (id : NodeId) (n : Node) : Performs (foreach rec id n) := by
  unfold foreach
  refine bind fun x => seq (emit _ rfl) fun _ => bind fun _ => bind fun it => seq (emit _ rfl) fun _ => bind fun _ => ?_
  refine bind fun top => bind fun exit => bind fun _ => seq (emit _ rfl) fun _ => bind fun u => ?_
  exact fetch? rfl it _ (fetch? rfl it _ inferInstance)

omit [EmitterPerforms rec] in
theorem dispatch (tag : Operand) (arms : List NodeId) : ∀ fallback, Performs (dispatch tag arms fallback) := by
  induction arms with
  | nil => exact fun _ => inferInstanceAs (Performs (pure _))
  | cons c rest ih =>
    intro fallback
    unfold Emit.dispatch
    refine bind fun l => bind fun u => ?_
    split
    · have label (p : List Label × Label) : Performs (pure (l :: p.1, p.2) : EmitM (List Label × Label)) := inferInstance
      refine ite ?_ (seq (ih _) label)
      exact seq (emit _ rfl) fun _ => seq (emit _ rfl) fun _ => seq (ih _) label
    · infer_instance

instance (subject : Operand) (stop : Label) (c : NodeId) (l : Label) : Performs (arm rec subject stop c l) := by
  unfold arm
  exact bind fun _ => bind fun cn => bind fun _ => bind fun u => fetch? rfl subject _ inferInstance

theorem arms (id : NodeId) (n : Node) (subject : Operand) {last : EmitM Unit} (hlast : Performs last) : Performs (do
    Emit.emit { op := .tag, a := subject }
    let tag ← acquireValue id
    Emit.emit { op := .mov, a := tag, b := .accumulator }
    let stop ← newLabel
    let (labels, fallback) ← Emit.dispatch tag n.list stop
    jumpTo fallback
    withValues (·.release tag.val.toNat)
    (n.list.zip labels).forM fun (c, l) => arm rec subject stop c l
    bindLabel stop
    last) := by
  refine seq (emit _ rfl) fun _ => bind fun tag => seq (emit _ rfl) fun _ => bind fun stop => seq (dispatch tag _ stop) fun p => ?_
  refine bind fun _ => bind fun _ => seq (forM _ fun q => ?_) fun _ => bind fun _ => hlast
  exact (inferInstance : Performs (arm rec subject stop q.1 q.2))

instance (id : NodeId) (n : Node) : Performs (matchStmt rec id n) := by
  unfold matchStmt
  refine bind fun v => bind fun an => bind fun subject => ite (bind fun _ => ?_) ?_
  · exact arms rec id n subject inferInstance
  · exact arms rec id n subject inferInstance

instance (n : Node) : Performs (returnStmt rec n) := by
  unfold returnStmt
  refine bind fun s => ite (ite ?_ (emit _ rfl)) (ite (emit _ rfl) ?_)
  · exact bind fun _ => bind fun _ => emit _ rfl
  · exact bind fun _ => seq (emit _ rfl) fun _ => inferInstance

omit [EmitterPerforms rec] in
instance (id : NodeId) (label : String) : Performs (loopTarget id label) := by
  unfold loopTarget
  refine bind fun s => ?_
  split <;> infer_instance

instance (id : NodeId) : Performs (stmtStep rec id) := by
  unfold stmtStep
  refine ite inferInstance (bind fun n => ite inferInstance (bind fun _ => ?_))
  split <;> infer_instance

end

theorem emitter (fuel : Nat) : EmitterPerforms (emitter fuel) := by
  induction fuel with
  | zero => exact ⟨fun _ _ => inferInstanceAs (Performs (throw _)), fun _ => inferInstanceAs (Performs (throw _)),
      fun _ _ => inferInstanceAs (Performs (throw _))⟩
  | succ fuel ih =>
    exact ⟨fun id b => inferInstanceAs (Performs (exprStep _ id b)), fun id => inferInstanceAs (Performs (stmtStep _ id)),
      fun id t => inferInstanceAs (Performs (zeroStep _ id t))⟩

/-! ### The run -/

instance (fuel : Nat) : EmitterPerforms (Emit.emitter fuel) := emitter fuel

instance (ip slots : Nat) : Performs (patch ip slots) := by
  refine ⟨fun s a s' h => ?_⟩
  obtain ⟨i, -, hop, rfl⟩ := patch_ok h
  exact .single (.patch ⟨rfl, rfl, rfl⟩ ip i _ hop rfl)

section

variable (rec : Emitter) [EmitterPerforms rec]

instance (st : StaticInit) : Performs (emitStatic rec st) := by unfold emitStatic; infer_instance

omit [EmitterPerforms rec] in
instance : Performs openEntry :=
  bind fun _ => bind fun _ => seq (modify fun _ => .quiet rfl rfl rfl rfl) fun _ => inferInstance

instance : Performs (entryCode rec) := bind fun _ => bind fun _ => bind fun _ => emit _ rfl

instance : Performs (emitEntry rec) := by unfold emitEntry; infer_instance

instance (body : NodeId) : Performs (emitBody rec body) := by
  unfold emitBody
  refine bind fun k => ite (bind fun n => bind fun _ => emit _ rfl) (ite ?_ inferInstance)
  exact bind fun _ => emit _ rfl

omit [EmitterPerforms rec] in
instance (fn : SymbolId) (entry : Label) : Performs (openFunc fn entry) := by
  unfold openFunc
  refine bind fun sym => bind fun n => bind fun scope => bind fun name => seq (modifyGet fun _ => ?_) fun span => ?_
  · exact .quiet rfl rfl rfl rfl
  · exact bind fun _ => seq (modify fun _ => .quiet rfl rfl rfl rfl) fun _ => inferInstance

omit [EmitterPerforms rec] in
instance (index : Nat) (span : OpenSpan) (ip : Nat) : Performs (closeFunc index span ip) :=
  bind fun _ => bind fun _ => modify fun _ => .quiet rfl rfl rfl rfl

instance (fn : SymbolId) : Performs (emitFunc rec fn) := by
  unfold emitFunc
  refine bind fun sym => bind fun n => bind fun s => ?_
  split <;> infer_instance

theorem emitQueue (fuel : Nat) : ∀ i, Performs (emitQueue rec fuel i) := by
  induction fuel with
  | zero => exact fun _ => inferInstanceAs (Performs (throw _))
  | succ fuel ih =>
    intro i
    unfold Emit.emitQueue
    refine bind fun s => ?_
    split <;> infer_instance

end

instance : Performs run := by
  unfold run
  refine bind fun u => ?_
  dsimp only
  have queued := emitQueue (Emit.emitter (8 * u.tree.size + 8 * u.types.size + 4096))
  refine seq (modifyGet fun _ => .quiet rfl rfl rfl rfl) fun span => bind fun entry => bind fun _ => ?_
  refine seq (modify fun _ => .quiet rfl rfl rfl rfl) fun _ => bind fun s => ?_
  split <;> infer_instance

end Performs

end Emit

end TreeCompiler
