import TreeCompiler.Proofs.Emit.Extend

/-!
# Values extend the code

Emitting a value extends the code, as long as the steps it calls back do so for the parts of the value and the variables
that it names are allowed.

* `Good K rec p` : the emitter `rec` extends the code when it emits the place `p`;
* `Allows K v` : the operand of the variable `v` may stand in the code;
* `Emits.exprStep`, `Emits.zeroStep` : the steps for expressions and zero values.
-/

namespace TreeCompiler.Emit

variable {K : Setting} {α β : Type}

def Good (K : Setting) (rec : Emitter) : Place → Prop
  | .expr id => ∀ inRegister, Emits K (rec.expr id inRegister) (Plain K.allowed)
  | .stmt id => Emits K (rec.stmt id) fun _ => True
  | .zero t => ∀ at', Emits K (rec.zero at' t) (Plain K.allowed)

def Allows (K : Setting) (v : SymbolId) : Prop :=
  ∀ sym o, K.unit.scopes.symbol? v = some sym → slotOf? K.captures sym.storage = some o → Plain K.allowed o

namespace Emits

theorem storage_plain {v : SymbolId} (h : Allows K v) : Emits K (Emit.storage v) (Plain K.allowed) :=
  (storage v).mono fun o ⟨sym, hsym, ho⟩ => h sym o hsym ho

theorem forIn {f : α → PUnit → EmitM (ForInStep PUnit)} (l : List α)
    (h : ∀ a ∈ l, Emits K (f a ⟨⟩) fun _ => True) : Emits K (forIn l PUnit.unit f) fun _ => True := by
  induction l with
  | nil => exact .pure trivial
  | cons a l ih =>
    rw [List.forIn_cons]
    refine .bind (h a (List.mem_cons_self ..)) fun r _ => ?_
    cases r with
    | done _ => exact .pure trivial
    | yield _ => exact ih fun x hx => h x (List.mem_cons_of_mem _ hx)

/-! ## Operands -/

variable {rec : Emitter}

theorem exprAny {id : NodeId} (h : Good K rec (.expr id)) : Emits K (exprAny rec id) (Plain K.allowed) := h false

theorem push {id : NodeId} (h : Good K rec (.expr id)) : Emits K (push rec id) fun _ => True :=
  .bind (exprAny h) fun _ ho => pushOperand ho

theorem pushAll {ids : List NodeId} (h : ∀ id ∈ ids, Good K rec (.expr id)) : Emits K (pushAll rec ids) fun _ => True :=
  .forM ids fun id hid => push (h id hid)

theorem stores (id : NodeId) : Emits K (stores id) fun _ => True := by
  refine .bind unit fun r _ => ?_
  dsimp only
  split
  · exact .pure trivial
  · exact .throw

theorem storesAfter (ids : List NodeId) : Emits K (storesAfter ids) fun _ => True := by
  induction ids with
  | nil => exact .pure trivial
  | cons id rest ih =>
    cases rest with
    | nil => exact .pure trivial
    | cons next rest =>
      unfold Emit.storesAfter
      refine .bind ih fun tail _ => .ite (fun _ => .pure trivial) fun _ => ?_
      exact .bind (stores next) fun _ _ => .pure trivial

theorem evaluate {id : NodeId} (h : Good K rec (.expr id)) (forced storesLater : Bool) :
    Emits K (evaluate rec id forced storesLater) fun e => Plain K.allowed e.op := by
  have done (op : Operand) (ho : Plain K.allowed op) : Emits K (do
      let s ← MonadState.get
      Pure.pure { op, accumulatorWrites := s.accumulatorWrites, returnWrites := s.returnWrites : Evaluated })
      fun e => Plain K.allowed e.op := .get_bind fun _ _ => .pure ho
  unfold Emit.evaluate
  refine .bind (h forced) fun op ho => .ite (fun _ => ?_) fun _ => .bind (.pure ho) done
  exact .bind (node id) fun n _ => .bind (toRegister ho n.valueType id) fun r hr => done r (plain_of_register hr)

theorem evaluateAll {items : List (NodeId × Bool × Bool)} (h : ∀ x ∈ items, Good K rec (.expr x.1)) :
    Emits K (evaluateAll rec items) fun es => ∀ e ∈ es, Plain K.allowed e.op := by
  induction items with
  | nil => exact .pure nofun
  | cons x rest ih =>
    refine .bind (evaluate (h x (List.mem_cons_self ..)) _ _) fun e he => ?_
    refine .bind (ih fun y hy => h y (List.mem_cons_of_mem _ hy)) fun es hes => .pure ?_
    exact List.forall_mem_cons.2 ⟨he, hes⟩

end Emits

/-- A rewind takes back the code and the labels bound since the mark. -/
theorem Extends.rewind {A : Operand → Prop} {b : Nat} {s s₁ s₂ : EmitState} {m : Mark} {a : Unit} (h : Extends A b s s₁)
    (hm : mark s = .ok m s) (hr : Emit.rewind m s₁ = .ok a s₂) : Extends A b s s₂ := by
  cases hm
  cases hr
  obtain ⟨is, hcode, _⟩ := h.code
  obtain ⟨ls, hbound, hls⟩ := h.bound
  have hlabels : ∀ (ls : List Label) (labels : Array (Option Nat)), (∀ l ∈ ls, b ≤ l) →
      (ls.foldl (fun a l => a.setIfInBounds l none) labels).size = labels.size ∧
      ∀ l < b, (ls.foldl (fun a l => a.setIfInBounds l none) labels)[l]? = labels[l]? := by
    intro ls
    induction ls with
    | nil => exact fun labels _ => ⟨rfl, fun _ _ => rfl⟩
    | cons k ls ih =>
      intro labels hk
      obtain ⟨hsize, hget⟩ := ih (labels.setIfInBounds k none) fun l hl => hk l (List.mem_cons_of_mem _ hl)
      refine ⟨by rw [List.foldl_cons, hsize, Array.size_setIfInBounds], fun l hl => ?_⟩
      have hne : k ≠ l := Nat.ne_of_gt (Nat.lt_of_lt_of_le hl (hk k (List.mem_cons_self ..)))
      rw [List.foldl_cons, hget l hl, Array.getElem?_setIfInBounds_ne hne]
  have hdrop : s₁.asm.bound.toList.drop s.asm.bound.size = ls := by
    rw [hbound]
    exact List.drop_left' (by simp)
  obtain ⟨hsize, hget⟩ := hlabels ls s₁.asm.labels hls
  exact
    { h with
      values := rfl
      refs := rfl
      code := ⟨[], by simp [Assembler.rewind, Assembler.mark, Assembler.pos, hcode], fun _ h => absurd h List.not_mem_nil⟩
      size := by
        simp only [Assembler.rewind, Assembler.mark, hdrop, hsize]
        exact h.size
      labels := fun l hl => by
        simp only [Assembler.rewind, Assembler.mark, hdrop]
        exact (hget l hl).trans (h.labels l hl)
      bound := ⟨[], by simp [Assembler.rewind, Assembler.mark, hbound], fun _ h => absurd h List.not_mem_nil⟩
      queued := fun q => ⟨(h.queued q).size, (h.queued q).rows⟩ }

namespace Emits

variable {rec : Emitter}

theorem operandsAux {ids : List NodeId} (h : ∀ id ∈ ids, Good K rec (.expr id)) (storing : List Bool) (fuel : Nat) :
    ∀ forced, Emits K (operandsAux rec ids storing fuel forced) fun os => ∀ o ∈ os, Plain K.allowed o := by
  induction fuel with
  | zero => exact fun _ => .throw
  | succ fuel ih =>
    intro forced s os s' hs hrun
    obtain ⟨m, s₀, hm, hrun₁⟩ := bind_ok hrun
    have hs₀ : s₀ = s := by cases hm; rfl
    subst hs₀
    obtain ⟨values, s₁, hv, hrun₂⟩ := bind_ok hrun₁
    obtain ⟨h₁, hvalues⟩ := evaluateAll (fun x hx => h x.1 (List.of_mem_zip hx).1) _ _ _ hs hv
    obtain ⟨s₂, _, hget, hrun₃⟩ := bind_ok hrun₂
    cases hget
    dsimp only at hrun₃
    by_cases hstale : (values.dropLast.map (·.isStale s₁)).any id = true
    · rw [if_pos hstale] at hrun₃
      obtain ⟨_, s₂, hr, hrun₄⟩ := bind_ok hrun₃
      have h₂ := h₁.rewind hm hr
      obtain ⟨h₃, hos⟩ := ih _ _ _ _ (h₂.over hs) hrun₄
      exact ⟨h₂.trans h₃, hos⟩
    · rw [if_neg hstale] at hrun₃
      cases hrun₃
      refine ⟨h₁, fun o ho => ?_⟩
      obtain ⟨e, he, rfl⟩ := List.mem_map.1 ho
      exact hvalues e he

theorem operands {ids : List NodeId} (h : ∀ id ∈ ids, Good K rec (.expr id)) :
    Emits K (operands rec ids) fun os => ∀ o ∈ os, Plain K.allowed o :=
  .bind (storesAfter ids) fun _ _ => operandsAux h _ _ _

theorem operands2 {x y : NodeId} (hx : Good K rec (.expr x)) (hy : Good K rec (.expr y)) :
    Emits K (operands2 rec x y) fun p => Plain K.allowed p.1 ∧ Plain K.allowed p.2 := by
  refine .bind (operands (show ∀ id ∈ [x, y], Good K rec (.expr id) by simp [hx, hy])) fun os hos => ?_
  split
  · exact .pure ⟨hos _ (by simp), hos _ (by simp)⟩
  · exact .throw

theorem operands3 {x y z : NodeId} (hx : Good K rec (.expr x)) (hy : Good K rec (.expr y)) (hz : Good K rec (.expr z)) :
    Emits K (operands3 rec x y z) fun p => Plain K.allowed p.1 ∧ Plain K.allowed p.2.1 ∧ Plain K.allowed p.2.2 := by
  refine .bind (operands (show ∀ id ∈ [x, y, z], Good K rec (.expr id) by simp [hx, hy, hz])) fun os hos => ?_
  split
  · exact .pure ⟨hos _ (by simp), hos _ (by simp), hos _ (by simp)⟩
  · exact .throw

/-! ## Operators and names -/

theorem writes_of_binaryCode? {op : Operator} {code : Opcode} (h : binaryCode? op = some code) :
    code.writesAccumulator = true ∧ ∀ p, (specializeFor code p).writesAccumulator = true := by
  cases op <;> cases h <;> refine ⟨rfl, fun p => ?_⟩ <;> rcases p with _ | _ | _ | _ <;> rfl

theorem writes_of_unaryCode? {op : Operator} {code : Opcode} (h : unaryCode? op = some code) (p : Option Prim) :
    (specializeFor code p).writesAccumulator = true := by
  cases op <;> cases h <;> rcases p with _ | _ | _ | _ <;> rfl

theorem valueKind (id : NodeId) : Emits K (valueKind id) fun _ => True := .bind (node id) fun _ _ => typeKind _

theorem binaryCode {at' : NodeId} {op : Operator} {l r : NodeId} :
    Emits K (binaryCode at' op l r) fun code => code.writesAccumulator = true := by
  unfold Emit.binaryCode
  split
  · exact .fatal
  · rename_i code hcode
    have hwrites := writes_of_binaryCode? hcode
    refine .bind (valueKind l) fun lk _ => .bind (valueKind r) fun rk _ => ?_
    exact .ite (fun _ => .pure hwrites.1) fun _ => .pure (hwrites.2 _)

theorem logical {id : NodeId} {n : Node} (ha : Good K rec (.expr n.a)) (hb : Good K rec (.expr n.b)) :
    Emits K (logical rec id n) (Plain K.allowed) := by
  refine .bind (acquireValue id) fun res hres => ?_
  have hplain : Plain K.allowed res := plain_of_register (.inl hres)
  refine .bind (exprAny ha) fun x hx => .bind (move hplain hx) fun _ _ => .bind newLabel fun stop hstop => ?_
  refine .bind (.emit hplain nofun nofun) fun _ _ => .bind (exprAny hb) fun y hy => .bind (move hplain hy) fun _ _ => ?_
  exact .bind (bindLabel hstop) fun _ _ => .pure hplain

theorem binary {id : NodeId} {n : Node} (ha : Good K rec (.expr n.a)) (hb : Good K rec (.expr n.b)) :
    Emits K (binary rec id n) (Plain K.allowed) := by
  unfold Emit.binary
  refine .ite (fun _ => logical ha hb) fun _ => .bind binaryCode fun op _ => ?_
  refine .bind (operands2 ha hb) fun p hp => .bind (.emit hp.1 hp.2 nofun) fun _ _ => ?_
  exact .bind (free _) fun _ _ => .bind (free _) fun _ _ => .pure nofun

theorem unary {n : Node} (ha : Good K rec (.expr n.a)) : Emits K (unary rec n) (Plain K.allowed) := by
  unfold Emit.unary
  split
  · refine .bind (valueKind n.a) fun k _ => .bind (exprAny ha) fun x hx => .bind (.emit hx nofun nofun) fun _ _ => ?_
    exact .bind (free x) fun _ _ => .pure nofun
  · exact .fatal

theorem binding (id : NodeId) : Emits K (binding id) fun v => K.unit.bindings.get? id = some v := by
  refine .bind unit fun r hr => ?_
  subst hr
  split
  · exact .pure ‹_›
  · exact .bind (node id) fun _ _ => .fatal

theorem name {id : NodeId} {n : Node} (h : ∀ v, K.unit.boundVar? id = some v → Allows K v) :
    Emits K (name id n) (Plain K.allowed) := by
  refine .bind (binding id) fun v hv => .bind (symbol v) fun sym hsym => ?_
  split
  · rename_i hk
    refine storage_plain (h v ?_)
    simp [AnalysisResult.boundVar?, hv, hsym, hk]
  · exact .ite (fun _ => .bind (nativeRef v) fun _ _ => .pure nofun) fun _ => .bind (funcRef v) fun _ _ => .pure nofun
  · exact .bind (typeRef _) fun t _ => .bind (.emit nofun nofun nofun) fun _ _ => .pure nofun
  · exact .fatal

theorem fieldOperand (id : NodeId) (n : Node) : Emits K (fieldOperand id n) (Plain K.allowed) := by
  refine .bind unit fun r _ => ?_
  split
  · exact .pure nofun
  · exact (stringRef n.name).mono fun o ho hk => by rw [ho] at hk; cases hk

theorem literal {id : NodeId} (h : ∀ fn, K.unit.funcs.get? id = some fn → ∀ v ∈ K.unit.capturesOf fn, Allows K v) :
    Emits K (literal id) (Plain K.allowed) := by
  refine .bind unit fun r hr => ?_
  subst hr
  split
  · rename_i fn hfn
    refine .bind (funcRef fn) fun index _ => .bind (funcScope fn) fun sc hsc => ?_
    refine .ite (fun _ => .pure (by rintro ⟨⟩)) fun _ => .bind (.forM _ fun p hp => ?_) fun _ _ =>
      .bind (.emit (by rintro ⟨⟩) (by rintro ⟨⟩) (by rintro ⟨⟩)) fun _ _ => .pure (by rintro ⟨⟩)
    refine .bind (storage_plain (h fn hfn p.1 ?_)) fun o ho => .emit ho (by rintro ⟨⟩) (by rintro ⟨⟩)
    simp only [AnalysisResult.capturesOf, hsc, Option.map_some, Option.getD_some]
    exact List.mem_map_of_mem hp
  · exact .fatal

/-! ## Assignments -/

theorem combine {id : NodeId} {n : Node} {value : Operand} (hv : Plain K.allowed value) :
    Emits K (combine id n value) (Plain K.allowed) :=
  .bind binaryCode fun _ _ => .bind (.emit (by nofun) hv nofun) fun _ _ => .bind (free value) fun _ _ => .pure nofun

theorem assignName {id : NodeId} {n : Node} (hv : ∀ v, K.unit.bindings.get? n.a = some v → Allows K v)
    (ha : n.op ≠ .none → Good K rec (.expr n.a)) (hb : Good K rec (.expr n.b)) :
    Emits K (assignName rec id n) (Plain K.allowed) := by
  refine .bind (binding n.a) fun v hbind => .bind (storage_plain (hv v hbind)) fun dst hdst => ?_
  refine .ite (fun _ => ?_) fun hop => ?_
  · exact .bind (exprAny hb) fun x hx => .bind (move hdst hx) fun _ _ => .pure hdst
  · refine .bind (operands2 (ha hop) hb) fun p hp => .bind binaryCode fun op _ => ?_
    refine .bind (.emit hp.1 hp.2 nofun) fun _ _ => .bind (free _) fun _ _ => .bind (free _) fun _ _ => ?_
    exact .bind (move hdst (by nofun)) fun _ _ => .pure hdst

theorem assignElement {id : NodeId} {n tn : Node} (hx : Good K rec (.expr tn.a)) (hk : Good K rec (.expr tn.b))
    (hv : Good K rec (.expr n.b)) : Emits K (assignElement rec id n tn) (Plain K.allowed) := by
  refine .bind (operands3 hx hk hv) fun p hp => ?_
  obtain ⟨x, k, v⟩ := p
  obtain ⟨hx, hk, hv⟩ := hp
  refine .ite (fun _ => ?_) fun _ => ?_
  · exact .bind (.emit hx hk hv) fun _ _ => .bind (free x) fun _ _ => .bind (free k) fun _ _ => .pure hv
  · refine .bind (node tn.a) fun _ _ => .bind (stable hx _ id) fun x hx => ?_
    refine .bind (node tn.b) fun _ _ => .bind (stable hk _ id) fun k hk => ?_
    refine .bind (node n.b) fun _ _ => .bind (stable hv _ id) fun v hv => ?_
    refine .bind (.emit hx hk nofun) fun _ _ => .bind (combine hv) fun v hv => .bind (.emit hx hk hv) fun _ _ => ?_
    exact .bind (free x) fun _ _ => .bind (free k) fun _ _ => .pure hv

theorem assignMember {id : NodeId} {n tn : Node} (hx : Good K rec (.expr tn.a)) (hv : Good K rec (.expr n.b)) :
    Emits K (assignMember rec id n tn) (Plain K.allowed) := by
  refine .bind (operands2 hx hv) fun p hp => ?_
  obtain ⟨x, v⟩ := p
  obtain ⟨hx, hv⟩ := hp
  refine .bind (fieldOperand n.a tn) fun f hf => .ite (fun _ => ?_) fun _ => ?_
  · exact .bind (.emit hx hf hv) fun _ _ => .bind (free x) fun _ _ => .pure hv
  · refine .bind (node tn.a) fun _ _ => .bind (stable hx _ id) fun x hx => ?_
    refine .bind (node n.b) fun _ _ => .bind (stable hv _ id) fun v hv => ?_
    refine .bind (.emit hx hf nofun) fun _ _ => .bind (combine hv) fun v hv => .bind (.emit hx hf hv) fun _ _ => ?_
    exact .bind (free x) fun _ _ => .pure hv

theorem assign {id : NodeId} {n : Node} (hparts : ∀ p ∈ K.unit.assignParts n, Good K rec p)
    (hnames : K.unit.tree.kind n.a = .ident → ∀ v, K.unit.bindings.get? n.a = some v → Allows K v) :
    Emits K (assign rec id n) (Plain K.allowed) := by
  refine .bind (node n.a) fun tn htn => ?_
  unfold AnalysisResult.assignParts at hparts
  rw [htn] at hparts
  split
  all_goals rename_i hk
  · simp only [hk] at hparts
    have hkind : K.unit.tree.kind n.a = .ident := by simp [Tree.kind, htn, hk]
    refine assignName (hnames hkind) (fun hop => hparts _ (by simp [hop])) (hparts _ ?_)
    split <;> simp
  · simp only [hk] at hparts
    exact assignElement (hparts _ (by simp)) (hparts _ (by simp)) (hparts _ (by simp))
  · simp only [hk] at hparts
    exact assignMember (hparts _ (by simp)) (hparts _ (by simp))
  · exact .fatal

/-! ## Structs and zero values -/

theorem fieldDefaults (t : TypeId) : Emits K (fieldDefaults t) fun ds => ds = K.unit.defaultsOf t := by
  refine .bind unit fun r hr => ?_
  subst hr
  unfold AnalysisResult.defaultsOf
  split
  · exact .pure (by simp [*])
  · exact .pure (by simp [*])

theorem makeStruct {at' : NodeId} {t : TypeId} {given : List (String × NodeId)}
    (h : ∀ p ∈ K.unit.structParts t given, Good K rec p) : Emits K (makeStruct rec at' t given) (Plain K.allowed) := by
  refine .bind (typeInfo t) fun ty hty => .bind (fieldDefaults t) fun ds hds => ?_
  subst hds
  refine .bind (.forIn _ fun p hp => ?_) fun _ _ => .bind (typeRef t) fun _ _ =>
    .bind (.emit nofun nofun nofun) fun _ _ => .pure nofun
  have hpart : Good K rec (K.unit.fieldPart t given p.1 p.2) := by
    refine h _ ?_
    simp only [AnalysisResult.structParts, hty]
    exact List.mem_map.2 ⟨p, hp, rfl⟩
  unfold AnalysisResult.fieldPart at hpart
  dsimp only
  split
  all_goals simp only [*] at hpart
  · exact .bind (push hpart) fun _ _ => .pure trivial
  · exact .bind (hpart at') fun o ho => .bind (pushOperand ho) fun _ _ => .pure trivial
  · exact .bind (push hpart) fun _ _ => .pure trivial

theorem zeroStep {at' : NodeId} {t : TypeId} (h : ∀ p ∈ K.unit.zeroParts t, Good K rec p) :
    Emits K (zeroStep rec at' t) (Plain K.allowed) := by
  refine .bind (typeInfo t) fun ty hty => ?_
  unfold AnalysisResult.zeroParts at h
  rw [hty] at h
  split
  all_goals rename_i hshape
  case h_3 => exact (stringRef "").mono fun o ho hk => by rw [ho] at hk; cases hk
  case h_6 =>
    simp only [hshape] at h
    refine .bind (.forM _ fun e he => ?_) fun _ _ => .bind (.emit nofun nofun nofun) fun _ _ => .pure nofun
    exact .bind (h _ (List.mem_map_of_mem he) at') fun o ho => pushOperand ho
  case h_7 =>
    simp only [hshape] at h
    exact makeStruct h
  case h_4 => exact .bind (.emit nofun nofun nofun) fun _ _ => .pure nofun
  case h_5 => exact .bind (.emit nofun nofun nofun) fun _ _ => .pure nofun
  all_goals exact .pure nofun

theorem nodes (list : List NodeId) : Emits K (list.mapM Emit.node) fun ns => ns = list.filterMap K.unit.tree.get? := by
  induction list with
  | nil => exact .pure rfl
  | cons id list ih =>
    rw [List.mapM_cons]
    refine .bind (node id) fun n hn => .bind ih fun ns hns => .pure ?_
    rw [List.filterMap_cons, hn, hns]

theorem givenFields (list : List NodeId) : Emits K (givenFields list) fun g => g = K.unit.givenOf list :=
  .bind (nodes list) fun _ hns => .pure (by rw [hns]; rfl)

theorem cast {id : NodeId} {n : Node} (ha : Good K rec (.expr n.a)) : Emits K (cast rec id n) (Plain K.allowed) := by
  refine .bind (exprAny ha) fun v hv => .bind (valueKind n.a) fun source _ => .bind (typeKind _) fun target _ => ?_
  refine .ite (fun _ => .pure hv) fun _ => .ite (fun _ => .fatal) fun _ => ?_
  exact .bind (.emit hv nofun nofun) fun _ _ => .bind (free v) fun _ _ => .pure nofun

/-! ## Calls -/

theorem pushArg {arg : NodeId} (h : Good K rec (K.unit.argPart arg)) : Emits K (pushArg rec arg) fun _ => True := by
  refine .bind (node arg) fun an han => ?_
  simp only [AnalysisResult.argPart, han] at h
  refine .ite (fun hk => ?_) fun hk => ?_
  · rw [if_neg hk] at h
    exact .bind (push h) fun _ _ => .pure trivial
  · rw [if_pos (Decidable.not_not.1 hk)] at h
    refine .bind (note _) fun _ _ => .bind (exprAny h) fun v hv => .bind (.emit hv nofun nofun) fun _ _ => ?_
    exact .bind (free v) fun _ _ => .pure trivial

theorem makeVariant {id : NodeId} {n : Node} {target : SymbolId} (h : ∀ x ∈ n.list, Good K rec (.expr x)) :
    Emits K (makeVariant rec id n target) (Plain K.allowed) := by
  refine .bind (symbol target) fun s _ => .bind (pushAll h) fun _ _ => .bind (typeRef _) fun _ _ =>
    .bind (.emit nofun nofun nofun) fun _ _ => ?_
  exact .bind (isResolved _) fun r _ => .ite (fun _ => .fatal) fun _ => .pure nofun

theorem calleeOperand {id : NodeId} {n : Node} {info : CallInfo} (hk : info.kind ≠ .variant)
    (h : info.kind = .value → Good K rec (.expr n.a)) :
    Emits K (calleeOperand rec id n info) fun p => Plain K.allowed p.2 := by
  unfold Emit.calleeOperand
  split
  · exact .bind (funcRef _) fun _ _ => .pure nofun
  · exact .bind (nativeRef _) fun _ _ => .pure nofun
  · have hvalue : info.kind = .value := by
      cases hi : info.kind <;> simp_all
    refine .bind (exprAny (h hvalue)) fun v hv => .bind (node n.a) fun an _ => ?_
    exact .bind (stable hv _ id) fun o ho => .pure ho

theorem pushArgs {n : Node} {method : Bool} (hargs : ∀ arg ∈ n.list, Good K rec (K.unit.argPart arg))
    (hrecv : method = true → Good K rec (.expr (K.unit.receiver n))) :
    Emits K (pushArgs rec n method) fun _ => True := by
  have hfold := foldlM (K := K) (f := fun k arg => do Pure.pure (k + (← Emit.pushArg rec arg))) n.list.reverse
    (fun k arg harg => .bind (pushArg (hargs arg (List.mem_reverse.1 harg))) fun _ _ => .pure trivial) 0
  refine .bind hfold fun fixed _ => .ite (fun _ => .pure trivial) fun hm => ?_
  have hm : method = true := by simpa using hm
  refine .bind (node n.a) fun an han => .bind (push ?_) fun _ _ => .pure trivial
  have := hrecv hm
  rwa [AnalysisResult.receiver, han] at this

end Emits

/-! ### Spill slots

Where a spill slot is known only relative to the frame, a computation is followed from one state. -/

def EmitsAt (K : Setting) (s : EmitState) (m : EmitM α) (Q : α → EmitState → Prop) : Prop :=
  ∀ a s', m s = .ok a s' → Extends K.allowed K.base s s' ∧ Q a s'

theorem Emits.from {s : EmitState} {m : EmitM α} {Q : α → Prop} (h : Emits K m Q) (hs : Over K s) :
    EmitsAt K s m fun a _ => Q a := fun a s' hm => h s a s' hs hm

namespace EmitsAt

variable {s : EmitState}

theorem bind {x : EmitM α} {f : α → EmitM β} {P : α → EmitState → Prop} {Q : β → EmitState → Prop} (hs : Over K s)
    (hx : EmitsAt K s x P)
    (hf : ∀ a s₁, Over K s₁ → Extends K.allowed K.base s s₁ → P a s₁ → EmitsAt K s₁ (f a) Q) :
    EmitsAt K s (x >>= f) Q := by
  intro c s' h
  obtain ⟨a, s₁, hxs, hfs⟩ := bind_ok h
  obtain ⟨h₁, hP⟩ := hx a s₁ hxs
  obtain ⟨h₂, hQ⟩ := hf a s₁ (h₁.over hs) h₁ hP c s' hfs
  exact ⟨h₁.trans h₂, hQ⟩

theorem pure {a : α} {Q : α → EmitState → Prop} (h : Q a s) : EmitsAt K s (pure a) Q := by
  intro c s' hm
  cases hm
  exact ⟨.refl s, h⟩

theorem spill : EmitsAt K s spill fun o s' => o.kind = .stack ∧ s'.frame.IsSpill o := by
  intro o s' hm
  cases hm
  refine ⟨.quiet rfl rfl rfl rfl ?_ rfl rfl rfl rfl rfl rfl rfl rfl, rfl, ?_⟩
  · exact Nat.le_max_left ..
  · have : s.frame.spills < max s.frame.maxSpill (s.frame.spills + 1) := Nat.lt_of_lt_of_le (Nat.lt_succ_self _) (Nat.le_max_right ..)
    simp only [Frame.IsSpill, Operand.stack]
    omega

theorem emit {i : Instr} (h : Within K.allowed s.frame i) : EmitsAt K s (emit i) fun _ s' => s'.frame = s.frame := by
  intro a s' hm
  cases hm
  refine ⟨?_, rfl⟩
  exact
    { Extends.refl (A := K.allowed) (b := K.base) s with
      code := ⟨[i], by simp [Assembler.emit], by
        simp only [List.mem_singleton, forall_eq]
        exact h⟩
      queued := fun q => ⟨q.size, q.rows⟩ }

end EmitsAt

/-- A register and the slot it is saved in. -/
def Saved (K : Setting) (f : Frame) (p : Operand × Operand) : Prop := Plain K.allowed p.1 ∧ f.IsSpill p.2

theorem Saved.extend {s s' : EmitState} {p : Operand × Operand} (h : Saved K s.frame p)
    (he : Extends K.allowed K.base s s') : Saved K s'.frame p := ⟨h.1, IsSpill.mono h.2 he.locals he.maxSpill⟩

theorem within_mov {f : Frame} {x y : Operand} (hx : Plain K.allowed x ∨ f.IsSpill x) (hy : Plain K.allowed y ∨ f.IsSpill y) :
    Within K.allowed f { op := .mov, a := x, b := y } := by
  intro o ho hk
  simp only [Instr.operands, List.mem_cons, List.not_mem_nil, or_false] at ho
  rcases ho with rfl | rfl | rfl
  · exact hx.imp_left fun h => h hk
  · exact hy.imp_left fun h => h hk
  · cases hk

theorem saveAll {regs : List Operand} (hregs : ∀ r ∈ regs, Plain K.allowed r) {s : EmitState} (hs : Over K s) :
    EmitsAt K s (regs.mapM fun reg => do
      let slot ← spill
      emit { op := .mov, a := slot, b := reg }
      pure (reg, slot)) fun saved s' => ∀ p ∈ saved, Saved K s'.frame p := by
  induction regs generalizing s with
  | nil => exact .pure fun _ h => absurd h List.not_mem_nil
  | cons r regs ih =>
    rw [List.mapM_cons]
    have hr := hregs r (List.mem_cons_self ..)
    have hsave : EmitsAt K s (do
        let slot ← spill
        emit { op := .mov, a := slot, b := r }
        pure (r, slot)) fun p s' => Saved K s'.frame p := by
      refine .bind hs .spill fun slot s₁ hs₁ _ hslot => ?_
      refine .bind hs₁ (.emit (within_mov (.inr hslot.2) (.inl hr))) fun _ s₂ _ _ hf => .pure ⟨hr, ?_⟩
      rw [hf]
      exact hslot.2
    refine .bind hs hsave fun p s₁ hs₁ _ hp => ?_
    refine .bind hs₁ (ih (fun x hx => hregs x (List.mem_cons_of_mem _ hx)) hs₁) fun ps s₂ _ h₂ hps => .pure ?_
    exact List.forall_mem_cons.2 ⟨hp.extend h₂, hps⟩

theorem plain_live {p : Pool} {k : OperandKind} (h : p.kind = k) (hk : k ≠ .stack) :
    ∀ r ∈ p.live, Plain K.allowed r := by
  intro r hr hs
  obtain ⟨i, _, rfl⟩ := List.mem_map.1 hr
  exact absurd (h.symm.trans hs) hk

theorem spillLive_from {s : EmitState} (hs : Over K s) :
    EmitsAt K s spillLive fun saved s' => ∀ p ∈ saved, Saved K s'.frame p := by
  refine .bind (P := fun t t' => t = s ∧ t' = s) hs ?_ fun t s₁ hs₁ _ ht => ?_
  · intro a s' hm
    cases hm
    exact ⟨.refl s, rfl, rfl⟩
  · obtain ⟨rfl, rfl⟩ := ht
    refine saveAll (fun r hr => ?_) hs₁
    rcases List.mem_append.1 hr with hr | hr
    · exact plain_live hs.values nofun r hr
    · exact plain_live hs.refs nofun r hr

theorem restoreLive_from {saved : List (Operand × Operand)} {s : EmitState} (hs : Over K s)
    (h : ∀ p ∈ saved, Saved K s.frame p) : EmitsAt K s (restoreLive saved) fun _ _ => True := by
  have hall : ∀ (l : List (Operand × Operand)) (s : EmitState), Over K s → (∀ p ∈ l, Saved K s.frame p) →
      EmitsAt K s (l.forM fun p => emit { op := .mov, a := p.1, b := p.2 }) fun _ _ => True := by
    intro l
    induction l with
    | nil => exact fun s _ _ => .pure trivial
    | cons p l ih =>
      intro s hs hl
      have hp := hl p (List.mem_cons_self ..)
      refine .bind hs (.emit (within_mov (.inl hp.1) (.inr hp.2))) fun _ s₁ hs₁ h₁ _ => ih s₁ hs₁ fun q hq => ?_
      exact (hl q (List.mem_cons_of_mem _ hq)).extend h₁
  exact .bind hs (hall saved s hs h) fun _ s₁ hs₁ _ _ => (Emits.unspill _).from hs₁

theorem saveSpread_from {s : EmitState} (hs : Over K s) :
    EmitsAt K s saveSpread fun saved s' => ∀ slot, saved = some slot → s'.frame.IsSpill slot := by
  unfold saveSpread
  refine .bind (P := fun _ _ => True) hs (fun a s' hm => ?_) fun t s₁ hs₁ _ _ => ?_
  · cases hm
    exact ⟨.refl s, trivial⟩
  · split
    · refine .bind hs₁ .spill fun slot s₂ hs₂ _ hslot => ?_
      refine .bind hs₂ (.emit (within_mov (.inr hslot.2) (.inl nofun))) fun _ s₃ hs₃ _ hf => .pure ?_
      rintro x ⟨⟩
      rw [hf]
      exact hslot.2
    · exact .pure nofun

theorem beginSpread_from {s : EmitState} (spread : Bool) (hs : Over K s) :
    EmitsAt K s (beginSpread spread) fun saved s' => ∀ slot, saved = some slot → s'.frame.IsSpill slot := by
  unfold beginSpread
  split
  · refine .bind hs (saveSpread_from hs) fun saved s₁ hs₁ _ hsaved => ?_
    refine .bind hs₁ ((Emits.emit (by nofun) (by nofun) (by nofun)).from hs₁) fun _ s₂ hs₂ h₂ _ => ?_
    refine .bind hs₂ ((Emits.modify fun _ _ => ?_).from hs₂) fun _ s₃ _ h₃ _ => .pure fun slot hsome => ?_
    · exact .quiet rfl rfl rfl rfl (Nat.le_refl _) rfl rfl rfl rfl rfl rfl rfl rfl
    · have h := h₂.trans h₃
      exact IsSpill.mono (hsaved slot hsome) h.locals h.maxSpill
  · exact .pure nofun

theorem restoreSpread_from {saved : Option Operand} {s : EmitState} (hs : Over K s)
    (h : ∀ slot, saved = some slot → s.frame.IsSpill slot) : EmitsAt K s (restoreSpread saved) fun _ _ => True := by
  cases saved with
  | none => exact .pure trivial
  | some slot =>
    refine .bind hs (.emit (within_mov (.inl nofun) (.inr (h slot rfl)))) fun _ s₁ hs₁ _ _ => ?_
    exact (Emits.unspill 1).from hs₁

theorem Emits.endSpread (spread : Bool) : Emits K (endSpread spread) fun _ => True :=
  .modify fun _ _ => .quiet rfl rfl rfl rfl (Nat.le_refl _) rfl rfl rfl rfl rfl rfl rfl rfl

theorem Emits.invoke {op : Opcode} {callee : Operand} {fixed : Nat} (h : Plain K.allowed callee) :
    Emits K (invoke op callee fixed) fun _ => True := by
  intro s a s' hs hrun
  refine EmitsAt.bind (Q := fun _ _ => True) hs (spillLive_from hs) (fun saved s₁ hs₁ _ hsaved => ?_) a s' hrun
  refine .bind hs₁ ((Emits.emit h (by nofun) (by nofun)).from hs₁) fun _ s₂ hs₂ h₂ _ => ?_
  exact restoreLive_from hs₂ fun p hp => (hsaved p hp).extend h₂

/-- A saved spread count stays in its slot until the call is over. -/
theorem Emits.call {rec : Emitter} {id : NodeId} {n : Node} (h : ∀ p ∈ K.unit.callParts id n, Good K rec p) :
    Emits K (call rec id n) (Plain K.allowed) := by
  refine .bind .unit fun r hr => ?_
  subst hr
  split
  · rename_i info hinfo
    simp only [AnalysisResult.callParts, hinfo] at h
    refine .ite (fun hk => ?_) fun hk => ?_
    · simp only [hk] at h
      exact .makeVariant fun x hx => h _ (List.mem_map_of_mem hx)
    · have hparts : ∀ p ∈ (if info.kind = .value then [Place.expr n.a] else []) ++ n.list.map K.unit.argPart ++
          (if info.method then [.expr (K.unit.receiver n)] else []), Good K rec p := by
        cases hik : info.kind <;> simp_all
      refine .bind (.calleeOperand hk fun hv => hparts _ (by simp [hv])) fun p hp => ?_
      have hargs : ∀ arg ∈ n.list, Good K rec (K.unit.argPart arg) := fun arg harg =>
        hparts _ (List.mem_append_left _ (List.mem_append_right _ (List.mem_map_of_mem harg)))
      have hrecv : info.method = true → Good K rec (.expr (K.unit.receiver n)) := fun hm =>
        hparts _ (List.mem_append_right _ (by simp [hm]))
      refine .bind .unit fun r _ => ?_
      intro s a s' hs hrun
      refine EmitsAt.bind (Q := fun o _ => Plain K.allowed o) hs (beginSpread_from _ hs)
        (fun saved s₁ hs₁ _ hsaved => ?_) a s' hrun
      refine .bind hs₁ ((pushArgs hargs hrecv).from hs₁) fun fixed s₂ hs₂ h₂ _ => ?_
      refine .bind hs₂ ((endSpread _).from hs₂) fun _ s₃ hs₃ h₃ _ => ?_
      refine .bind hs₃ ((free _).from hs₃) fun _ s₄ hs₄ h₄ _ => ?_
      refine .bind hs₄ ((invoke hp).from hs₄) fun _ s₅ hs₅ h₅ _ => ?_
      have h₁₅ := (h₂.trans h₃).trans (h₄.trans h₅)
      refine .bind hs₅ (restoreSpread_from hs₅ fun slot hsome => ?_) fun _ s₆ hs₆ _ _ => ?_
      · exact IsSpill.mono (hsaved slot hsome) h₁₅.locals h₁₅.maxSpill
      · refine .bind hs₆ ((typeKind _).from hs₆) fun k s₇ _ _ _ => .pure ?_
        split <;> nofun
  · exact .fatal

/-! ## Every kind of expression -/

namespace Emits

variable {rec : Emitter}

theorem value {id : NodeId} {n : Node} (hparts : ∀ p ∈ K.unit.exprParts id n, Good K rec p)
    (hnames : ∀ v ∈ K.unit.exprNames id n, Allows K v) : Emits K (value rec id n) (Plain K.allowed) := by
  unfold Emit.value
  unfold AnalysisResult.exprParts at hparts
  unfold AnalysisResult.exprNames at hnames
  split
  all_goals rename_i hk
  all_goals simp only [hk] at hparts hnames
  case h_3 => exact (stringRef _).mono fun o ho hs => by rw [ho] at hs; cases hs
  case h_6 => exact name fun v hv => hnames v (by simp [hv])
  case h_7 => exact binary (hparts _ (by simp)) (hparts _ (by simp))
  case h_8 => exact unary (hparts _ (by simp))
  case h_9 => exact assign hparts fun hi v hv => hnames v (by simp [hi, hv])
  case h_10 => exact call hparts
  case h_11 =>
    refine .bind (operands2 (hparts _ (by simp)) (hparts _ (by simp))) fun p hp => .bind (.emit hp.1 hp.2 nofun) fun _ _ => ?_
    exact .bind (free _) fun _ _ => .bind (free _) fun _ _ => .pure nofun
  case h_12 =>
    refine .bind (exprAny (hparts _ (by simp))) fun x hx => .bind (fieldOperand id n) fun f hf => ?_
    exact .bind (.emit hx hf nofun) fun _ _ => .bind (free x) fun _ _ => .pure nofun
  case h_13 =>
    exact .bind (pushAll fun x hx => hparts _ (List.mem_map_of_mem hx)) fun _ _ =>
      .bind (.emit nofun nofun nofun) fun _ _ => .pure nofun
  case h_14 =>
    refine .bind (.forM _ fun p hp => .bind (node p) fun pn hpn => ?_) fun _ _ =>
      .bind (.emit nofun nofun nofun) fun _ _ => .pure nofun
    have hmem : pn ∈ n.list.filterMap K.unit.tree.get? := List.mem_filterMap.2 ⟨p, hp, hpn⟩
    have hpair := fun x hx => hparts x (List.mem_flatMap.2 ⟨pn, hmem, hx⟩)
    exact .bind (push (hpair _ (by simp))) fun _ _ => push (hpair _ (by simp))
  case h_15 =>
    exact .bind (pushAll fun x hx => hparts _ (List.mem_map_of_mem hx)) fun _ _ =>
      .bind (.emit nofun nofun nofun) fun _ _ => .pure nofun
  case h_16 =>
    refine .bind (givenFields n.list) fun given hg => ?_
    subst hg
    exact makeStruct hparts
  case h_17 => exact cast (hparts _ (by simp))
  case h_18 => exact literal fun fn hfn v hv => hnames v (by simpa [hfn] using hv)
  case h_19 => exact .fatal
  all_goals exact .pure nofun

theorem exprStep {id : NodeId} {inRegister : Bool} (hparts : ∀ p ∈ K.unit.parts (.expr id), Good K rec p)
    (hnames : ∀ v ∈ K.unit.names (.expr id), Allows K v) : Emits K (exprStep rec id inRegister) (Plain K.allowed) := by
  refine .bind (node id) fun n hn => .bind (isResolved _) fun r _ => .ite (fun _ => .fatal) fun _ => ?_
  simp only [AnalysisResult.parts, AnalysisResult.names, hn, Option.map_some, Option.getD_some] at hparts hnames
  refine .bind (note _) fun _ _ => .bind (value hparts hnames) fun op hop => ?_
  exact .ite (fun _ => (toRegister hop _ id).mono fun _ => plain_of_register) fun _ => .pure hop

end Emits

end TreeCompiler.Emit
