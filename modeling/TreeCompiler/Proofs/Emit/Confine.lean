import TreeCompiler.Proofs.Emit.Refer

/-!
# The code of one function

Every step of generation refers to known operands and jumps to labels of its own.

* `EmitterRefers K rec` : the steps that `rec` calls back do so;
* `Refers.exprStep`, `Refers.zeroStep`, `Refers.stmtStep` : then the steps themselves do;
* `emitter_refers` : and so does the generator.
-/

namespace TreeCompiler.Emit

structure EmitterRefers (K : Site) (rec : Emitter) : Prop where
  expr : ∀ id b, Refers K (rec.expr id b) K.later.Knows
  stmt : ∀ id, Refers K (rec.stmt id) fun _ => True
  zero : ∀ id t, Refers K (rec.zero id t) K.later.Knows

instance grows_countCalls : Grows (modify fun s : EmitState => { s with countingCalls := s.countingCalls + 1 }) :=
  .modify fun _ => .of_same rfl rfl rfl rfl rfl

variable {K : Site} {rec : Emitter}

namespace Refers

/-! ## Operators -/

theorem isPlain_specializeFor {code : Opcode} (h : code.isPlain = true) (p : Option Prim) :
    (specializeFor code p).isPlain = true := by
  cases p with
  | none => exact h
  | some p => cases code <;> cases p <;> first | rfl | exact h

theorem isPlain_binaryCode? {op : Operator} {code : Opcode} (h : binaryCode? op = some code) : code.isPlain = true := by
  cases op <;> cases h <;> rfl

theorem isPlain_unaryCode? {op : Operator} {code : Opcode} (h : unaryCode? op = some code) : code.isPlain = true := by
  cases op <;> cases h <;> rfl

theorem plain_binaryCode (id : NodeId) (op : Operator) (l r : NodeId) :
    Yields (binaryCode id op l r) fun code => code.isPlain = true := by
  unfold binaryCode
  cases hc : binaryCode? op with
  | none => exact fun _ _ _ h => by cases h
  | some code =>
    have hplain := isPlain_binaryCode? hc
    exact .bind fun lk => .bind fun rk => .ite (.pure hplain) (.pure (isPlain_specializeFor hplain _))

section

variable [EmitterGrows rec] (h : EmitterRefers K rec)
include h

/-! ## Operands -/

omit [EmitterGrows rec] in
theorem exprAny (id : NodeId) : Refers K (exprAny rec id) K.later.Knows := h.expr id false

theorem push (id : NodeId) : Refers K (push rec id) fun _ => True := .bind (exprAny h id) fun _ ho => pushOperand ho

theorem pushAll (ids : List NodeId) : Refers K (pushAll rec ids) fun _ => True := .forM ids fun id _ => push h id

theorem evaluate (id : NodeId) (forced storesLater : Bool) :
    Refers K (evaluate rec id forced storesLater) fun e => K.later.Knows e.op := by
  have done (op : Operand) (ho : K.later.Knows op) : Refers K (do
      let s ← MonadState.get
      Pure.pure { op, accumulatorWrites := s.accumulatorWrites, returnWrites := s.returnWrites : Evaluated })
      fun e => K.later.Knows e.op := .get_bind fun _ _ => .pure ho
  unfold Emit.evaluate
  refine .bind (h.expr id forced) fun op ho => .ite (fun _ => ?_) fun _ => .bind (.pure ho) done
  exact .look (.node id) fun n => .bind (toRegister ho n.valueType id) done

theorem evaluateAll (items : List (NodeId × Bool × Bool)) :
    Refers K (evaluateAll rec items) fun es => ∀ e ∈ es, K.later.Knows e.op := by
  induction items with
  | nil => exact .pure nofun
  | cons x rest ih =>
    refine .bind (evaluate h x.1 _ _) fun e he => .bind ih fun es hes => .pure ?_
    exact List.forall_mem_cons.2 ⟨he, hes⟩

theorem operandsAux (ids : List NodeId) (storing : List Bool) (fuel : Nat) :
    ∀ forced, Refers K (operandsAux rec ids storing fuel forced) fun os => ∀ o ∈ os, K.later.Knows o := by
  induction fuel with
  | zero => exact fun _ => .throw
  | succ fuel ih =>
    intro forced s os s' hs hrun hl
    obtain ⟨m, s₀, hm, hrun₁⟩ := bind_ok hrun
    have hs₀ : s₀ = s := by cases hm; rfl
    subst hs₀
    obtain ⟨values, s₁, hv, hrun₂⟩ := bind_ok hrun₁
    have hg₁ := (inferInstance : Grows (Emit.evaluateAll rec (ids.zip (forced.zip storing)))).carries _ _ _ hv
    obtain ⟨s₂, _, hget, hrun₃⟩ := bind_ok hrun₂
    cases hget
    dsimp only at hrun₃
    by_cases hstale : (values.dropLast.map (·.isStale s₁)).any id = true
    · rw [if_pos hstale] at hrun₃
      obtain ⟨_, s₂, hr, hrun₄⟩ := bind_ok hrun₃
      have hg₂ := (inferInstance : Grows (Emit.rewind m)).carries _ _ _ hr
      have hg₃ := (Carries.operandsAux (R := Grown) rec ids storing fuel _).carries _ _ _ hrun₄
      obtain ⟨h₁, -⟩ := evaluateAll h _ _ _ _ hs hv ((hg₂.trans hg₃).trans hl)
      have h₂ := h₁.rewind hg₁ hs hm hr
      obtain ⟨h₃, hos⟩ := ih _ _ _ _ (h₂.at_later (hg₁.trans hg₂) hs) hrun₄ hl
      exact ⟨h₂.trans h₃, hos⟩
    · rw [if_neg hstale] at hrun₃
      cases hrun₃
      obtain ⟨h₁, hvalues⟩ := evaluateAll h _ _ _ _ hs hv hl
      refine ⟨h₁, fun o ho => ?_⟩
      obtain ⟨e, he, rfl⟩ := List.mem_map.1 ho
      exact hvalues e he

theorem operands (ids : List NodeId) : Refers K (operands rec ids) fun os => ∀ o ∈ os, K.later.Knows o :=
  .look (.storesAfter ids) fun _ => operandsAux h _ _ _ _

theorem operands2 (x y : NodeId) : Refers K (operands2 rec x y) fun p => K.later.Knows p.1 ∧ K.later.Knows p.2 := by
  refine .bind_grows (operands h [x, y]) (fun os hos => ?_) fun os => by split <;> infer_instance
  split
  · exact .pure ⟨hos _ (by simp), hos _ (by simp)⟩
  · exact .throw

theorem operands3 (x y z : NodeId) :
    Refers K (operands3 rec x y z) fun p => K.later.Knows p.1 ∧ K.later.Knows p.2.1 ∧ K.later.Knows p.2.2 := by
  refine .bind_grows (operands h [x, y, z]) (fun os hos => ?_) fun os => by split <;> infer_instance
  split
  · exact .pure ⟨hos _ (by simp), hos _ (by simp), hos _ (by simp)⟩
  · exact .throw

/-! ## Operators and names -/

theorem logical (id : NodeId) (n : Node) : Refers K (logical rec id n) K.later.Knows := by
  have right (res : Operand) (stop : Label) : Grows (do
      Emit.move res (← Emit.exprAny rec n.b)
      Emit.bindLabel stop
      return res) := inferInstance
  refine .bind (acquireValue id) fun res hres => .bind (exprAny h n.a) fun x hx => .bind (move hres hx) fun _ _ => ?_
  refine .bind newLabel fun stop hstop => .bind (branch ?_ hres hstop) fun _ _ => ?_
  · split
    · exact .inl rfl
    · exact .inr (.inl rfl)
  · refine .bind (exprAny h n.b) fun y hy => .bind (move hres hy) fun _ _ => ?_
    exact .bind (bindLabel hstop) fun _ _ => .pure hres

theorem binary (id : NodeId) (n : Node) : Refers K (binary rec id n) K.later.Knows := by
  unfold Emit.binary
  refine .ite (fun _ => logical h id n) fun _ => .knowing (.binaryCode _ _ _ _) (plain_binaryCode _ _ _ _) fun op hop => ?_
  refine .bind (operands2 h n.a n.b) fun p hp => .bind (.emit hop hp.1 hp.2 trivial) fun _ _ => ?_
  exact .bind (free _) fun _ _ => .bind (free _) fun _ _ => .pure trivial

theorem unary (n : Node) : Refers K (unary rec n) K.later.Knows := by
  unfold Emit.unary
  split
  · rename_i code hcode
    have hplain := isPlain_specializeFor (isPlain_unaryCode? hcode)
    refine .look (.valueKind n.a) fun k => .bind (exprAny h n.a) fun x hx => ?_
    exact .bind (.emit (hplain _) hx trivial trivial) fun _ _ => .bind (free x) fun _ _ => .pure trivial
  · exact .fatal

omit [EmitterGrows rec] h in
theorem name (id : NodeId) (n : Node) : Refers K (name id n) K.later.Knows := by
  refine .look (.binding id) fun v => .look (.symbol v) fun sym => ?_
  split
  · exact storage v
  · exact .ite (fun _ => .bind (nativeRef v) fun _ hk => .pure hk) fun _ => .bind (funcRef v) fun _ hk => .pure hk
  · exact .bind (typeRef _) fun t _ => .bind (.emit rfl trivial trivial trivial) fun _ _ => .pure trivial
  · exact .fatal

omit [EmitterGrows rec] h in
theorem fieldOperand (id : NodeId) (n : Node) : Refers K (fieldOperand id n) K.later.Knows := by
  refine .look .unit fun u => ?_
  split
  · exact .pure trivial
  · exact stringRef n.name

omit [EmitterGrows rec] h in
theorem literal (id : NodeId) : Refers K (literal id) K.later.Knows := by
  refine .look .unit fun u => ?_
  split
  · refine .bind (funcRef _) fun index hindex => .look (.funcScope _) fun sc => .ite (fun _ => .pure hindex) fun _ => ?_
    refine .bind (.forM _ fun p _ => .bind (storage p.1) fun o ho => .emit rfl ho trivial trivial) fun _ _ => ?_
    exact .bind (.emit rfl hindex trivial trivial) fun _ _ => .pure trivial
  · exact .fatal

/-! ## Assignments -/

omit [EmitterGrows rec] h in
theorem combine (id : NodeId) (n : Node) {value : Operand} (hv : K.later.Knows value) :
    Refers K (combine id n value) K.later.Knows :=
  .knowing (.binaryCode _ _ _ _) (plain_binaryCode _ _ _ _) fun _ hop => .bind (.emit hop trivial hv trivial) fun _ _ =>
    .bind (free value) fun _ _ => .pure trivial

theorem assignName (id : NodeId) (n : Node) : Refers K (assignName rec id n) K.later.Knows := by
  refine .look (.binding n.a) fun v => .bind (storage v) fun dst hdst => .ite (fun _ => ?_) fun _ => ?_
  · exact .bind (exprAny h n.b) fun x hx => .bind (move hdst hx) fun _ _ => .pure hdst
  · refine .bind (operands2 h n.a n.b) fun p hp => .knowing (.binaryCode _ _ _ _) (plain_binaryCode _ _ _ _) fun op hop => ?_
    refine .bind (.emit hop hp.1 hp.2 trivial) fun _ _ => .bind (free _) fun _ _ => .bind (free _) fun _ _ => ?_
    exact .bind (move hdst trivial) fun _ _ => .pure hdst

theorem assignElement (id : NodeId) (n tn : Node) : Refers K (assignElement rec id n tn) K.later.Knows := by
  have store (x k v : Operand) : Grows (do
      Emit.emit { op := .setIndex, a := x, b := k, c := v }
      Emit.free x
      Emit.free k
      return v) := inferInstance
  have change (x k v : Operand) : Grows (do
      Emit.emit { op := .index, a := x, b := k }
      let v ← Emit.combine id n v
      Emit.emit { op := .setIndex, a := x, b := k, c := v }
      Emit.free x
      Emit.free k
      return v) := inferInstance
  refine .bind_grows (operands3 h tn.a tn.b n.b) (fun p hp => ?_) fun p => ?_
  · obtain ⟨x, k, v⟩ := p
    obtain ⟨hx, hk, hv⟩ := hp
    refine .ite (fun _ => ?_) fun _ => ?_
    · exact .bind (.emit rfl hx hk hv) fun _ _ => .bind (free x) fun _ _ => .bind (free k) fun _ _ => .pure hv
    · refine .look (.node tn.a) fun _ => .bind (stable hx _ id) fun x hx => ?_
      refine .look (.node tn.b) fun _ => .bind (stable hk _ id) fun k hk => ?_
      refine .look (.node n.b) fun _ => .bind (stable hv _ id) fun v hv => ?_
      refine .bind (.emit rfl hx hk trivial) fun _ _ => .bind (combine id n hv) fun v hv => ?_
      exact .bind (.emit rfl hx hk hv) fun _ _ => .bind (free x) fun _ _ => .bind (free k) fun _ _ => .pure hv
  · exact Carries.ite inferInstance (Carries.bind fun _ => Carries.bind fun _ => Carries.bind fun _ => Carries.bind fun _ => inferInstance)

theorem assignMember (id : NodeId) (n tn : Node) : Refers K (assignMember rec id n tn) K.later.Knows := by
  have change (x field v : Operand) : Grows (do
      Emit.emit { op := .field, a := x, b := field }
      let v ← Emit.combine id n v
      Emit.emit { op := .setField, a := x, b := field, c := v }
      Emit.free x
      return v) := inferInstance
  refine .bind (operands2 h tn.a n.b) fun p hp => ?_
  obtain ⟨x, v⟩ := p
  obtain ⟨hx, hv⟩ := hp
  refine .bind (fieldOperand n.a tn) fun f hf => .ite (fun _ => ?_) fun _ => ?_
  · exact .bind (.emit rfl hx hf hv) fun _ _ => .bind (free x) fun _ _ => .pure hv
  · refine .look (.node tn.a) fun _ => .bind (stable hx _ id) fun x hx => ?_
    refine .look (.node n.b) fun _ => .bind (stable hv _ id) fun v hv => ?_
    refine .bind (.emit rfl hx hf trivial) fun _ _ => .bind (combine id n hv) fun v hv => ?_
    exact .bind (.emit rfl hx hf hv) fun _ _ => .bind (free x) fun _ _ => .pure hv

theorem assign (id : NodeId) (n : Node) : Refers K (assign rec id n) K.later.Knows := by
  refine .look (.node n.a) fun tn => ?_
  split
  · exact assignName h id n
  · exact assignElement h id n tn
  · exact assignMember h id n tn
  · exact .fatal

/-! ## Structs and zero values -/

theorem makeStruct (id : NodeId) (t : TypeId) (given : List (String × NodeId)) :
    Refers K (makeStruct rec id t given) K.later.Knows := by
  refine .look (.typeInfo t) fun ty => .look (.fieldDefaults t) fun ds => ?_
  have hfields := Carries.pushField (R := Grown) rec id given ds
  refine .bind (.forIn _ fun p _ => ?_) fun _ _ => .bind (typeRef t) fun _ _ =>
    .bind (.emit rfl trivial trivial trivial) fun _ _ => .pure trivial
  dsimp only
  split
  · exact .bind (push h _) fun _ _ => .pure trivial
  · exact .bind (h.zero id _) fun o ho => .bind (pushOperand ho) fun _ _ => .pure trivial
  · exact .bind (push h _) fun _ _ => .pure trivial

theorem zeroStep (id : NodeId) (t : TypeId) : Refers K (zeroStep rec id t) K.later.Knows := by
  refine .look (.typeInfo t) fun ty => ?_
  split
  case h_3 => exact stringRef ""
  case h_6 =>
    refine .bind (.forM _ fun e _ => .bind (h.zero id e) fun o ho => pushOperand ho) fun _ _ => ?_
    exact .bind (.emit rfl trivial trivial trivial) fun _ _ => .pure trivial
  case h_7 => exact makeStruct h id t []
  case h_4 => exact .bind (.emit rfl trivial trivial trivial) fun _ _ => .pure trivial
  case h_5 => exact .bind (.emit rfl trivial trivial trivial) fun _ _ => .pure trivial
  all_goals exact .pure trivial

theorem cast (id : NodeId) (n : Node) : Refers K (cast rec id n) K.later.Knows := by
  refine .bind (exprAny h n.a) fun v hv => .look (.valueKind n.a) fun source => .look (.typeKind _) fun target => ?_
  refine .ite (fun _ => .pure hv) fun _ => .ite (fun _ => .fatal) fun _ => ?_
  exact .bind (.emit rfl hv trivial trivial) fun _ _ => .bind (free v) fun _ _ => .pure trivial

/-! ## Calls -/

omit [EmitterGrows rec] h in
theorem knows_live {p : Pool} (hp : p.kind = .value ∨ p.kind = .ref) : ∀ r ∈ p.live, K.later.Knows r := by
  intro r hr
  obtain ⟨i, -, rfl⟩ := List.mem_map.1 hr
  exact knows_of_kind (hp.imp_right .inl)

omit [EmitterGrows rec] h in
theorem spillLive : Refers K spillLive fun saved => ∀ p ∈ saved, K.later.Knows p.1 ∧ K.later.Knows p.2 := by
  refine .get_bind fun s hs => .mapM _ fun reg hreg => ?_
  have hknown : K.later.Knows reg :=
    (List.mem_append.1 hreg).elim (knows_live (.inl hs.values) reg) (knows_live (.inr hs.refs) reg)
  exact .bind spill fun slot hslot => .bind (.emit rfl hslot hknown trivial) fun _ _ => .pure ⟨hknown, hslot⟩

omit [EmitterGrows rec] h in
theorem restoreLive {saved : List (Operand × Operand)} (hsaved : ∀ p ∈ saved, K.later.Knows p.1 ∧ K.later.Knows p.2) :
    Refers K (restoreLive saved) fun _ => True :=
  .bind (.forM _ fun p hp => .emit rfl (hsaved p hp).1 (hsaved p hp).2 trivial) fun _ _ => unspill _

theorem pushArg (arg : NodeId) : Refers K (pushArg rec arg) fun _ => True := by
  refine .look (.node arg) fun an => .ite (fun _ => .bind (push h arg) fun _ _ => .pure trivial) fun _ => ?_
  refine .bind (note _) fun _ _ => .bind (exprAny h an.a) fun v hv => .bind (.emit rfl hv trivial trivial) fun _ _ => ?_
  exact .bind (free v) fun _ _ => .pure trivial

theorem makeVariant (id : NodeId) (n : Node) (target : SymbolId) : Refers K (makeVariant rec id n target) K.later.Knows := by
  refine .look (.symbol target) fun sym => .bind (pushAll h n.list) fun _ _ => .bind (typeRef _) fun _ _ => ?_
  refine .bind (.emit rfl trivial trivial trivial) fun _ _ => .look (.isResolved _) fun r => ?_
  exact .ite (fun _ => .fatal) fun _ => .pure trivial

theorem calleeOperand (id : NodeId) (n : Node) (info : CallInfo) :
    Refers K (calleeOperand rec id n info) fun p => p.1.isPlain = true ∧ K.later.Knows p.2 := by
  unfold Emit.calleeOperand
  split
  · exact .bind (funcRef _) fun _ hk => .pure ⟨rfl, hk⟩
  · exact .bind (nativeRef _) fun _ hk => .pure ⟨rfl, hk⟩
  · refine .bind (exprAny h n.a) fun v hv => .look (.node n.a) fun an => ?_
    exact .bind (stable hv _ id) fun o ho => .pure ⟨rfl, ho⟩

omit [EmitterGrows rec] h in
theorem saveSpread : Refers K saveSpread fun saved => ∀ slot, saved = some slot → K.later.Knows slot := by
  refine .get_bind fun s _ => .ite (fun _ => ?_) fun _ => .pure nofun
  refine .bind spill fun slot hslot => .bind (.emit rfl hslot trivial trivial) fun _ _ => .pure ?_
  rintro x ⟨⟩
  exact hslot

omit [EmitterGrows rec] h in
theorem beginSpread (spread : Bool) : Refers K (beginSpread spread) fun saved => ∀ slot, saved = some slot → K.later.Knows slot := by
  unfold Emit.beginSpread
  refine .ite (fun _ => ?_) fun _ => .pure nofun
  refine .bind saveSpread fun saved hsaved => .bind (.emit rfl trivial trivial trivial) fun _ _ => ?_
  exact .bind (.modify fun _ => .quiet rfl rfl rfl rfl rfl (fun _ => rfl) rfl rfl) fun _ _ => .pure hsaved

omit [EmitterGrows rec] h in
theorem endSpread (spread : Bool) : Refers K (endSpread spread) fun _ => True :=
  .modify fun _ => .quiet rfl rfl rfl rfl rfl (fun _ => rfl) rfl rfl

omit [EmitterGrows rec] h in
theorem restoreSpread {saved : Option Operand} (hsaved : ∀ slot, saved = some slot → K.later.Knows slot) :
    Refers K (restoreSpread saved) fun _ => True := by
  cases saved with
  | none => exact .pure trivial
  | some slot => exact .bind (.emit rfl trivial (hsaved slot rfl) trivial) fun _ _ => unspill 1

theorem pushArgs (n : Node) (method : Bool) : Refers K (pushArgs rec n method) fun _ => True := by
  have hfold := foldlM (K := K) (f := fun k arg => do Pure.pure (k + (← Emit.pushArg rec arg))) n.list.reverse
    (fun k arg _ => .bind (pushArg h arg) fun _ _ => .pure trivial) 0
  refine .bind hfold fun fixed _ => .ite (fun _ => .pure trivial) fun _ => ?_
  exact .look (.node n.a) fun an => .bind (push h _) fun _ _ => .pure trivial

omit [EmitterGrows rec] h in
theorem invoke {op : Opcode} {callee : Operand} (hop : op.isPlain = true) (hc : K.later.Knows callee) (fixed : Nat) :
    Refers K (invoke op callee fixed) fun _ => True :=
  .bind spillLive fun _ hsaved => .bind (.emit hop hc trivial trivial) fun _ _ => restoreLive hsaved

theorem call (id : NodeId) (n : Node) : Refers K (call rec id n) K.later.Knows := by
  have leave (op : Opcode) (callee : Operand) (fixed : Nat) (saved : Option Operand) : Grows (do
      Emit.free callee
      Emit.invoke op callee fixed
      Emit.restoreSpread saved
      return if (← typeKind n.valueType) = .void then Operand.none else .returned) := inferInstance
  refine .look .unit fun u => ?_
  split
  · rename_i info _
    refine .ite (fun _ => makeVariant h id n info.target) fun _ => .bind (calleeOperand h id n info) fun p hp => ?_
    refine .look .unit fun u => .bind (beginSpread _) fun saved hsaved => .bind (pushArgs h n info.method) fun fixed _ => ?_
    refine .bind (endSpread _) fun _ _ => .bind (free _) fun _ _ => .bind (invoke hp.1 hp.2 fixed) fun _ _ => ?_
    refine .bind (restoreSpread hsaved) fun _ _ => .look (.typeKind _) fun k => .pure ?_
    split <;> trivial
  · exact .fatal

/-! ## Every kind of expression -/

theorem value (id : NodeId) (n : Node) : Refers K (value rec id n) K.later.Knows := by
  unfold Emit.value
  split
  case h_3 => exact stringRef _
  case h_6 => exact name id n
  case h_7 => exact binary h id n
  case h_8 => exact unary h n
  case h_9 => exact assign h id n
  case h_10 => exact call h id n
  case h_11 =>
    refine .bind (operands2 h n.a n.b) fun p hp => .bind (.emit rfl hp.1 hp.2 trivial) fun _ _ => ?_
    exact .bind (free _) fun _ _ => .bind (free _) fun _ _ => .pure trivial
  case h_12 =>
    refine .bind (exprAny h n.a) fun x hx => .bind (fieldOperand id n) fun f hf => ?_
    exact .bind (.emit rfl hx hf trivial) fun _ _ => .bind (free x) fun _ _ => .pure trivial
  case h_13 => exact .bind (pushAll h n.list) fun _ _ => .bind (.emit rfl trivial trivial trivial) fun _ _ => .pure trivial
  case h_14 =>
    refine .bind (.forM _ fun p _ => .look (.node p) fun pn => .bind (push h _) fun _ _ => push h _) fun _ _ => ?_
    exact .bind (.emit rfl trivial trivial trivial) fun _ _ => .pure trivial
  case h_15 => exact .bind (pushAll h n.list) fun _ _ => .bind (.emit rfl trivial trivial trivial) fun _ _ => .pure trivial
  case h_16 => exact .look (.givenFields n.list) fun given => makeStruct h id n.valueType given
  case h_17 => exact cast h id n
  case h_18 => exact literal id
  case h_19 => exact .fatal
  all_goals exact .pure trivial

theorem exprStep (id : NodeId) (inRegister : Bool) : Refers K (exprStep rec id inRegister) K.later.Knows := by
  refine .look (.node id) fun n => .look (.isResolved _) fun r => .ite (fun _ => .fatal) fun _ => ?_
  refine .bind (note _) fun _ _ => .bind (value h id n) fun op hop => ?_
  exact .ite (fun _ => toRegister hop _ id) fun _ => .pure hop

/-! ## Statements -/

theorem letStmt (id : NodeId) (n : Node) : Refers K (letStmt rec id n) fun _ => True := by
  refine .ite (fun _ => .pure trivial) fun _ => .look .unit fun u => ?_
  split
  · exact .pure trivial
  · refine .look (.symbol _) fun s => .ite (fun _ => .pure trivial) fun _ => .bind (storage _) fun dst hdst => ?_
    refine .ite (fun _ => .bind (h.zero id _) fun src hsrc => move hdst hsrc) fun _ => ?_
    exact .bind (exprAny h n.b) fun src hsrc => move hdst hsrc

theorem condition (id : NodeId) {l : Label} (hl : K.Own l) : Refers K (condition rec id l) fun _ => True :=
  .bind (exprAny h id) fun c hc => .bind (branch (.inr (.inl rfl)) hc hl) fun _ _ => free c

theorem ifStmt (n : Node) : Refers K (ifStmt rec n) fun _ => True := by
  have other (stop no : Label) : Grows (do
      Emit.bindLabel no
      rec.stmt n.c
      Emit.bindLabel stop) := inferInstance
  refine .bind newLabel fun stop hstop => .ite (fun _ => ?_) fun _ => .bind newLabel fun no hno => ?_
  · exact .bind (condition h n.a hstop) fun _ _ => .bind (h.stmt n.b) fun _ _ => bindLabel hstop
  · refine .bind (condition h n.a hno) fun _ _ => .bind (h.stmt n.b) fun _ _ => .bind (jumpTo hstop) fun _ _ => ?_
    exact .bind (bindLabel hno) fun _ _ => .bind (h.stmt n.c) fun _ _ => bindLabel hstop

omit [EmitterGrows rec] in
/-- Within the body the targets of the loop may be jumped to, and after it they are left as before it. -/
theorem inLoop {l : LoopTargets} (hl : K.Own l.exit ∧ K.Own l.again) (body : NodeId) :
    Refers K (inLoop rec l body) fun _ => True := by
  intro s a s' hs hm hlater
  obtain ⟨_, s₁, hopen, h₁⟩ := bind_ok hm
  cases hopen
  obtain ⟨_, s₂, hbody, hclose⟩ := bind_ok h₁
  cases hclose
  have hinside : K.At { s with frame := { s.frame with loops := l :: s.frame.loops } } :=
    { hs with
      tidy := ⟨hs.tidy.asm, hs.tidy.queue, hs.tidy.rows, hs.tidy.natives⟩
      loops := List.forall_mem_cons.2 ⟨hl, hs.loops⟩ }
  have hleft : Grown s₂ { s₂ with frame := { s₂.frame with loops := s₂.frame.loops.tail } } := .of_same rfl rfl rfl rfl rfl
  obtain ⟨hrun, -⟩ := h.stmt body _ _ _ hinside hbody (hleft.trans hlater)
  exact ⟨{ hrun with loops := congrArg List.tail hrun.loops }, trivial⟩

theorem whileLoop (n : Node) : Refers K (whileLoop rec n) fun _ => True := by
  refine .bind newLabel fun top htop => .bind newLabel fun exit hexit => .bind (bindLabel htop) fun _ _ => ?_
  refine .bind (condition h n.a hexit) fun _ _ => .bind (inLoop h ⟨hexit, htop⟩ n.b) fun _ _ => ?_
  exact .bind (jumpTo htop) fun _ _ => bindLabel hexit

theorem forLoop (n : Node) : Refers K (forLoop rec n) fun _ => True := by
  have body (top again exit : Label) : Grows (do
      Emit.inLoop rec { label := n.label, exit, again } n.d
      Emit.bindLabel again
      rec.stmt n.c
      Emit.jumpTo top
      Emit.bindLabel exit) := inferInstance
  refine .bind (h.stmt n.a) fun _ _ => .bind newLabel fun top htop => .bind newLabel fun again hagain => ?_
  have hrest {exit : Label} (hexit : K.Own exit) : Refers K (do
      Emit.inLoop rec { label := n.label, exit, again } n.d
      Emit.bindLabel again
      rec.stmt n.c
      Emit.jumpTo top
      Emit.bindLabel exit) fun _ => True := by
    refine .bind (inLoop h ⟨hexit, hagain⟩ n.d) fun _ _ => .bind (bindLabel hagain) fun _ _ => ?_
    exact .bind (h.stmt n.c) fun _ _ => .bind (jumpTo htop) fun _ _ => bindLabel hexit
  refine .bind newLabel fun exit hexit => .bind (bindLabel htop) fun _ _ => .ite (fun _ => ?_) fun _ => hrest hexit
  exact .bind (condition h n.b hexit) fun _ _ => hrest hexit

omit [EmitterGrows rec] h in
theorem fetch {op : Opcode} {it : Operand} (hop : op.isPlain = true) (hit : K.later.Knows it) (v : SymbolId) :
    Refers K (fetch op it v) fun _ => True :=
  .bind (.emit hop hit trivial trivial) fun _ _ => .bind (storage v) fun _ hdst => move hdst trivial

omit [EmitterGrows rec] h in
theorem fetch? {op : Opcode} {it : Operand} {v : Option SymbolId} {m : EmitM Unit} (hop : op.isPlain = true)
    (hit : K.later.Knows it) (hg : Grows m) (hm : Refers K m fun _ => True) : Refers K (match v with
      | some x => do
        Emit.fetch op it x
        m
      | _ => m) fun _ => True := by
  split
  · exact .bind (fetch hop hit _) fun _ _ => hm
  · exact hm

theorem foreach (id : NodeId) (n : Node) : Refers K (foreach rec id n) fun _ => True := by
  have hgrows (it : Operand) (top exit : Label) : Grows (do
      let u ← unit
      if let some sym := u.decls.get? id then Emit.fetch .iterValue it sym
      if let some sym := u.keys.get? id then Emit.fetch .iterKey it sym
      Emit.inLoop rec { label := n.label, exit, again := top } n.b
      Emit.jumpTo top
      Emit.bindLabel exit
      Emit.withRefs (·.unhold it.val.toNat)) :=
    Carries.bind fun u => Carries.fetch? (Carries.fetch? inferInstance)
  have hloop (it : Operand) : Grows (do
      Emit.emit { op := .mov, a := it, b := .accumulator }
      Emit.withRefs (·.hold it.val.toNat)
      let top ← Emit.newLabel
      let exit ← Emit.newLabel
      Emit.bindLabel top
      Emit.emit { op := .iterNext, a := it, b := .label exit }
      let u ← unit
      if let some sym := u.decls.get? id then Emit.fetch .iterValue it sym
      if let some sym := u.keys.get? id then Emit.fetch .iterKey it sym
      Emit.inLoop rec { label := n.label, exit, again := top } n.b
      Emit.jumpTo top
      Emit.bindLabel exit
      Emit.withRefs (·.unhold it.val.toNat)) :=
    Carries.bind fun _ => Carries.bind fun _ => Carries.bind fun top => inferInstance
  refine .bind (exprAny h n.a) fun x hx => .bind (.emit rfl hx trivial trivial) fun _ _ => .bind (free x) fun _ _ => ?_
  refine .bind (acquireRef id) fun it hit => .bind (.emit rfl hit trivial trivial) fun _ _ => ?_
  refine .bind (.withRefs fun _ _ => Pool.kind_hold) fun _ _ => .bind newLabel fun top htop => ?_
  refine .bind newLabel fun exit hexit => .bind (bindLabel htop) fun _ _ => ?_
  refine .bind (branch (.inr (.inr rfl)) hit hexit) fun _ _ => .look .unit fun u => ?_
  refine fetch? rfl hit (Carries.fetch? inferInstance) (fetch? rfl hit inferInstance ?_)
  refine .bind (inLoop h ⟨hexit, htop⟩ n.b) fun _ _ => .bind (jumpTo htop) fun _ _ => .bind (bindLabel hexit) fun _ _ => ?_
  exact .withRefs fun _ _ => Pool.kind_unhold

omit [EmitterGrows rec] h in
/-- Where to go when no arm matches is the label of an arm or what it was before. -/
theorem dispatch {tag : Operand} (htag : K.later.Knows tag) (arms : List NodeId) : ∀ fallback, K.Own fallback →
    Refers K (dispatch tag arms fallback) fun p => (∀ l ∈ p.1, K.Own l) ∧ K.Own p.2 := by
  induction arms with
  | nil => exact fun fallback hf => .pure ⟨nofun, hf⟩
  | cons c rest ih =>
    intro fallback hf
    refine .bind_grows newLabel (fun l hl => .look .unit fun u => ?_) fun l => Carries.bind fun u => by split <;> infer_instance
    split
    · rename_i t _
      have hnext : K.Own (if t < 0 then l else fallback) := by split <;> assumption
      have hrest : Refers K (do
          let p ← Emit.dispatch tag rest (if t < 0 then l else fallback)
          Pure.pure (l :: p.1, p.2)) fun p => (∀ l ∈ p.1, K.Own l) ∧ K.Own p.2 :=
        .bind (ih _ hnext) fun p hp => .pure ⟨List.forall_mem_cons.2 ⟨hl, hp.1⟩, hp.2⟩
      refine .ite (fun _ => ?_) fun _ => hrest
      exact .bind (.emit rfl htag trivial trivial) fun _ _ => .bind (branch (.inl rfl) trivial hl) fun _ _ => hrest
    · exact .fatal

theorem arm {subject : Operand} {stop l : Label} (hsubject : K.later.Knows subject) (hstop : K.Own stop) (hl : K.Own l)
    (c : NodeId) : Refers K (arm rec subject stop c l) fun _ => True := by
  have hgrows (u : AnalysisResult) (cn : Node) : Grows (match u.decls.get? c with
      | some sym => do
        Emit.fetch .payload subject sym
        rec.stmt cn.a
        Emit.jumpTo stop
      | _ => do
        rec.stmt cn.a
        Emit.jumpTo stop) := Carries.fetch? inferInstance
  refine .bind_grows (bindLabel hl) (fun _ _ => .look (.node c) fun cn => .bind_grows (note _)
      (fun _ _ => .look .unit fun u => ?_) fun _ => Carries.bind fun u => hgrows u cn)
    fun _ => Carries.bind fun cn => Carries.bind fun _ => Carries.bind fun u => hgrows u cn
  exact fetch? rfl hsubject inferInstance (.bind (h.stmt cn.a) fun _ _ => jumpTo hstop)

theorem matchArms (id : NodeId) (n : Node) {subject : Operand} (hsubject : K.later.Knows subject) (held : Bool) :
    Refers K (matchArms rec id n subject held) fun _ => True := by
  have leave (stop : Label) : Grows (do
      Emit.bindLabel stop
      if held then Emit.withRefs (·.unhold subject.val.toNat) else Emit.free subject) := inferInstance
  unfold Emit.matchArms
  refine .bind_grows (.emit rfl hsubject trivial trivial) (fun _ _ => .bind_grows (acquireValue id) (fun tag htag => ?_)
    fun _ => Carries.bind fun _ => Carries.bind fun _ => inferInstance)
    fun _ => Carries.bind fun _ => Carries.bind fun _ => Carries.bind fun _ => inferInstance
  refine .bind_grows (.emit rfl htag trivial trivial) (fun _ _ => .bind newLabel fun stop hstop => ?_)
    fun _ => Carries.bind fun _ => Carries.bind fun p => inferInstance
  refine .bind (dispatch htag n.list stop hstop) fun p hp => .bind (jumpTo hp.2) fun _ _ => ?_
  refine .bind (.withValues fun _ _ => Pool.kind_release) fun _ _ => .bind (.forM _ fun q hq => ?_) fun _ _ => ?_
  · exact arm h hsubject hstop (hp.1 q.2 (List.of_mem_zip hq).2) q.1
  · refine .bind (bindLabel hstop) fun _ _ => .ite (fun _ => ?_) fun _ => free subject
    exact .withRefs fun _ _ => Pool.kind_unhold

theorem matchStmt (id : NodeId) (n : Node) : Refers K (matchStmt rec id n) fun _ => True := by
  rw [matchStmt_eq]
  refine .bind (exprAny h n.a) fun v hv => .look (.node n.a) fun an => .bind (stable hv _ id) fun subject hsubject => ?_
  refine .ite (fun _ => ?_) fun _ => matchArms h id n hsubject _
  exact .bind (.withRefs fun _ _ => Pool.kind_hold) fun _ _ => matchArms h id n hsubject _

theorem returnStmt (n : Node) : Refers K (returnStmt rec n) fun _ => True := by
  refine .get_bind fun s _ => .ite (fun _ => .ite (fun _ => ?_) fun _ => .emit rfl trivial trivial trivial) fun _ => ?_
  · exact .bind (exprAny h n.a) fun o _ => .bind (free o) fun _ _ => .emit rfl trivial trivial trivial
  · refine .ite (fun _ => .emit rfl trivial trivial trivial) fun _ => .bind (exprAny h n.a) fun v hv => ?_
    exact .bind (.emit rfl hv trivial trivial) fun _ _ => free v

omit [EmitterGrows rec] h in
theorem loopTarget (id : NodeId) (label : String) :
    Refers K (loopTarget id label) fun l => K.Own l.exit ∧ K.Own l.again := by
  refine .get_bind fun s hs => ?_
  split
  · rename_i l hl
    exact .pure (hs.loops l (List.mem_of_find?_eq_some hl))
  · exact .fatal

theorem stmtStep (id : NodeId) : Refers K (stmtStep rec id) fun _ => True := by
  refine .ite (fun _ => .pure trivial) fun _ => .look (.node id) fun n => ?_
  refine .ite (fun _ => .bind (exprAny h id) fun o _ => free o) fun _ => .bind_grows (note _) (fun _ _ => ?_)
    fun _ => by split <;> infer_instance
  split
  case h_4 => exact .bind (exprAny h n.a) fun o _ => free o
  case h_5 => exact letStmt h id n
  case h_10 => exact ifStmt h n
  case h_11 => exact whileLoop h n
  case h_12 => exact forLoop h n
  case h_13 => exact foreach h id n
  case h_14 => exact matchStmt h id n
  case h_15 => exact .bind (loopTarget id n.label) fun l hl => jumpTo hl.1
  case h_16 => exact .bind (loopTarget id n.label) fun l hl => jumpTo hl.2
  case h_17 => exact returnStmt h n
  case h_18 => exact .fatal
  case h_6 | h_7 | h_8 | h_9 => exact .pure trivial
  all_goals exact .forM _ fun id _ => h.stmt id

end

end Refers

theorem emitter_refers (fuel : Nat) : EmitterRefers K (emitter fuel) := by
  induction fuel with
  | zero => exact ⟨fun _ _ => .throw, fun _ => .throw, fun _ _ => .throw⟩
  | succ fuel ih => exact ⟨fun id b => .exprStep ih id b, fun id => .stmtStep ih id, fun id t => .zeroStep ih id t⟩

end TreeCompiler.Emit
