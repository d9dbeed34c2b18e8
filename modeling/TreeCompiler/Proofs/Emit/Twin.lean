import TreeCompiler.Proofs.Emit.Rounds

/-!
# The direct emitter does the same

`emitters_twin` : at every depth the direct emitter and the one with rounds are twins. Lists of operands apart, both run
through the same code, one step of one beside the same step of the other.
-/

namespace TreeCompiler.Emit

variable {drec rec : Emitter} {Γ : Links} {o o' : Operand}

namespace Pairs

/-! ## Values -/

theorem accumulator : Gives Γ (Pure.pure Operand.accumulator) (Pure.pure Operand.accumulator) := (give (by simp))

theorem fieldOperand (id : NodeId) (n : Node) : Gives Γ (fieldOperand id n) (fieldOperand id n) := by
  refine look .unit fun u => ?_
  split
  · exact give (by simp)
  · exact stringRef n.name

theorem name (id : NodeId) (n : Node) : Gives Γ (name id n) (name id n) := by
  refine look (.binding id) fun v => look (.symbol v) fun sym => ?_
  split
  · refine (storage v).mono fun o o' h => ?_
    obtain ⟨rfl, ho⟩ := h
    exact ⟨.refl _, fun w hΓ => List.forall_mem_singleton.2 ((Known.of_untied ho).links hΓ)⟩
  · exact ite (fun _ => bind (nativeRef v) fun _ _ _ => give (by simp)) fun _ => bind (funcRef v) fun _ _ _ => give (by simp)
  · exact bind (typeRef _) fun _ _ _ => bind (emit rfl (by simp) (by simp) (by simp)) fun _ _ _ => accumulator
  · exact fatal

theorem literal (id : NodeId) : Gives Γ (literal id) (literal id) := by
  refine look .unit fun u => ?_
  split
  · rename_i fn _
    refine bind (funcRef fn) fun i i' _ => look (.funcScope fn) fun sc => ite (fun _ => give (by simp)) fun _ => ?_
    refine bind (forM_same _ fun p _ => ?_) fun _ _ _ => bind (emit rfl (by simp) (by simp) (by simp)) fun _ _ _ => accumulator
    exact same (R := fun o _ => o.isTied = false) (storage p.1) fun o ho => emit rfl (.of_untied ho) (by simp) (by simp)
  · exact fatal

theorem combine (id : NodeId) (n : Node) (h : Likewise o o') (hΓ : Known Γ o o') :
    Gives Γ (combine id n o) (combine id n o') :=
  look (.binaryCode id n.op n.a n.b) fun _ => bind (emit rfl (.of_kind rfl nofun) hΓ (by simp)) fun _ _ _ =>
    bind (free h) fun _ _ _ => accumulator

/-- An instruction over two operands, which are given back. -/
theorem consume {op : Opcode} {l l' r r' : Operand} (hl : Likewise l l') (hr : Likewise r r')
    (hlΓ : Known Γ l l') (hrΓ : Known Γ r r') :
    Gives Γ (do Emit.emit { op, a := l, b := r }; Emit.free l; Emit.free r; Pure.pure Operand.accumulator)
      (do Emit.emit { op, a := l', b := r' }; Emit.free l'; Emit.free r'; Pure.pure Operand.accumulator) :=
  bind (emit rfl hlΓ hrΓ (by simp)) fun _ _ _ => bind (free hl) fun _ _ _ => bind (free hr) fun _ _ _ => accumulator

section

variable (hT : Twin drec rec)

include hT

theorem exprAny (id : NodeId) : Gives Γ (exprAny drec id) (exprAny rec id) := (hT.expr id false).weaken (List.nil_subset _)

theorem zero (id : NodeId) (t : TypeId) : Gives Γ (drec.zero id t) (rec.zero id t) := (hT.zero id t).weaken (List.nil_subset _)

theorem stmt (id : NodeId) : Runs Γ (drec.stmt id) (rec.stmt id) := (hT.stmt id).weaken (List.nil_subset _)

theorem push (id : NodeId) : Runs Γ (push drec id) (push rec id) := bind (exprAny hT id) fun _ _ h => pushOperand h (by simp)

theorem pushAll (ids : List NodeId) : Runs Γ (pushAll drec ids) (pushAll rec ids) := forM_same ids fun id _ => push hT id

theorem logical (id : NodeId) (n : Node) : Gives Γ (logical drec id n) (logical rec id n) := by
  refine same (R := fun o _ => o.kind = .value) (acquireValue id) fun res hres => ?_
  have hplace : res.isTied = false := by simp [Operand.isTied, hres]
  refine bind (exprAny hT n.a) fun x x' hx => bind (move hplace hx (by simp)) fun _ _ _ => bind newLabel fun stop stop' _ => ?_
  refine bind (emit rfl (.of_untied hplace) (by simp) (by simp)) fun _ _ _ => bind (exprAny hT n.b) fun y y' hy => ?_
  exact bind (move hplace hy (by simp)) fun _ _ _ => bind (bindLabel (by simp)) fun _ _ _ => give (.of_untied hplace)

theorem unary (n : Node) : Gives Γ (unary drec n) (unary rec n) := by
  unfold Emit.unary
  split
  · refine look (.valueKind n.a) fun k => bind (exprAny hT n.a) fun x x' hx => bind (emit rfl (by simp) (by simp) (by simp)) fun _ _ _ => ?_
    exact bind (free hx) fun _ _ _ => accumulator
  · exact fatal

theorem makeStruct (at' : NodeId) (t : TypeId) (given : List (String × NodeId)) :
    Gives Γ (makeStruct drec at' t given) (makeStruct rec at' t given) := by
  refine look (.typeInfo t) fun ty => look (.fieldDefaults t) fun defaults => bind (forIn _ fun p _ => ?_) fun _ _ _ => ?_
  · obtain ⟨f, i⟩ := p
    dsimp only
    split
    · exact bind (push hT _) fun _ _ _ => .pure rfl fun _ _ => .nil
    · exact bind (zero hT at' f.type) fun o o' ho => bind (pushOperand ho (by simp)) fun _ _ _ => .pure rfl fun _ _ => .nil
    · exact bind (push hT _) fun _ _ _ => .pure rfl fun _ _ => .nil
  · exact bind (typeRef t) fun _ _ _ => bind (emit rfl (by simp) (by simp) (by simp)) fun _ _ _ => accumulator

theorem zeroStep (at' : NodeId) (t : TypeId) : Gives Γ (zeroStep drec at' t) (zeroStep rec at' t) := by
  refine look (.typeInfo t) fun ty => ?_
  split
  · exact give (by simp)
  · exact give (by simp)
  · exact stringRef ""
  · exact bind (emit rfl (by simp) (by simp) (by simp)) fun _ _ _ => accumulator
  · exact bind (emit rfl (by simp) (by simp) (by simp)) fun _ _ _ => accumulator
  · refine bind (forM_same _ fun e _ => ?_) fun _ _ _ => bind (emit rfl (by simp) (by simp) (by simp)) fun _ _ _ => accumulator
    exact bind (zero hT at' e) fun _ _ h => pushOperand h (by simp)
  · exact makeStruct hT at' t []
  · exact give (by simp)

theorem cast (id : NodeId) (n : Node) : Gives Γ (cast drec id n) (cast rec id n) := by
  refine bind (exprAny hT n.a) fun v v' hv => look (.valueKind n.a) fun source => look (.typeKind _) fun target => ?_
  refine ite (fun _ => give (by simp)) fun _ => ite (fun _ => fatal) fun _ => ?_
  exact bind (emit rfl (by simp) (by simp) (by simp)) fun _ _ _ => bind (free hv) fun _ _ _ => accumulator

theorem pushArg (arg : NodeId) : Pairs Γ (pushArg drec arg) (pushArg rec arg) Eq fun _ _ => [] := by
  refine look (.node arg) fun an => ite (fun _ => bind (push hT arg) fun _ _ _ => .pure rfl fun _ _ => .nil) fun _ => ?_
  refine bind (note _) fun _ _ _ => bind (exprAny hT an.a) fun v v' hv => bind (emit rfl (by simp) (by simp) (by simp)) fun _ _ _ => ?_
  exact bind (free hv) fun _ _ _ => .pure rfl fun _ _ => .nil

theorem pushArgs (n : Node) (method : Bool) : Pairs Γ (pushArgs drec n method) (pushArgs rec n method) Eq fun _ _ => [] := by
  have args : ∀ k, Pairs Γ (n.list.reverse.foldlM (fun k arg => do return k + (← Emit.pushArg drec arg)) k)
      (n.list.reverse.foldlM (fun k arg => do return k + (← Emit.pushArg rec arg)) k) Eq fun _ _ => [] :=
    foldlM _ fun k arg _ => bind (pushArg hT arg) fun _ _ h => .pure (by rw [h]) fun _ _ => .nil
  refine bind (args 0) fun fixed fixed' h => ?_
  subst h
  refine ite (fun _ => .pure rfl fun _ _ => .nil) fun _ => ?_
  exact look (.node n.a) fun an => bind (push hT an.a) fun _ _ _ => .pure rfl fun _ _ => .nil

theorem makeVariant (id : NodeId) (n : Node) (target : SymbolId) : Gives Γ (makeVariant drec id n target) (makeVariant rec id n target) := by
  refine look (.symbol target) fun sym => bind (pushAll hT n.list) fun _ _ _ => bind (typeRef _) fun _ _ _ => ?_
  exact bind (emit rfl (by simp) (by simp) (by simp)) fun _ _ _ => look (.isResolved _) fun r => ite (fun _ => fatal) fun _ => accumulator

theorem calleeOperand (id : NodeId) (n : Node) (info : CallInfo) : Pairs Γ (calleeOperand drec id n info)
    (calleeOperand rec id n info) (fun p p' => p'.1 = p.1 ∧ Likewise p.2 p'.2) fun p p' => [(p.2, p'.2)] := by
  unfold Emit.calleeOperand
  split
  · exact bind (funcRef _) fun i i' _ => .pure ⟨rfl, rfl, nofun⟩ fun _ h => List.forall_mem_singleton.2 h.head
  · exact bind (nativeRef _) fun i i' _ => .pure ⟨rfl, rfl, nofun⟩ fun _ h => List.forall_mem_singleton.2 h.head
  · refine bind (exprAny hT n.a) fun v v' hv => look (.node n.a) fun an => bind (stable hv _ id (by simp)) fun o o' ho => ?_
    exact .pure ⟨rfl, ho⟩ fun _ h => List.forall_mem_singleton.2 h.head

theorem call (id : NodeId) (n : Node) : Gives Γ (call drec id n) (call rec id n) := by
  refine look .unit fun u => ?_
  split
  · rename_i info _
    refine ite (fun _ => makeVariant hT id n info.target) fun _ => ?_
    refine bind (calleeOperand hT id n info) fun p p' hp => look .unit fun u => ?_
    obtain ⟨op, callee⟩ := p
    obtain ⟨op', callee'⟩ := p'
    obtain ⟨rfl, hcallee⟩ := hp
    refine same (R := fun saved _ => ∀ slot, saved = some slot → slot.kind = .stack) (beginSpread _) fun saved hsaved => ?_
    refine bind (pushArgs hT n info.method) fun fixed fixed' h => ?_
    subst h
    refine bind (endSpread _) fun _ _ _ => bind (free hcallee) fun _ _ _ => bind (invoke _ fixed (by simp)) fun _ _ _ => ?_
    refine bind (restoreSpread hsaved) fun _ _ _ => look (.typeKind _) fun k => ?_
    split
    · exact give (by simp)
    · exact give (by simp)
  · exact fatal

/-! ## Statements -/

theorem letStmt (id : NodeId) (n : Node) : Runs Γ (letStmt drec id n) (letStmt rec id n) := by
  refine ite (fun _ => done) fun _ => look .unit fun u => ?_
  split
  · exact done
  · rename_i v _
    refine look (.symbol v) fun sym => ite (fun _ => done) fun _ => ?_
    refine same (R := fun o _ => o.isTied = false) (storage v) fun dst hdst => ?_
    split
    · exact bind (zero hT id sym.type) fun x x' hx => move hdst hx (by simp)
    · exact bind (exprAny hT n.b) fun x x' hx => move hdst hx (by simp)

theorem condition (id : NodeId) (target target' : Label) (hΓ : (Operand.label target, Operand.label target') ∈ Γ) :
    Runs Γ (condition drec id target) (condition rec id target') := by
  refine bind (exprAny hT id) fun c c' hc => bind (emit rfl (.inl (by simp)) (.inl ?_) (by simp)) fun _ _ _ => free hc
  exact List.mem_append_right _ hΓ

omit hT in
theorem jumpTo {l l' : Label} (hΓ : (Operand.label l, Operand.label l') ∈ Γ) : Runs Γ (jumpTo l) (jumpTo l') :=
  emit rfl (.inl hΓ) (by simp) (by simp)

theorem ifStmt (n : Node) : Runs Γ (ifStmt drec n) (ifStmt rec n) := by
  refine bind newLabel fun stop stop' _ => ite (fun _ => ?_) fun _ => bind newLabel fun no no' _ => ?_
  · exact bind (condition hT n.a stop stop' (by simp)) fun _ _ _ => bind (stmt hT n.b) fun _ _ _ => bindLabel (by simp)
  · refine bind (condition hT n.a no no' (by simp)) fun _ _ _ => bind (stmt hT n.b) fun _ _ _ => bind (jumpTo (by simp)) fun _ _ _ => ?_
    exact bind (bindLabel (by simp)) fun _ _ _ => bind (stmt hT n.c) fun _ _ _ => bindLabel (by simp)

theorem whileLoop (n : Node) : Runs Γ (whileLoop drec n) (whileLoop rec n) := by
  refine bind newLabel fun top top' _ => bind newLabel fun exit exit' _ => bind (bindLabel (by simp)) fun _ _ _ => ?_
  refine bind (condition hT n.a exit exit' (by simp)) fun _ _ _ => bind (inLoop (hT.stmt n.b) rfl (by simp) (by simp)) fun _ _ _ => ?_
  exact bind (jumpTo (by simp)) fun _ _ _ => bindLabel (by simp)

theorem forLoop (n : Node) : Runs Γ (forLoop drec n) (forLoop rec n) := by
  refine bind (stmt hT n.a) fun _ _ _ => bind newLabel fun top top' _ => bind newLabel fun again again' _ => ?_
  refine bind newLabel fun exit exit' _ => bind (bindLabel (by simp)) fun _ _ _ => ?_
  have rest {Γ : Links} (htop : (Operand.label top, Operand.label top') ∈ Γ) (hagain : (Operand.label again, Operand.label again') ∈ Γ)
      (hexit : (Operand.label exit, Operand.label exit') ∈ Γ) : Runs Γ (do
        Emit.inLoop drec { label := n.label, exit, again } n.d
        Emit.bindLabel again
        drec.stmt n.c
        Emit.jumpTo top
        Emit.bindLabel exit) (do
        Emit.inLoop rec { label := n.label, exit := exit', again := again' } n.d
        Emit.bindLabel again'
        rec.stmt n.c
        Emit.jumpTo top'
        Emit.bindLabel exit') :=
    bind (inLoop (hT.stmt n.d) rfl hexit hagain) fun _ _ _ => bind (bindLabel hagain) fun _ _ _ => bind (stmt hT n.c) fun _ _ _ =>
      bind (jumpTo htop) fun _ _ _ => bindLabel hexit
  split
  · exact bind (condition hT n.b exit exit' (by simp)) fun _ _ _ => rest (by simp) (by simp) (by simp)
  · exact rest (by simp) (by simp) (by simp)

omit hT in
theorem fetch (op : Opcode) {it : Operand} (h : Known Γ it o') (v : SymbolId) : Runs Γ (fetch op it v) (fetch op o' v) :=
  bind (emit rfl h (by simp) (by simp)) fun _ _ _ => same (R := fun o _ => o.isTied = false) (storage v) fun _ ho => move ho (.refl _) (.of_kind rfl nofun)

omit hT in
/-- Fetches into a variable if there is one. -/
theorem fetch? {op : Opcode} {v : Option SymbolId} {m m' : EmitM Unit} (h : Known Γ o o') (hm : Runs Γ m m') :
    Runs Γ (match v with
      | some x => do
        Emit.fetch op o x
        m
      | _ => m) (match v with
      | some x => do
        Emit.fetch op o' x
        m'
      | _ => m') := by
  split
  · exact bind (fetch op h _) fun _ _ _ => hm
  · exact hm

theorem foreach (id : NodeId) (n : Node) : Runs Γ (foreach drec id n) (foreach rec id n) := by
  refine bind (exprAny hT n.a) fun x x' hx => bind (emit rfl (by simp) (by simp) (by simp)) fun _ _ _ => bind (free hx) fun _ _ _ => ?_
  refine same (R := fun o _ => o.kind = .ref) (acquireRef id) fun it hit => bind (emit rfl (.of_kind hit nofun) (by simp) (by simp)) fun _ _ _ => ?_
  refine bind (withRefs (tidy_hold _)) fun _ _ _ => bind newLabel fun top top' _ => bind newLabel fun exit exit' _ => ?_
  refine bind (bindLabel (by simp)) fun _ _ _ => bind (emit rfl (.of_kind hit nofun) (by simp) (by simp)) fun _ _ _ => look .unit fun u => ?_
  refine fetch? (.of_kind hit nofun) (fetch? (.of_kind hit nofun) ?_)
  refine bind (inLoop (hT.stmt n.b) rfl (by simp) (by simp)) fun _ _ _ => bind (jumpTo (by simp)) fun _ _ _ => bind (bindLabel (by simp)) fun _ _ _ => ?_
  exact withRefs (tidy_unhold _)

omit hT in
/-- The label of one arm goes before those of the rest. -/
theorem dispatch_tail {tag : Operand} {rest : List NodeId} (ih : ∀ (Γ : Links) (f f' : Label),
      (Operand.label f, Operand.label f') ∈ Γ → Pairs Γ (dispatch tag rest f) (dispatch tag rest f')
        (fun p p' => p.1.length = p'.1.length)
        fun p p' => (.label p.2, .label p'.2) :: (p.1.zip p'.1).map fun l => (.label l.1, .label l.2))
    (t : Int) {f f' l l' : Label} (hl : (Operand.label l, Operand.label l') ∈ Γ) (hf : (Operand.label f, Operand.label f') ∈ Γ) :
    Pairs Γ (do
      let (ls, fallback) ← dispatch tag rest (if t < 0 then l else f)
      Pure.pure (l :: ls, fallback)) (do
      let (ls, fallback) ← dispatch tag rest (if t < 0 then l' else f')
      Pure.pure (l' :: ls, fallback)) (fun p p' => p.1.length = p'.1.length)
      fun p p' => (.label p.2, .label p'.2) :: (p.1.zip p'.1).map fun l => (.label l.1, .label l.2) := by
  refine bind (ih Γ _ _ (by split <;> assumption)) fun p p' hlen => .pure (congrArg (· + 1) hlen) fun w hΓ => ?_
  refine List.forall_mem_cons.2 ⟨hΓ.head, List.forall_mem_cons.2 ⟨hΓ _ (List.mem_append_right _ hl), fun q hq => ?_⟩⟩
  exact hΓ q (List.mem_append_left _ (List.mem_cons_of_mem _ hq))

omit hT in
theorem dispatch {tag : Operand} (htag : tag.isTied = false) (ids : List NodeId) : ∀ (Γ : Links) (f f' : Label),
    (Operand.label f, Operand.label f') ∈ Γ → Pairs Γ (dispatch tag ids f) (dispatch tag ids f')
      (fun p p' => p.1.length = p'.1.length)
      fun p p' => (.label p.2, .label p'.2) :: (p.1.zip p'.1).map fun l => (.label l.1, .label l.2) := by
  induction ids with
  | nil => exact fun Γ f f' hf => .pure rfl fun w hΓ => List.forall_mem_singleton.2 (hΓ _ hf)
  | cons c rest ih =>
    intro Γ f f' hf
    refine bind newLabel fun l l' _ => look .unit fun u => ?_
    split
    · rename_i t _
      refine ite (fun _ => ?_) fun _ => dispatch_tail ih t (by simp) (by simp [hf])
      refine bind (emit rfl (.of_untied htag) (by simp) (by simp)) fun _ _ _ => ?_
      exact bind (emit rfl (by simp) (by simp) (by simp)) fun _ _ _ => dispatch_tail ih t (by simp) (by simp [hf])
    · exact fatal

theorem arm (c : NodeId) {stop stop' l l' : Label} (h : Known Γ o o') (hl : (Operand.label l, Operand.label l') ∈ Γ)
    (hstop : (Operand.label stop, Operand.label stop') ∈ Γ) : Runs Γ (arm drec o stop c l) (arm rec o' stop' c l') := by
  refine bind (bindLabel hl) fun _ _ _ => look (.node c) fun cn => bind (note _) fun _ _ _ => look .unit fun u => ?_
  exact fetch? h (bind (stmt hT cn.a) fun _ _ _ => jumpTo hstop)

omit hT in
theorem forall₂_arms (ids : List NodeId) {ls ls' : List Label} (hlen : ls.length = ls'.length)
    (hmem : ∀ q ∈ ls.zip ls', (Operand.label q.1, Operand.label q.2) ∈ Γ) :
    List.Forall₂ (fun q q' : NodeId × Label => q'.1 = q.1 ∧ (Operand.label q.2, Operand.label q'.2) ∈ Γ) (ids.zip ls) (ids.zip ls') := by
  induction ids generalizing ls ls' with
  | nil => exact .nil
  | cons c ids ih =>
    cases ls with
    | nil =>
      cases ls' with
      | nil => exact .nil
      | cons _ _ => cases hlen
    | cons l ls =>
      cases ls' with
      | nil => cases hlen
      | cons l' ls' =>
        obtain ⟨hl, hmem⟩ := List.forall_mem_cons.1 hmem
        exact .cons ⟨rfl, hl⟩ (ih (Nat.succ.inj hlen) hmem)

theorem arms (id : NodeId) (n : Node) {subject subject' : Operand} {last last' : EmitM Unit}
    (h : (subject, subject') ∈ Γ) (hlast : ∀ Γ, Runs Γ last last') : Runs Γ (do
      Emit.emit { op := .tag, a := subject }
      let tag ← Emit.acquireValue id
      Emit.emit { op := .mov, a := tag, b := .accumulator }
      let stop ← Emit.newLabel
      let (labels, fallback) ← Emit.dispatch tag n.list stop
      Emit.jumpTo fallback
      Emit.withValues (·.release tag.val.toNat)
      (n.list.zip labels).forM fun (c, l) => Emit.arm drec subject stop c l
      Emit.bindLabel stop
      last) (do
      Emit.emit { op := .tag, a := subject' }
      let tag ← Emit.acquireValue id
      Emit.emit { op := .mov, a := tag, b := .accumulator }
      let stop ← Emit.newLabel
      let (labels, fallback) ← Emit.dispatch tag n.list stop
      Emit.jumpTo fallback
      Emit.withValues (·.release tag.val.toNat)
      (n.list.zip labels).forM fun (c, l) => Emit.arm rec subject' stop c l
      Emit.bindLabel stop
      last') := by
  refine bind (emit rfl (.inl h) (by simp) (by simp)) fun _ _ _ => ?_
  refine same (R := fun o _ => o.kind = .value) (acquireValue id) fun tag htag => ?_
  refine bind (emit rfl (.of_kind htag nofun) (by simp) (by simp)) fun _ _ _ => bind newLabel fun stop stop' _ => ?_
  refine bind (dispatch (by simp [Operand.isTied, htag]) n.list _ stop stop' (by simp)) fun p p' hlen => ?_
  refine bind (jumpTo (by simp)) fun _ _ _ => bind (withValues (tidy_release _)) fun _ _ _ => ?_
  have harms := forall₂_arms (Γ := (p.1.zip p'.1).map fun l => (.label l.1, .label l.2)) n.list hlen
    fun q hq => List.mem_map_of_mem hq
  refine bind (forM (harms.imp fun q q' hq => ?_)) fun _ _ _ => bind (bindLabel (by simp)) fun _ _ _ => hlast _
  obtain ⟨c, l⟩ := q
  obtain ⟨c', l'⟩ := q'
  obtain ⟨rfl, hl⟩ := hq
  refine arm hT c' (.inl (by simp [h])) ?_ (by simp)
  exact List.mem_append_right [] (List.mem_append_right [] (List.mem_append_left _ (List.mem_cons_of_mem _ hl)))

theorem matchStmt (id : NodeId) (n : Node) : Runs Γ (matchStmt drec id n) (matchStmt rec id n) := by
  refine bind (exprAny hT n.a) fun v v' hv => look (.node n.a) fun an => bind (stable hv _ id (by simp)) fun subject subject' hsubject => ?_
  rw [hsubject.kind]
  by_cases hk : subject.kind = .ref
  · obtain rfl := hsubject.of_kind hk rfl
    simp only [hk, decide_true, if_true]
    exact bind (withRefs (tidy_hold _)) fun _ _ _ => arms hT id n (by simp) fun _ => withRefs (tidy_unhold _)
  · simp only [hk, decide_false, Bool.false_eq_true, if_false]
    exact arms hT id n (by simp) fun _ => free hsubject

theorem returnStmt (n : Node) : Runs Γ (returnStmt drec n) (returnStmt rec n) := by
  refine get_bind fun w hr => ?_
  rw [hr.fn]
  refine ite (fun _ => ite (fun _ => ?_) fun _ => emit rfl (by simp) (by simp) (by simp)) fun _ => ite (fun _ => emit rfl (by simp) (by simp) (by simp)) fun _ => ?_
  · exact bind (exprAny hT n.a) fun _ _ h => bind (free h) fun _ _ _ => emit rfl (by simp) (by simp) (by simp)
  · exact bind (exprAny hT n.a) fun _ _ h => bind (emit rfl (by simp) (by simp) (by simp)) fun _ _ _ => free h

theorem stmtStep (id : NodeId) : Runs Γ (stmtStep drec id) (stmtStep rec id) := by
  refine ite (fun _ => done) fun _ => look (.node id) fun n => ite (fun _ => ?_) fun _ => bind (note _) fun _ _ _ => ?_
  · exact bind (exprAny hT id) fun _ _ h => free h
  · split
    case h_4 => exact bind (exprAny hT n.a) fun _ _ h => free h
    case h_5 => exact letStmt hT id n
    case h_10 => exact ifStmt hT n
    case h_11 => exact whileLoop hT n
    case h_12 => exact forLoop hT n
    case h_13 => exact foreach hT id n
    case h_14 => exact matchStmt hT id n
    case h_15 => exact bind (loopTarget id n.label) fun _ _ _ => jumpTo (by simp)
    case h_16 => exact bind (loopTarget id n.label) fun _ _ _ => jumpTo (by simp)
    case h_17 => exact returnStmt hT n
    case h_18 => exact fatal
    all_goals first
      | exact done
      | exact forM_same _ fun x _ => stmt hT x

/-- An expression that evaluates no list of operands. -/
theorem plainValue (id : NodeId) (n : Node) (hbinary : n.kind ≠ .binary) (hassign : n.kind ≠ .assign) (hindex : n.kind ≠ .index) :
    Gives Γ (value drec id n) (value rec id n) := by
  unfold Emit.value
  split
  case h_3 => exact stringRef n.text
  case h_6 => exact name id n
  case h_7 => exact absurd ‹_› hbinary
  case h_8 => exact unary hT n
  case h_9 => exact absurd ‹_› hassign
  case h_10 => exact call hT id n
  case h_11 => exact absurd ‹_› hindex
  case h_12 =>
    refine bind (exprAny hT n.a) fun x x' hx => bind (fieldOperand id n) fun _ _ _ => bind (emit rfl (by simp) (by simp) (by simp)) fun _ _ _ => ?_
    exact bind (free hx) fun _ _ _ => accumulator
  case h_13 => exact bind (pushAll hT n.list) fun _ _ _ => bind (emit rfl (by simp) (by simp) (by simp)) fun _ _ _ => accumulator
  case h_14 =>
    refine bind (forM_same _ fun p _ => look (.node p) fun pn => ?_) fun _ _ _ => bind (emit rfl (by simp) (by simp) (by simp)) fun _ _ _ => accumulator
    exact bind (push hT pn.a) fun _ _ _ => push hT pn.b
  case h_15 => exact bind (pushAll hT n.list) fun _ _ _ => bind (emit rfl (by simp) (by simp) (by simp)) fun _ _ _ => accumulator
  case h_16 => exact look (.givenFields n.list) fun given => makeStruct hT id n.valueType given
  case h_17 => exact cast hT id n
  case h_18 => exact literal id
  case h_19 => exact fatal
  all_goals exact give (by simp)

end

/-! ## Lists of operands -/

section

variable (hT : Twin drec rec) (hL : Lenient rec) (hG : GoodAnywhere rec)

include hT hL hG

theorem binary (id : NodeId) (n : Node) : Gives Γ (Direct.binary drec id n) (binary rec id n) := by
  refine ite (fun _ => logical hT id n) fun _ => look (.binaryCode id n.op n.a n.b) fun op => ?_
  exact bind (operands2 hT hL hG n.a n.b) fun p p' hp => consume hp.1 hp.2 (by simp) (by simp)

theorem assignName (id : NodeId) (n : Node) : Gives Γ (Direct.assignName drec id n) (assignName rec id n) := by
  refine look (.binding n.a) fun v => same (R := fun o _ => o.isTied = false) (storage v) fun dst hdst => ?_
  refine ite (fun _ => ?_) fun _ => bind (operands2 hT hL hG n.a n.b) fun p p' hp => ?_
  · exact bind (exprAny hT n.b) fun x x' hx => bind (move hdst hx (by simp)) fun _ _ _ => give (.of_untied hdst)
  · refine look (.binaryCode id n.op n.a n.b) fun op => bind (emit rfl (by simp) (by simp) (by simp)) fun _ _ _ => ?_
    refine bind (free hp.1) fun _ _ _ => bind (free hp.2) fun _ _ _ => ?_
    exact bind (move hdst (.refl _) (.of_kind rfl nofun)) fun _ _ _ => give (.of_untied hdst)

theorem assignElement (id : NodeId) (n tn : Node) : Gives Γ (Direct.assignElement drec id n tn) (assignElement rec id n tn) := by
  refine bind (operands3 hT hL hG tn.a tn.b n.b) fun p p' hp => ?_
  obtain ⟨x, k, v⟩ := p
  obtain ⟨x', k', v'⟩ := p'
  obtain ⟨hx, hk, hv⟩ := hp
  refine ite (fun _ => ?_) fun _ => ?_
  · exact bind (emit rfl (by simp) (by simp) (by simp)) fun _ _ _ => bind (free hx) fun _ _ _ => bind (free hk) fun _ _ _ => give (by simp)
  · refine look (.node tn.a) fun _ => bind (stable hx _ id (by simp)) fun x x' hx => ?_
    refine look (.node tn.b) fun _ => bind (stable hk _ id (by simp)) fun k k' hk => ?_
    refine look (.node n.b) fun _ => bind (stable hv _ id (by simp)) fun v v' hv => ?_
    refine bind (emit rfl (by simp) (by simp) (by simp)) fun _ _ _ => bind (combine id n hv (by simp)) fun r r' hr => bind (emit rfl (by simp) (by simp) (by simp)) fun _ _ _ => ?_
    exact bind (free hx) fun _ _ _ => bind (free hk) fun _ _ _ => give (by simp)

theorem assignMember (id : NodeId) (n tn : Node) : Gives Γ (Direct.assignMember drec id n tn) (assignMember rec id n tn) := by
  refine bind (operands2 hT hL hG tn.a n.b) fun p p' hp => ?_
  obtain ⟨x, v⟩ := p
  obtain ⟨x', v'⟩ := p'
  obtain ⟨hx, hv⟩ := hp
  refine bind (fieldOperand n.a tn) fun _ _ _ => ite (fun _ => ?_) fun _ => ?_
  · exact bind (emit rfl (by simp) (by simp) (by simp)) fun _ _ _ => bind (free hx) fun _ _ _ => give (by simp)
  · refine look (.node tn.a) fun _ => bind (stable hx _ id (by simp)) fun x x' hx => ?_
    refine look (.node n.b) fun _ => bind (stable hv _ id (by simp)) fun v v' hv => ?_
    refine bind (emit rfl (by simp) (by simp) (by simp)) fun _ _ _ => bind (combine id n hv (by simp)) fun r r' hr => bind (emit rfl (by simp) (by simp) (by simp)) fun _ _ _ => ?_
    exact bind (free hx) fun _ _ _ => give (by simp)

theorem assign (id : NodeId) (n : Node) : Gives Γ (Direct.assign drec id n) (assign rec id n) := by
  refine look (.node n.a) fun tn => ?_
  by_cases hident : tn.kind = .ident
  · simp only [hident]
    exact assignName hT hL hG id n
  by_cases hindex : tn.kind = .index
  · simp only [hindex]
    exact assignElement hT hL hG id n tn
  by_cases hmember : tn.kind = .member
  · simp only [hmember]
    exact assignMember hT hL hG id n tn
  -- No other target can be assigned to, on either side.
  · simp only
    exact fatal

theorem value (id : NodeId) (n : Node) : Gives Γ (Direct.value drec id n) (value rec id n) := by
  unfold Direct.value
  split
  · rename_i hk
    simp only [Emit.value, hk]
    exact binary hT hL hG id n
  · rename_i hk
    simp only [Emit.value, hk]
    exact assign hT hL hG id n
  · rename_i hk
    simp only [Emit.value, hk]
    exact bind (operands2 hT hL hG n.a n.b) fun p p' hp => consume hp.1 hp.2 (by simp) (by simp)
  · exact plainValue hT id n ‹_› ‹_› ‹_›

theorem exprStep (id : NodeId) (forced : Bool) : Gives Γ (Direct.exprStep drec id forced) (exprStep rec id forced) := by
  refine look (.node id) fun n => look (.isResolved _) fun r => ite (fun _ => fatal) fun _ => bind (note _) fun _ _ _ => ?_
  refine bind (value hT hL hG id n) fun o o' h => ite (fun _ => toRegister h _ id (by simp)) fun _ => give (by simp)

end

end Pairs

end TreeCompiler.Emit
