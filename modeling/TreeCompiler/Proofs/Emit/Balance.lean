import TreeCompiler.Analysis.Run
import TreeCompiler.Emit.Run
import TreeCompiler.Proofs.Emit.Claim
import TreeCompiler.Proofs.Emit.Queue
import TreeCompiler.Tree.Builder

/-!
# Balanced register pools

The value of an expression may come in a scratch register, which then belongs to its consumer. Everything else that was
acquired on the way is given back.

* `Balances rec` : the emitter hands out the register of its result and nothing else;
* `emitter_balances` : every emitter does;
* `registers_balanced` : what follows for statements, functions and whole programs.
-/

namespace TreeCompiler.Emit

structure Balances (rec : Emitter) : Prop where
  expr : ∀ B cs id inRegister, Handles B cs (rec.expr id inRegister) fun o => own o :: cs
  stmt : ∀ B cs id, Handles B cs (rec.stmt id) fun _ => cs
  zero : ∀ B cs at' t, Handles B cs (rec.zero at' t) fun o => own o :: cs

variable {B : Bank} {cs : List Claim} {rec : Emitter}

namespace Handles

/-! ## Operands -/

section

variable (hrec : Balances rec)
include hrec

theorem exprAny (id : NodeId) : Handles B cs (exprAny rec id) fun o => own o :: cs := hrec.expr B cs id false

theorem push (id : NodeId) : Handles B cs (push rec id) fun _ => cs := .bind (exprAny hrec id) pushOperand

theorem pushAll (ids : List NodeId) : Handles B cs (pushAll rec ids) fun _ => cs := .forM ids fun id _ => push hrec id

end

/-- The search ends with an answer or at a node that is missing. -/
theorem storesAux_error {t : Tree} {fuel : Nat} {id : NodeId} {e : EmitFailure} (h : storesAux t fuel id = .error e) :
    e.isImbalance = false := by
  induction fuel generalizing id with
  | zero =>
    cases h
    rfl
  | succ fuel ih =>
    unfold storesAux at h
    split at h
    · cases h
    · split at h
      · cases h
        rfl
      · rename_i n _
        have fold (l : List NodeId) (found : Bool) (hl : l.foldlM (fun found c =>
            if !found then storesAux t fuel c
            else if c = 0 || (t.get? c).isSome then .ok true
            else .error (.fatal c .missingNode)) found = .error e) : e.isImbalance = false := by
          induction l generalizing found with
          | nil => cases hl
          | cons c l ihl =>
            rw [List.foldlM_cons] at hl
            split at hl
            · cases hc : storesAux t fuel c with
              | error e' =>
                rw [hc] at hl
                cases hl
                exact ih hc
              | ok b =>
                rw [hc] at hl
                exact ihl b hl
            · split at hl
              · exact ihl true hl
              · cases hl
                rfl
        split at h
        · cases h
        · cases h
        · cases h
        · exact fold _ _ h

theorem stores (id : NodeId) : Handles B cs (stores id) fun _ => cs := by
  refine .bind unit fun u => ?_
  dsimp only
  split
  · exact .pure_same
  · exact .throw (storesAux_error ‹_›)

theorem storesAfter (ids : List NodeId) : Handles B cs (storesAfter ids) fun _ => cs := by
  induction ids with
  | nil => exact .pure_same
  | cons id rest ih =>
    cases rest with
    | nil => exact .pure_same
    | cons next rest =>
      unfold Emit.storesAfter
      refine .bind ih fun tail => .ite (fun _ => .pure_same) fun _ => ?_
      exact .bind (stores next) fun _ => .pure_same

section

variable (hrec : Balances rec)
include hrec

theorem evaluate (id : NodeId) (forced later : Bool) :
    Handles B cs (evaluate rec id forced later) fun e => own e.op :: cs := by
  have done (op : Operand) : Handles B (own op :: cs) (do
      let s ← get
      Pure.pure { op, accumulatorWrites := s.accumulatorWrites, returnWrites := s.returnWrites : Evaluated })
      fun e => own e.op :: cs := .get_bind fun _ => .pure fun _ hs => hs
  unfold Emit.evaluate
  refine .bind (hrec.expr B cs id forced) fun op => .ite (fun _ => ?_) fun _ => done op
  exact .bind (node id) fun n => .bind (toRegister op n.valueType id) done

theorem evaluateAll (items : List (NodeId × Bool × Bool)) :
    Handles B cs (evaluateAll rec items) fun es => es.map (fun e => own e.op) ++ cs := by
  induction items generalizing cs with
  | nil => exact .pure fun _ hs => hs
  | cons x rest ih =>
    obtain ⟨id, forced, later⟩ := x
    refine .bind (evaluate hrec id forced later) fun e => .bind ih fun es => .pure fun s hs => ?_
    exact hs.perm List.perm_middle

/-- A round that is taken back leaves both pools as they were. -/
theorem operandsAux (ids : List NodeId) (storing : List Bool) (fuel : Nat) :
    ∀ forced, Handles B cs (operandsAux rec ids storing fuel forced) fun os => os.map own ++ cs := by
  induction fuel with
  | zero => exact fun _ => .throw rfl
  | succ fuel ih =>
    intro forced s hs
    have hround : Handles B cs _ _ := evaluateAll hrec (ids.zip (forced.zip storing))
    unfold Emit.operandsAux
    rw [bind_run (mark_run s)]
    cases hv : Emit.evaluateAll rec (ids.zip (forced.zip storing)) s with
    | error e s₁ =>
      rw [bind_fail hv]
      exact hround.error hs hv
    | ok values s₁ =>
      have hs₁ := hround.ok hs hv
      have hget : (get : EmitM EmitState) s₁ = .ok s₁ s₁ := rfl
      rw [bind_run hv, bind_run hget]
      dsimp only
      by_cases hstale : (values.dropLast.map (·.isStale s₁)).any id = true
      · rw [if_pos hstale]
        obtain ⟨s₂, hr⟩ := rewind_run (markOf s) s₁
        rw [bind_run hr]
        refine ih _ s₂ (hs.congr ?_ ?_)
        · cases hr
          rfl
        · cases hr
          rfl
      · rw [if_neg hstale]
        change Holding B ((values.map (·.op)).map own ++ cs) s₁
        rw [List.map_map]
        exact hs₁

theorem operands (ids : List NodeId) : Handles B cs (operands rec ids) fun os => os.map own ++ cs :=
  .bind (storesAfter ids) fun _ => operandsAux hrec ids _ _ _

theorem operands2 (x y : NodeId) : Handles B cs (operands2 rec x y) fun p => own p.1 :: own p.2 :: cs := by
  refine .bind (operands hrec [x, y]) fun os => ?_
  split
  · exact .pure fun _ hs => hs
  · exact .throw rfl

theorem operands3 (x y z : NodeId) :
    Handles B cs (operands3 rec x y z) fun p => own p.1 :: own p.2.1 :: own p.2.2 :: cs := by
  refine .bind (operands hrec [x, y, z]) fun os => ?_
  split
  · exact .pure fun _ hs => hs
  · exact .throw rfl

end

/-! ## Operators and names -/

theorem valueKind (id : NodeId) : Handles B cs (valueKind id) fun _ => cs := .bind (node id) fun _ => typeKind _

theorem binaryCode (at' : NodeId) (op : Operator) (l r : NodeId) : Handles B cs (binaryCode at' op l r) fun _ => cs := by
  unfold Emit.binaryCode
  split
  · exact .fatal rfl
  · refine .bind (valueKind l) fun lk => .bind (valueKind r) fun rk => ?_
    exact .ite (fun _ => .pure_same) fun _ => .pure_same

theorem binding (id : NodeId) : Handles B cs (binding id) fun _ => cs := by
  refine .bind unit fun u => ?_
  split
  · exact .pure_same
  · exact .bind (node id) fun _ => .fatal rfl

theorem fieldOperand (id : NodeId) (n : Node) : Handles B cs (fieldOperand id n) fun _ => cs := by
  refine .bind unit fun u => ?_
  split
  · exact .pure_same
  · exact stringRef n.name

theorem name (id : NodeId) (n : Node) : Handles B cs (name id n) fun o => own o :: cs := by
  refine .bind (binding id) fun v => .bind (symbol v) fun sym => ?_
  split
  · rw [← bind_pure (Emit.storage v)]
    exact .storage fun o hv hr => plain hv hr
  · refine .ite (fun _ => .bind (nativeRef v) fun _ => plain nofun nofun) fun _ => ?_
    exact .bind (funcRef v) fun _ => plain nofun nofun
  · exact .bind (typeRef _) fun t => .bind (emit _) fun _ => accumulator
  · exact .fatal rfl

theorem literal (id : NodeId) : Handles B cs (literal id) fun o => own o :: cs := by
  refine .bind unit fun u => ?_
  split
  · rename_i fn _
    refine .bind (funcRef fn) fun index => .bind (funcScope fn) fun sc => ?_
    refine .ite (fun _ => plain (by rintro ⟨⟩) (by rintro ⟨⟩)) fun _ => ?_
    refine .bind (.forM _ fun p _ => .storage fun o _ _ => emit _) fun _ => ?_
    exact .bind (emit _) fun _ => accumulator
  · exact .fatal rfl

section

variable (hrec : Balances rec)
include hrec

theorem logical (id : NodeId) (n : Node) : Handles B cs (logical rec id n) fun o => own o :: cs := by
  refine .bind (acquireValue id) fun res => .bind (exprAny hrec n.a) fun x => .bind (move res x) fun _ => ?_
  refine .bind newLabel fun stop => .bind (emit _) fun _ => .bind (exprAny hrec n.b) fun y => .bind (move res y) fun _ => ?_
  exact .bind (bindLabel stop) fun _ => .pure fun _ hs => hs

theorem binary (id : NodeId) (n : Node) : Handles B cs (binary rec id n) fun o => own o :: cs := by
  unfold Emit.binary
  refine .ite (fun _ => logical hrec id n) fun _ => .bind (binaryCode id n.op n.a n.b) fun op => ?_
  refine .bind (operands2 hrec n.a n.b) fun p => .bind (emit _) fun _ => ?_
  exact .bind (free _) fun _ => .bind (free _) fun _ => accumulator

theorem unary (n : Node) : Handles B cs (unary rec n) fun o => own o :: cs := by
  unfold Emit.unary
  split
  · refine .bind (valueKind n.a) fun k => .bind (exprAny hrec n.a) fun x => .bind (emit _) fun _ => ?_
    exact .bind (free x) fun _ => accumulator
  · exact .fatal rfl

/-! ## Assignments -/

omit hrec in
theorem combine (id : NodeId) (n : Node) (v : Operand) : Handles B (own v :: cs) (combine id n v) fun o => own o :: cs :=
  .bind (binaryCode id n.op n.a n.b) fun _ => .bind (emit _) fun _ => .bind (free v) fun _ => accumulator

theorem assignName (id : NodeId) (n : Node) : Handles B cs (assignName rec id n) fun o => own o :: cs := by
  refine .bind (binding n.a) fun v => .storage fun dst hv hr => .ite (fun _ => ?_) fun _ => ?_
  · exact .bind (exprAny hrec n.b) fun x => .bind (move dst x) fun _ => plain hv hr
  · refine .bind (operands2 hrec n.a n.b) fun p => .bind (binaryCode id n.op n.a n.b) fun op => ?_
    refine .bind (emit _) fun _ => .bind (free _) fun _ => .bind (free _) fun _ => ?_
    have hmove : Handles B cs (Emit.move dst .accumulator) fun _ => cs := fun s hs =>
      move dst .accumulator s ((holding_own (by nofun) (by nofun)).2 hs)
    exact .bind hmove fun _ => plain hv hr

theorem assignElement (id : NodeId) (n tn : Node) : Handles B cs (assignElement rec id n tn) fun o => own o :: cs := by
  refine .bind (operands3 hrec tn.a tn.b n.b) fun p => ?_
  obtain ⟨x, k, v⟩ := p
  refine .ite (fun _ => ?_) fun _ => ?_
  · exact .bind (emit _) fun _ => .bind (free x) fun _ => .bind (free k) fun _ => .pure fun _ hs => hs
  · -- each operand comes to the front to be stabilized, and the first two go back there to be given back
    refine .bind (node tn.a) fun _ => .bind (stable x _ id) fun x' => ?_
    refine .bind (node tn.b) fun _ => .perm ?_ (.swap ..)
    refine .bind (stable k _ id) fun k' => ?_
    have hfront : (own k' :: own x' :: own v :: cs).Perm (own v :: own x' :: own k' :: cs) :=
      ((List.Perm.swap _ _ _).cons _).trans ((List.Perm.swap _ _ _).trans ((List.Perm.swap _ _ _).cons _))
    refine .bind (node n.b) fun _ => .perm ?_ hfront
    refine .bind (stable v _ id) fun v' => .bind (emit _) fun _ => .bind (combine id n v') fun r => ?_
    refine .bind (emit _) fun _ => ?_
    have hback : (own r :: own x' :: own k' :: cs).Perm (own x' :: own k' :: own r :: cs) :=
      (List.Perm.swap _ _ _).trans ((List.Perm.swap _ _ _).cons _)
    refine .perm ?_ hback
    exact .bind (free x') fun _ => .bind (free k') fun _ => .pure fun _ hs => hs

theorem assignMember (id : NodeId) (n tn : Node) : Handles B cs (assignMember rec id n tn) fun o => own o :: cs := by
  refine .bind (operands2 hrec tn.a n.b) fun p => ?_
  obtain ⟨x, v⟩ := p
  refine .bind (fieldOperand n.a tn) fun f => .ite (fun _ => ?_) fun _ => ?_
  · exact .bind (emit _) fun _ => .bind (free x) fun _ => .pure fun _ hs => hs
  · refine .bind (node tn.a) fun _ => .bind (stable x _ id) fun x' => ?_
    refine .bind (node n.b) fun _ => .perm ?_ (.swap ..)
    refine .bind (stable v _ id) fun v' => .bind (emit _) fun _ => .bind (combine id n v') fun r => ?_
    refine .bind (emit _) fun _ => .perm ?_ (.swap ..)
    exact .bind (free x') fun _ => .pure fun _ hs => hs

theorem assign (id : NodeId) (n : Node) : Handles B cs (assign rec id n) fun o => own o :: cs := by
  refine .bind (node n.a) fun tn => ?_
  split
  · exact assignName hrec id n
  · exact assignElement hrec id n tn
  · exact assignMember hrec id n tn
  · exact .fatal rfl

/-! ## Structs and zero values -/

omit hrec in
theorem fieldDefaults (t : TypeId) : Handles B cs (fieldDefaults t) fun _ => cs := by
  refine .bind unit fun u => ?_
  split <;> exact .pure_same

theorem makeStruct (at' : NodeId) (t : TypeId) (given : List (String × NodeId)) :
    Handles B cs (makeStruct rec at' t given) fun o => own o :: cs := by
  refine .bind (typeInfo t) fun ty => .bind (fieldDefaults t) fun defaults => .bind (.forIn _ fun p _ => ?_) fun _ => ?_
  · obtain ⟨f, i⟩ := p
    dsimp only
    split
    · exact .bind (push hrec _) fun _ => .pure_same
    · exact .bind (hrec.zero B cs at' f.type) fun o => .bind (pushOperand o) fun _ => .pure_same
    · exact .bind (push hrec _) fun _ => .pure_same
  · exact .bind (typeRef t) fun _ => .bind (emit _) fun _ => accumulator

theorem zeroStep (at' : NodeId) (t : TypeId) : Handles B cs (zeroStep rec at' t) fun o => own o :: cs := by
  refine .bind (typeInfo t) fun ty => ?_
  split
  · exact plain nofun nofun
  · exact plain nofun nofun
  · exact stringRef_own ""
  · exact .bind (emit _) fun _ => accumulator
  · exact .bind (emit _) fun _ => accumulator
  · refine .bind (.forM _ fun e _ => ?_) fun _ => .bind (emit _) fun _ => accumulator
    exact .bind (hrec.zero B cs at' e) pushOperand
  · exact makeStruct hrec at' t []
  · exact plain nofun nofun

omit hrec in
theorem givenFields (list : List NodeId) : Handles B cs (givenFields list) fun _ => cs :=
  .bind (.mapM _ fun id _ => node id) fun _ => .pure_same

theorem cast (id : NodeId) (n : Node) : Handles B cs (cast rec id n) fun o => own o :: cs := by
  refine .bind (exprAny hrec n.a) fun v => .bind (valueKind n.a) fun source => .bind (typeKind _) fun target => ?_
  refine .ite (fun _ => .pure fun _ hs => hs) fun _ => .ite (fun _ => ?_) fun _ => ?_
  · exact .fatal rfl
  · exact .bind (emit _) fun _ => .bind (free v) fun _ => accumulator

/-! ## Calls -/

omit hrec in
theorem invoke (op : Opcode) (callee : Operand) (fixed : Nat) : Handles B cs (invoke op callee fixed) fun _ => cs := by
  refine .bind (.get_bind fun s => .mapM _ fun reg _ => ?_) fun saved => .bind (emit _) fun _ => ?_
  · exact .bind spill fun slot => .bind (emit _) fun _ => .pure_same
  · exact .bind (.forM _ fun p _ => emit _) fun _ => unspill _

theorem pushArg (arg : NodeId) : Handles B cs (pushArg rec arg) fun _ => cs := by
  refine .bind (node arg) fun an => .ite (fun _ => .bind (push hrec arg) fun _ => .pure_same) fun _ => ?_
  refine .bind (note _) fun _ => .bind (exprAny hrec an.a) fun v => .bind (emit _) fun _ => ?_
  exact .bind (free v) fun _ => .pure_same

theorem pushArgs (n : Node) (method : Bool) : Handles B cs (pushArgs rec n method) fun _ => cs := by
  refine .bind (.foldlM _ (fun k arg _ => .bind (pushArg hrec arg) fun _ => .pure_same) 0) fun fixed => ?_
  refine .ite (fun _ => .pure_same) fun _ => ?_
  exact .bind (node n.a) fun an => .bind (push hrec an.a) fun _ => .pure_same

theorem makeVariant (id : NodeId) (n : Node) (target : SymbolId) :
    Handles B cs (makeVariant rec id n target) fun o => own o :: cs := by
  refine .bind (symbol target) fun sym => .bind (pushAll hrec n.list) fun _ => .bind (typeRef _) fun t => ?_
  refine .bind (emit _) fun _ => .bind (isResolved _) fun r => .ite (fun _ => .fatal rfl) fun _ => accumulator

theorem calleeOperand (id : NodeId) (n : Node) (info : CallInfo) :
    Handles B cs (calleeOperand rec id n info) fun p => own p.2 :: cs := by
  unfold Emit.calleeOperand
  split
  · exact .bind (funcRef _) fun _ => .pure fun _ hs => (holding_own (by nofun) (by nofun)).2 hs
  · exact .bind (nativeRef _) fun _ => .pure fun _ hs => (holding_own (by nofun) (by nofun)).2 hs
  · refine .bind (exprAny hrec n.a) fun v => .bind (node n.a) fun an => .bind (stable v _ id) fun o => ?_
    exact .pure fun _ hs => hs

omit hrec in
theorem beginSpread (spread : Bool) : Handles B cs (beginSpread spread) fun _ => cs := by
  unfold Emit.beginSpread
  refine .ite (fun _ => ?_) fun _ => .pure_same
  have save : Handles B cs saveSpread fun _ => cs := by
    refine .get_bind fun s => .ite (fun _ => ?_) fun _ => .pure_same
    exact .bind spill fun slot => .bind (emit _) fun _ => .pure_same
  refine .bind save fun saved => .bind (emit _) fun _ => .bind ?_ fun _ => .pure_same
  exact .modify (fun _ => rfl) fun _ => rfl

omit hrec in
theorem restoreSpread (saved : Option Operand) : Handles B cs (restoreSpread saved) fun _ => cs := by
  cases saved with
  | none => exact .pure_same
  | some slot => exact .bind (emit _) fun _ => unspill 1

theorem call (id : NodeId) (n : Node) : Handles B cs (call rec id n) fun o => own o :: cs := by
  refine .bind unit fun u => ?_
  split
  · rename_i info _
    refine .ite (fun _ => makeVariant hrec id n info.target) fun _ => ?_
    refine .bind (calleeOperand hrec id n info) fun p => .bind unit fun u => ?_
    refine .bind (beginSpread _) fun saved => .bind (pushArgs hrec n info.method) fun fixed => ?_
    refine .bind (.modify (fun _ => rfl) fun _ => rfl) fun _ => .bind (free _) fun _ => ?_
    refine .bind (invoke _ _ fixed) fun _ => .bind (restoreSpread saved) fun _ => .bind (typeKind _) fun k => ?_
    split
    · exact plain nofun nofun
    · exact plain nofun nofun
  · exact .fatal rfl

/-! ## Every kind of expression -/

theorem value (id : NodeId) (n : Node) : Handles B cs (value rec id n) fun o => own o :: cs := by
  unfold Emit.value
  split
  case h_3 => exact stringRef_own n.text
  case h_6 => exact name id n
  case h_7 => exact binary hrec id n
  case h_8 => exact unary hrec n
  case h_9 => exact assign hrec id n
  case h_10 => exact call hrec id n
  case h_11 =>
    refine .bind (operands2 hrec n.a n.b) fun p => .bind (emit _) fun _ => ?_
    exact .bind (free _) fun _ => .bind (free _) fun _ => accumulator
  case h_12 =>
    refine .bind (exprAny hrec n.a) fun x => .bind (fieldOperand id n) fun f => .bind (emit _) fun _ => ?_
    exact .bind (free x) fun _ => accumulator
  case h_13 => exact .bind (pushAll hrec n.list) fun _ => .bind (emit _) fun _ => accumulator
  case h_14 =>
    refine .bind (.forM _ fun p _ => .bind (node p) fun pn => ?_) fun _ => .bind (emit _) fun _ => accumulator
    exact .bind (push hrec pn.a) fun _ => push hrec pn.b
  case h_15 => exact .bind (pushAll hrec n.list) fun _ => .bind (emit _) fun _ => accumulator
  case h_16 => exact .bind (givenFields n.list) fun given => makeStruct hrec id n.valueType given
  case h_17 => exact cast hrec id n
  case h_18 => exact literal id
  case h_19 => exact .fatal rfl
  all_goals exact plain nofun nofun

theorem exprStep (id : NodeId) (inRegister : Bool) : Handles B cs (exprStep rec id inRegister) fun o => own o :: cs := by
  refine .bind (node id) fun n => .bind (isResolved _) fun r => .ite (fun _ => .fatal rfl) fun _ => ?_
  refine .bind (note _) fun _ => .bind (value hrec id n) fun op => ?_
  exact .ite (fun _ => toRegister op _ id) fun _ => .pure fun _ hs => hs

/-! ## Statements -/

theorem letStmt (id : NodeId) (n : Node) : Handles B cs (letStmt rec id n) fun _ => cs := by
  refine .ite (fun _ => .pure_same) fun _ => .bind unit fun u => ?_
  split
  · exact .pure_same
  · rename_i v _
    refine .bind (symbol v) fun sym => .ite (fun _ => .pure_same) fun _ => .storage fun dst _ _ => ?_
    split
    · exact .bind (hrec.zero B cs id _) fun x => move dst x
    · exact .bind (exprAny hrec n.b) fun x => move dst x

theorem condition (id : NodeId) (l : Label) : Handles B cs (condition rec id l) fun _ => cs :=
  .bind (exprAny hrec id) fun c => .bind (emit _) fun _ => free c

omit hrec in
theorem jumpTo (l : Label) : Handles B cs (jumpTo l) fun _ => cs := emit _

theorem ifStmt (n : Node) : Handles B cs (ifStmt rec n) fun _ => cs := by
  refine .bind newLabel fun stop => .ite (fun _ => ?_) fun _ => .bind newLabel fun no => ?_
  · exact .bind (condition hrec n.a stop) fun _ => .bind (hrec.stmt B cs n.b) fun _ => bindLabel stop
  · refine .bind (condition hrec n.a no) fun _ => .bind (hrec.stmt B cs n.b) fun _ => .bind (jumpTo stop) fun _ => ?_
    exact .bind (bindLabel no) fun _ => .bind (hrec.stmt B cs n.c) fun _ => bindLabel stop

theorem inLoop (l : LoopTargets) (body : NodeId) : Handles B cs (inLoop rec l body) fun _ => cs := by
  refine .bind (.modify (fun _ => rfl) fun _ => rfl) fun _ => .bind (hrec.stmt B cs body) fun _ => ?_
  exact .modify (fun _ => rfl) fun _ => rfl

theorem whileLoop (n : Node) : Handles B cs (whileLoop rec n) fun _ => cs := by
  refine .bind newLabel fun top => .bind newLabel fun exit => .bind (bindLabel top) fun _ => ?_
  refine .bind (condition hrec n.a exit) fun _ => .bind (inLoop hrec _ n.b) fun _ => ?_
  exact .bind (jumpTo top) fun _ => bindLabel exit

theorem forLoop (n : Node) : Handles B cs (forLoop rec n) fun _ => cs := by
  refine .bind (hrec.stmt B cs n.a) fun _ => .bind newLabel fun top => .bind newLabel fun again => ?_
  refine .bind newLabel fun exit => .bind (bindLabel top) fun _ => ?_
  have body : Handles B cs (do
      Emit.inLoop rec { label := n.label, exit, again } n.d
      Emit.bindLabel again
      rec.stmt n.c
      Emit.jumpTo top
      Emit.bindLabel exit) fun _ => cs := by
    refine .bind (inLoop hrec _ n.d) fun _ => .bind (bindLabel again) fun _ => .bind (hrec.stmt B cs n.c) fun _ => ?_
    exact .bind (jumpTo top) fun _ => bindLabel exit
  exact .ite (fun _ => .bind (condition hrec n.b exit) fun _ => body) fun _ => body

omit hrec in
theorem fetch (op : Opcode) (it : Operand) (v : SymbolId) : Handles B cs (fetch op it v) fun _ => cs := by
  refine .bind (emit _) fun _ => .storage fun dst _ _ => fun s hs => ?_
  exact move dst .accumulator s ((holding_own (by nofun) (by nofun)).2 hs)

omit hrec in
/-- Fetches into a variable if there is one. -/
theorem fetch? {op : Opcode} {it : Operand} {v : Option SymbolId} {m : EmitM Unit} {Q : Unit → List Claim}
    (hm : Handles B cs m Q) :
    Handles B cs (match v with
      | some x => do
        Emit.fetch op it x
        m
      | _ => m) Q := by
  split
  · exact .bind (fetch op it _) fun _ => hm
  · exact hm

theorem foreach (id : NodeId) (n : Node) : Handles B cs (foreach rec id n) fun _ => cs := by
  refine .bind (exprAny hrec n.a) fun x => .bind (emit _) fun _ => .bind (free x) fun _ => ?_
  refine .acquireRef_bind fun it hit => .bind (emit _) fun _ => .bind (hold hit) fun _ => ?_
  refine .bind newLabel fun top => .bind newLabel fun exit => .bind (bindLabel top) fun _ => ?_
  refine .bind (emit _) fun _ => .bind unit fun u => ?_
  have body : Handles B (holding it :: cs) (do
      Emit.inLoop rec { label := n.label, exit, again := top } n.b
      Emit.jumpTo top
      Emit.bindLabel exit
      Emit.withRefs (·.unhold it.val.toNat)) fun _ => cs :=
    .bind (inLoop hrec _ n.b) fun _ => .bind (jumpTo top) fun _ => .bind (bindLabel exit) fun _ => unhold hit
  exact fetch? (fetch? body)

omit hrec in
theorem dispatch (tag : Operand) (arms : List NodeId) :
    ∀ fallback, Handles B cs (dispatch tag arms fallback) fun _ => cs := by
  induction arms with
  | nil => exact fun _ => .pure_same
  | cons c rest ih =>
    intro fallback
    refine .bind newLabel fun l => .bind unit fun u => ?_
    split
    · rename_i t _
      refine .ite (fun _ => ?_) fun _ => .bind (ih _) fun _ => .pure_same
      exact .bind (emit _) fun _ => .bind (emit _) fun _ => .bind (ih _) fun _ => .pure_same
    · exact .fatal rfl

theorem arm (subject : Operand) (stop : Label) (c : NodeId) (l : Label) :
    Handles B cs (arm rec subject stop c l) fun _ => cs := by
  refine .bind (bindLabel l) fun _ => .bind (node c) fun cn => .bind (note _) fun _ => .bind unit fun u => ?_
  exact fetch? (.bind (hrec.stmt B cs cn.a) fun _ => jumpTo stop)

/-- The subject is held for all arms, or owned if it is no reference. -/
theorem arms (id : NodeId) (n : Node) (subject : Operand) {c : Claim} {last : EmitM Unit}
    (hlast : Handles B (c :: cs) last fun _ => cs) : Handles B (c :: cs) (do
      Emit.emit { op := .tag, a := subject }
      let tag ← Emit.acquireValue id
      Emit.emit { op := .mov, a := tag, b := .accumulator }
      let stop ← Emit.newLabel
      let (labels, fallback) ← Emit.dispatch tag n.list stop
      Emit.jumpTo fallback
      Emit.withValues (·.release tag.val.toNat)
      (n.list.zip labels).forM fun (c, l) => Emit.arm rec subject stop c l
      Emit.bindLabel stop
      last) fun _ => cs := by
  refine .bind (emit _) fun _ => .acquireValue_bind fun tag htag => ?_
  refine .bind (emit _) fun _ => .bind newLabel fun stop => .bind (dispatch tag n.list stop) fun p => ?_
  refine .bind (jumpTo _) fun _ => .bind (releaseValue htag) fun _ => ?_
  exact .bind (.forM _ fun q _ => arm hrec subject stop q.1 q.2) fun _ => .bind (bindLabel stop) fun _ => hlast

theorem matchStmt (id : NodeId) (n : Node) : Handles B cs (matchStmt rec id n) fun _ => cs := by
  refine .bind (exprAny hrec n.a) fun v => .bind (node n.a) fun an => .bind (stable v _ id) fun subject => ?_
  by_cases hk : subject.kind = .ref
  · simp only [hk, decide_true, if_true]
    exact .bind (hold hk) fun _ => arms hrec id n subject (unhold hk)
  · simp only [hk, decide_false, Bool.false_eq_true, if_false]
    exact arms hrec id n subject (free subject)

theorem returnStmt (n : Node) : Handles B cs (returnStmt rec n) fun _ => cs := by
  refine .get_bind fun s => .ite (fun _ => .ite (fun _ => ?_) fun _ => emit _) fun _ => .ite (fun _ => emit _) fun _ => ?_
  · exact .bind (exprAny hrec n.a) fun x => .bind (free x) fun _ => emit _
  · exact .bind (exprAny hrec n.a) fun x => .bind (emit _) fun _ => free x

omit hrec in
theorem loopTarget (id : NodeId) (label : String) : Handles B cs (loopTarget id label) fun _ => cs := by
  refine .get_bind fun s => ?_
  split
  · exact .pure_same
  · exact .fatal rfl

theorem stmtStep (id : NodeId) : Handles B cs (stmtStep rec id) fun _ => cs := by
  refine .ite (fun _ => .pure_same) fun _ => .bind (node id) fun n => .ite (fun _ => ?_) fun _ => .bind (note _) fun _ => ?_
  · exact .bind (exprAny hrec id) free
  · split
    case h_4 => exact .bind (exprAny hrec n.a) free
    case h_5 => exact letStmt hrec id n
    case h_10 => exact ifStmt hrec n
    case h_11 => exact whileLoop hrec n
    case h_12 => exact forLoop hrec n
    case h_13 => exact foreach hrec id n
    case h_14 => exact matchStmt hrec id n
    case h_15 => exact .bind (loopTarget id n.label) fun _ => jumpTo _
    case h_16 => exact .bind (loopTarget id n.label) fun _ => jumpTo _
    case h_17 => exact returnStmt hrec n
    case h_18 => exact .fatal rfl
    all_goals first
      | exact .pure_same
      | exact .forM _ fun x _ => hrec.stmt B cs x

end

end Handles

theorem emitter_balances (fuel : Nat) : Balances (emitter fuel) := by
  induction fuel with
  | zero => exact ⟨fun _ _ _ _ => .throw rfl, fun _ _ _ => .throw rfl, fun _ _ _ _ => .throw rfl⟩
  | succ fuel ih =>
    exact ⟨fun _ _ id inRegister => .exprStep ih id inRegister, fun _ _ id => .stmtStep ih id,
      fun _ _ at' t => .zeroStep ih at' t⟩

/-! ## Functions -/

namespace Handles

variable (hrec : Balances rec)
include hrec

theorem emitStatic (st : StaticInit) : Handles B cs (emitStatic rec st) fun _ => cs := by
  refine .bind (symbol st.symbol) fun sym => .bind unit fun u => .ite (fun _ => .pure_same) fun _ => ?_
  refine .storage fun dst _ _ => ?_
  split
  · exact .bind (hrec.zero B cs _ _) fun x => move dst x
  · exact .bind (exprAny hrec st.init) fun x => move dst x

theorem emitEntry : Handles B cs (emitEntry rec) fun _ => cs := by
  have opened : Handles B cs openEntry fun _ => cs :=
    .bind newLabel fun entry => .bind (bindLabel entry) fun _ => .bind (.modify (fun _ => rfl) fun _ => rfl) fun _ =>
      .bind reserve fun _ => .pure_same
  have code : Handles B cs (entryCode rec) fun _ => cs :=
    .bind unit fun u => .bind (.forM _ fun st _ => emitStatic hrec st) fun _ =>
      .bind (.forM _ fun r _ => hrec.stmt B cs r) fun _ => emit _
  exact .bind opened fun p => .bind code fun _ => .get_bind fun s => .bind (patch _ _) fun _ => .pure_same

end Handles

end TreeCompiler.Emit

namespace TreeCompiler

/-- Whether the body of a function is an expression, whose value it returns. -/
def AnalysisResult.hasExprBody (u : AnalysisResult) (fn : SymbolId) : Bool :=
  match u.declarationOf? fn with
  | some n => u.tree.kind n.b ≠ .block && n.b ≠ 0
  | none => false

namespace Emit

variable {B : Bank} {cs : List Claim} {rec : Emitter} {s s' : EmitState}

/-- What a function leaves: the value of a body that is an expression is not given back. -/
def Leaves (B : Bank) (cs : List Claim) (exprBody : Bool) (s : EmitState) : Prop :=
  if exprBody then ∃ o, Holding B (own o :: cs) s else Holding B cs s

theorem leaves_iff {b : Bool} : Leaves B cs b s ↔ ∃ os : List Operand, os.length = b.toNat ∧ Holding B (os.map own ++ cs) s := by
  cases b with
  | false => simp [Leaves]
  | true => simp [Leaves, List.length_eq_one_iff]

theorem emitBody_leaves (hrec : Balances rec) (hs : Holding B cs s) (body : NodeId) :
    Orderly (fun _ => Leaves B cs (s.unit.tree.kind body ≠ .block && body ≠ 0)) (emitBody rec body s) := by
  have hkind : kindOf body s = .ok (s.unit.tree.kind body) s := rfl
  unfold emitBody
  rw [bind_run hkind]
  by_cases hblock : s.unit.tree.kind body = .block
  · have hstmts : Handles B cs (do
        (← node body).list.forM rec.stmt
        emit { op := .ret }) fun _ => cs :=
      .bind (.node body) fun n => .bind (.forM _ fun x _ => hrec.stmt B cs x) fun _ => .emit _
    simp only [hblock, ne_eq, not_true_eq_false, decide_false, Bool.false_and, if_true]
    exact hstmts s hs
  · rw [if_neg hblock]
    by_cases hzero : body ≠ 0
    · have hexpr : Handles B cs (exprAny rec body) _ := .exprAny hrec body
      simp only [hblock, hzero, ne_eq, not_false_eq_true, decide_true, Bool.and_self, if_true]
      exact (hexpr s hs).bind fun o s₁ hs₁ => ⟨o, Handles.emit { op := .ret, a := o } s₁ hs₁⟩
    · simp only [hzero, decide_false, Bool.and_false, if_false]
      exact hs

namespace Handles

theorem openFunc (fn : SymbolId) (entry : Label) : Handles B cs (openFunc fn entry) fun _ => cs := by
  refine .bind (symbol fn) fun sym => .bind (declaration sym) fun n => .bind (funcScope fn) fun sc => ?_
  refine .bind (funcName fn) fun name => .bind (.modifyGet (fun _ => rfl) fun _ => rfl) fun span => ?_
  refine .bind (bindLabel entry) fun _ => .bind (.modify (fun _ => rfl) fun _ => rfl) fun _ => ?_
  exact .bind reserve fun _ => .pure_same

theorem closeFunc (index : Nat) (span : OpenSpan) (ip : Nat) : Handles B cs (closeFunc index span ip) fun _ => cs :=
  .get_bind fun _ => .bind (patch _ _) fun _ => .modify (fun _ => rfl) fun _ => rfl

end Handles

/-- A function whose body is an expression keeps the register of its value. -/
theorem emitFunc_leaves (hrec : Balances rec) (hs : Holding B cs s) (fn : SymbolId) :
    Orderly (fun _ => Leaves B cs (s.unit.hasExprBody fn)) (emitFunc rec fn s) := by
  refine (Handles.orderly (.symbol fn) hs fun sym s₁ h _ => symbol_ok h).bind ?_
  rintro sym _ ⟨hsym, rfl⟩
  refine (Handles.orderly (.declaration sym) hs fun n s₁ h _ => declaration_ok h).bind ?_
  rintro n s ⟨hn, rfl⟩
  have hbody : s.unit.hasExprBody fn = (s.unit.tree.kind n.b ≠ .block && n.b ≠ 0 : Bool) := by
    simp [AnalysisResult.hasExprBody, AnalysisResult.declarationOf?, hsym, hn]
  have hget : (get : EmitM EmitState) s = .ok s s := rfl
  rw [bind_run hget]
  cases s.funcs.get? fn with
  | none => exact rfl
  | some p =>
    obtain ⟨index, entry⟩ := p
    refine (Handles.orderly (.openFunc fn entry) hs fun p s₁ h hs₁ => And.intro (openFunc_ok h).1.unit hs₁).bind ?_
    rintro ⟨span, ip⟩ s₁ ⟨hunit, hs₁⟩
    refine (emitBody_leaves hrec hs₁ n.b).bind fun _ s₂ hs₂ => ?_
    rw [hunit, ← hbody, leaves_iff] at hs₂
    obtain ⟨os, hlen, hs₂⟩ := hs₂
    refine (Handles.closeFunc index span ip).orderly hs₂ fun _ s₃ _ hs₃ => ?_
    exact leaves_iff.2 ⟨os, hlen, hs₃⟩

/-- Every function of the queue that has an expression for its body keeps one register. -/
theorem emitQueue_holding {fuel rounds i : Nat} {cs : List Claim} {s : EmitState} (hs : Holding B cs s) :
    Orderly (fun _ s' => (∃ l, s'.work.toList = s.work.toList ++ l) ∧
      ∃ os : List Operand, os.length = (s'.work.toList.drop i).countP s.unit.hasExprBody ∧ Holding B (os.map own ++ cs) s')
      (emitQueue (emitter fuel) rounds i s) := by
  induction rounds generalizing i cs s with
  | zero => exact rfl
  | succ rounds ih =>
    have hget : (get : EmitM EmitState) s = .ok s s := rfl
    unfold emitQueue
    rw [bind_run hget]
    cases hfn : s.work[i]? with
    | none =>
      refine ⟨⟨[], by simp⟩, [], ?_, hs⟩
      rw [List.drop_eq_nil_of_le (by simpa using hfn)]
      rfl
    | some fn =>
      have hvalues : s.values.kind = .value := hs.values.kind.trans B.valuesKind
      have hrefs : s.refs.kind = .ref := hs.refs.kind.trans B.refsKind
      -- the queue only grows, and the unit stays
      have hfunc := (emitFunc_leaves (emitter_balances fuel) hs fn).mono (R := fun _ s₁ => s₁.unit = s.unit ∧
          (∃ l, s₁.work.toList = s.work.toList ++ l) ∧ Leaves B cs (s.unit.hasExprBody fn) s₁) fun a s₁ hrun hleaves => by
        obtain ⟨_, _, _, _, _, -, hadds, -, hfill⟩ := emitFunc_ok rfl hvalues hrefs hrun
        exact ⟨hfill.unit.trans hadds.unit, by rw [hfill.work]; exact hadds.work, hleaves⟩
      refine Orderly.bind (f := fun _ => emitQueue (emitter fuel) rounds (i + 1)) hfunc ?_
      rintro _ s₁ ⟨hunit, ⟨l, hl⟩, hleaves⟩
      obtain ⟨os, hlen, hs₁⟩ := leaves_iff.1 hleaves
      refine (ih (i := i + 1) hs₁).mono ?_
      rintro _ s₂ - ⟨⟨l', hl'⟩, os', hlen', hs₂⟩
      have hwork : s₂.work.toList = s.work.toList ++ (l ++ l') := by rw [hl', hl, List.append_assoc]
      refine ⟨⟨_, hwork⟩, os' ++ os, ?_, by simpa using hs₂⟩
      have hat : s₂.work.toList[i]? = some fn := by
        rw [hwork, List.getElem?_append_left (by simpa using (Array.getElem?_eq_some_iff.1 hfn).1)]
        simpa using hfn
      obtain ⟨hlt, hget⟩ := List.getElem?_eq_some_iff.1 hat
      rw [List.length_append, hlen', hlen, hunit, List.drop_eq_getElem_cons hlt, hget, List.countP_cons]
      cases s.unit.hasExprBody fn <;> rfl

/-! ## Programs -/

/-- Both pools are in order. -/
structure InOrder (s : EmitState) : Prop where
  values : s.values.kind = .value
  refs : s.refs.kind = .ref
  valuesSound : s.values.Sound
  refsSound : s.refs.Sound

def InOrder.bank (h : InOrder s) : Bank := ⟨s.values, s.refs, h.values, h.refs, h.valuesSound, h.refsSound⟩

theorem InOrder.holding (h : InOrder s) : Holding h.bank [] s := ⟨.refl _, .refl _⟩

theorem inOrder_start (u : AnalysisResult) (o : EmitOptions) (tracer : Tracer) : InOrder (start u o tracer) :=
  ⟨rfl, rfl, Pool.sound_ofSize .., Pool.sound_ofSize ..⟩

/-- From `s` to `s'` exactly the registers among `os` were taken. They were free before, and no two share one. -/
structure Takes (s s' : EmitState) (os : List Operand) : Prop where
  values : s.values.Lent s'.values (registers .value (os.map own)) []
  refs : s.refs.Lent s'.refs (registers .ref (os.map own)) []

theorem InOrder.takes (h : InOrder s) {os : List Operand} (hs : Holding h.bank (os.map own ++ []) s') : Takes s s' os := by
  have hheld (k : OperandKind) : heldRegisters k (os.map own) = [] := by
    unfold heldRegisters
    rw [List.filter_eq_nil_iff.2 (by simp [own])]
    rfl
  rw [List.append_nil] at hs
  have hvalues := hs.values
  have hrefs := hs.refs
  rw [hheld] at hvalues hrefs
  exact ⟨hvalues, hrefs⟩

theorem InOrder.same (h : InOrder s) (hs : Holding h.bank [] s') : s'.values = s.values ∧ s'.refs = s.refs :=
  ⟨hs.values.eq, hs.refs.eq⟩

/-- A program ends with one register for each function whose body is an expression. -/
theorem openPass_run (u : AnalysisResult) (o : EmitOptions) (tracer : Tracer) : ∃ span s, (modifyGet fun s =>
    let (span, tracer) := s.tracer.start TraceScope.pass "emit" 0
    (span, { s with tracer, span := span.id }) : EmitM OpenSpan) (start u o tracer) = .ok span s ∧ s.unit = u ∧
    s.values = (start u o tracer).values ∧ s.refs = (start u o tracer).refs := ⟨_, _, rfl, rfl, rfl, rfl⟩

theorem run_orderly (u : AnalysisResult) (o : EmitOptions) (tracer : Tracer) :
    Orderly (fun _ s => ∃ os : List Operand, os.length = s.work.toList.countP u.hasExprBody ∧
      Takes (start u o tracer) s os) (run (start u o tracer)) := by
  have h := inOrder_start u o tracer
  have hunit : unit (start u o tracer) = .ok u (start u o tracer) := rfl
  unfold run
  rw [bind_run hunit]
  generalize 8 * u.tree.size + 8 * u.types.size + 4096 = fuel
  -- the span of the pass touches neither the pools nor the unit
  obtain ⟨span, s₁, hspan, hu, hv, hr⟩ := openPass_run u o tracer
  rw [bind_run hspan]
  have hs₁ : Holding h.bank [] s₁ := h.holding.congr hv hr
  have hentry := (Handles.emitEntry (emitter_balances fuel) s₁ hs₁).mono (R := fun _ s₂ => s₂.unit = u ∧ Holding h.bank [] s₂)
    fun entry s₂ hrun hs₂ => by
      obtain ⟨_, _, hadds, -⟩ := emitEntry_ok rfl (by rw [hv]; exact h.values) (by rw [hr]; exact h.refs) hrun
      exact ⟨hadds.unit.trans hu, hs₂⟩
  refine hentry.bind ?_
  rintro entry s₂ ⟨hu₂, hs₂⟩
  refine (emitQueue_holding hs₂).bind ?_
  rintro _ s₃ ⟨-, os, hlen, hs₃⟩
  rw [hu₂, List.drop_zero] at hlen
  obtain ⟨s₄, hclose, hwork, hv₄, hr₄⟩ : ∃ s₄, (modify fun s =>
      let span := (span.withExtra "funcs" (toString s.work.size)).withExtra "instrs" (toString s.asm.pos)
      { s with asm := s.asm.setGlobals u.scopes.globals, tracer := s.tracer.close span "" } : EmitM Unit) s₃ = .ok () s₄ ∧
      s₄.work = s₃.work ∧ s₄.values = s₃.values ∧ s₄.refs = s₃.refs := ⟨_, rfl, rfl, rfl, rfl⟩
  have hget : (get : EmitM EmitState) s₄ = .ok s₄ s₄ := rfl
  rw [bind_run hclose, bind_run hget]
  cases hfin : s₄.asm.finish entry with
  | error e => exact rfl
  | ok program => exact ⟨os, by rw [hwork]; exact hlen, h.takes (hs₃.congr hv₄ hr₄)⟩

/-- Statements and the entry code leave both pools as they were, and so do functions, except that one whose body is an
expression keeps the register of its value. The operands of a list are in registers of their own. No register is given back
while it is free, and holds are balanced. -/
theorem registers_balanced (u : AnalysisResult) (o : EmitOptions) (tracer : Tracer) :
    (∀ fuel s, InOrder s →
      (∀ id s', (emitter fuel).stmt id s = .ok () s' → s'.values = s.values ∧ s'.refs = s.refs) ∧
      (∀ ids os s', operands (emitter fuel) ids s = .ok os s' → Takes s s' os) ∧
      (∀ entry s', emitEntry (emitter fuel) s = .ok entry s' → s'.values = s.values ∧ s'.refs = s.refs) ∧
      ∀ fn s', emitFunc (emitter fuel) fn s = .ok () s' →
        if s.unit.hasExprBody fn then ∃ v, Takes s s' [v] else s'.values = s.values ∧ s'.refs = s.refs) ∧
    InOrder (start u o tracer) ∧
    (∀ e s, run (start u o tracer) = .error e s → e.isImbalance = false) ∧
    ∀ r s, run (start u o tracer) = .ok r s →
      ∃ os : List Operand, os.length = s.work.toList.countP u.hasExprBody ∧ Takes (start u o tracer) s os := by
  have hrun := run_orderly u o tracer
  refine ⟨fun fuel s h => ?_, inOrder_start u o tracer, fun e s he => ?_, fun r s hr => ?_⟩
  · have hrec := emitter_balances fuel
    refine ⟨fun id s' hm => ?_, fun ids os s' hm => ?_, fun entry s' hm => ?_, fun fn s' hm => ?_⟩
    · exact h.same ((hrec.stmt _ _ id).ok h.holding hm)
    · exact h.takes ((Handles.operands hrec ids).ok h.holding hm)
    · exact h.same ((Handles.emitEntry hrec).ok h.holding hm)
    · have hfunc := emitFunc_leaves hrec h.holding fn
      rw [hm] at hfunc
      cases hb : s.unit.hasExprBody fn with
      | false =>
        rw [hb] at hfunc
        exact h.same hfunc
      | true =>
        rw [hb] at hfunc
        obtain ⟨v, hv⟩ := hfunc
        exact ⟨v, @InOrder.takes s s' h [v] hv⟩
  · rw [he] at hrun
    exact hrun
  · rw [hr] at hrun
    exact hrun

/-- Two functions that return a conjunction, the first with an expression for its body. -/
def twoConjunctions : Tree where
  nodes := #[
    .typeName ["bool"], .param "a" 1, .typeName ["bool"], .param "b" 3, .typeName ["bool"],
    .ident ["a"], .ident ["b"], .binary .and 6 7, .func "f" [2, 4] 5 8,
    .typeName ["bool"], .param "a" 10, .typeName ["bool"], .param "b" 12, .typeName ["bool"],
    .ident ["a"], .ident ["b"], .binary .and 15 16, .returnStmt 17, .block [18], .func "h" [11, 13] 14 19,
    .ident ["f"], .boolLit true, .boolLit false, .call 21 [22, 23], .exprStmt 24,
    .ident ["h"], .boolLit true, .boolLit false, .call 26 [27, 28], .exprStmt 29,
    { kind := .file, list := [9, 20, 25, 30] }]
  roots := [31]

/-- What a computation fails with. -/
def failure? {α : Type} (m : EmitM α) (s : EmitState) : Option EmitFailure :=
  match m s with
  | .ok .. => none
  | .error e _ => some e

theorem failure?_eq_some {α : Type} {m : EmitM α} {e : EmitFailure} (h : failure? m s = some e) :
    ∃ s', m s = .error e s' := by
  unfold failure? at h
  cases hm : m s with
  | ok a s' =>
    rw [hm] at h
    cases h
  | error e' s' =>
    rw [hm] at h
    cases h
    exact ⟨s', rfl⟩

/-- The first function leaves its register in use, and with one register the second has none. -/
theorem expression_body_keeps_register :
    let e := twoConjunctions.analyze {} {}
    e.failure = none ∧ e.hasErrors = false ∧
    (∃ p s, run (start e.state.result {} {}) = .ok p s ∧ s.values.isUsed 0 = true) ∧
    ∃ s, run (start e.state.result { values := 1 } {}) = .error (.fatal 17 (.exhausted "t" 1)) s := by
  obtain ⟨hfailure, herrors, hview, hfull⟩ :
      let e := twoConjunctions.analyze {} {}
      e.failure = none ∧ e.hasErrors = false ∧
        view? run (fun _ s => s.values.isUsed 0) (start e.state.result {} {}) = some true ∧
        failure? run (start e.state.result { values := 1 } {}) = some (.fatal 17 (.exhausted "t" 1)) := by decide +kernel
  exact ⟨hfailure, herrors, view?_eq_some hview, failure?_eq_some hfull⟩

/-- A conjunction that is assigned back to its first side. -/
def conjoined : Tree where
  nodes := #[
    .typeName ["bool"], .boolLit true, .letDecl "x" 1 2, .ident ["x"], .boolLit false, .assign .and 4 5, .exprStmt 6,
    { kind := .file, list := [3, 7] }]
  roots := [8]

/-- The assignment is accepted, and generation ends at it although no pool is exhausted. -/
theorem conjoined_without_instruction :
    let e := conjoined.analyze {} {}
    e.failure = none ∧ e.hasErrors = false ∧
      ∃ s, run (start e.state.result {} {}) = .error (.fatal 6 (.noInstruction "&&")) s := by
  obtain ⟨hfailure, herrors, hfatal⟩ :
      let e := conjoined.analyze {} {}
      e.failure = none ∧ e.hasErrors = false ∧
        failure? run (start e.state.result {} {}) = some (.fatal 6 (.noInstruction "&&")) := by decide +kernel
  exact ⟨hfailure, herrors, failure?_eq_some hfatal⟩

end Emit

end TreeCompiler
