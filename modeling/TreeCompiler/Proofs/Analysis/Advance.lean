import TreeCompiler.Analysis.Run
import TreeCompiler.Proofs.Agree.Instance
import TreeCompiler.Proofs.Analysis.Instance

/-!
# What an analysis never takes back

* `Tree.done` : a node is completed; `Analysis.Onward` : completed nodes stay completed, and what was left pending in a sweep
  is counted until its end;
* `Advances m` : the computation `m` only goes on. Computations that advance are closed under the control structures of the
  monad; the declaration pass and all steps that call nothing back are among them.
-/

namespace TreeCompiler

/-- The node is completed. -/
def Tree.done (t : Tree) (id : NodeId) : Bool := (t.get? id).any (·.completed)

namespace Analysis

variable {α β : Type} {s s₁ s₂ : Analysis}

/-! ## Steps that take nothing back -/

/-- Completed nodes stay completed, and what was left pending is not forgotten. -/
structure Onward (s s' : Analysis) : Prop where
  done : ∀ id, s.result.tree.done id = true → s'.result.tree.done id = true
  pending : s.pending ≤ s'.pending
  sweeps : s'.result.sweeps = s.result.sweeps

namespace Onward

theorem refl (s : Analysis) : Onward s s := ⟨fun _ h => h, le_rfl, rfl⟩

theorem trans (h₁ : Onward s s₁) (h₂ : Onward s₁ s₂) : Onward s s₂ :=
  ⟨fun id h => h₂.done id (h₁.done id h), h₁.pending.trans h₂.pending, h₂.sweeps.trans h₁.sweeps⟩

end Onward

theorem done_modify {t : Tree} {id k : NodeId} {f : Node → Node}
    (hf : ∀ n : Node, n.completed = true → (f n).completed = true) (h : t.done k = true) : (t.modify id f).done k = true := by
  obtain ⟨n, hn, hdone⟩ := (Option.any_eq_true _ _).1 h
  unfold Tree.done
  rw [Tree.get?_modify, hn]
  split
  · exact hf n hdone
  · exact hdone

theorem done_of_extends {t t' : Tree} {id : NodeId} (h : t.Extends t') (hid : t.done id = true) :
    t'.done id = true := by
  obtain ⟨n, hn, hdone⟩ := (Option.any_eq_true _ _).1 hid
  unfold Tree.done
  rw [h id n hn]
  exact hdone

/-- The computation takes nothing back. -/
class Advances (m : AnalysisM α) : Prop where
  advances : ∀ s a s', m s = .ok a s' → Onward s s'

namespace Advances

instance (a : α) : Advances (pure a : AnalysisM α) := ⟨fun s a s' h => by cases h; exact .refl s⟩

instance (e : AnalysisFailure) : Advances (throw e : AnalysisM α) := ⟨fun s a s' h => by cases h⟩

instance : Advances (get : AnalysisM Analysis) := ⟨fun s a s' h => by cases h; exact .refl s⟩

theorem seq {x : AnalysisM α} {f : α → AnalysisM β} (hx : Advances x) (hf : ∀ a, Advances (f a)) : Advances (x >>= f) := by
  refine ⟨fun s b s' h => ?_⟩
  obtain ⟨a, s₁, h₁, h₂⟩ := bind_ok h
  exact (hx.advances _ _ _ h₁).trans ((hf a).advances _ _ _ h₂)

/-- The first part is found by instance. -/
theorem bind {x : AnalysisM α} {f : α → AnalysisM β} [hx : Advances x] (hf : ∀ a, Advances (f a)) : Advances (x >>= f) :=
  seq hx hf

instance {x : AnalysisM α} {f : α → AnalysisM β} [hx : Advances x] [hf : ∀ a, Advances (f a)] : Advances (x >>= f) := seq hx hf

instance {x : AnalysisM α} {f : α → β} [hx : Advances x] : Advances (f <$> x) :=
  seq hx fun a => inferInstanceAs (Advances (pure (f a)))

instance {x : AnalysisM α} [hx : Advances x] : Advances (discard x) :=
  inferInstanceAs (Advances ((fun _ => PUnit.unit) <$> x))

instance {c : Prop} [Decidable c] {x y : AnalysisM α} [Advances x] [Advances y] : Advances (if c then x else y) := by
  split <;> infer_instance

theorem forM {f : α → AnalysisM PUnit} (l : List α) (h : ∀ a, Advances (f a)) : Advances (l.forM f) := by
  induction l with
  | nil => exact inferInstanceAs (Advances (pure _))
  | cons a l ih => exact seq (h a) fun _ => ih

instance (l : List α) (f : α → AnalysisM PUnit) [h : ∀ a, Advances (f a)] : Advances (l.forM f) := forM l h

theorem mapM {f : α → AnalysisM β} (l : List α) (h : ∀ a, Advances (f a)) : Advances (l.mapM f) := by
  induction l with
  | nil =>
    rw [List.mapM_nil]
    infer_instance
  | cons a l ih =>
    rw [List.mapM_cons]
    exact seq (h a) fun _ => seq ih fun _ => inferInstance

instance (l : List α) (f : α → AnalysisM β) [h : ∀ a, Advances (f a)] : Advances (l.mapM f) := mapM l h

theorem allM {f : α → AnalysisM Bool} (l : List α) (h : ∀ a, Advances (f a)) : Advances (l.allM f) := by
  induction l with
  | nil => exact inferInstanceAs (Advances (pure _))
  | cons a l ih =>
    unfold List.allM
    refine seq (h a) fun b => ?_
    cases b
    · infer_instance
    · exact ih

instance (l : List α) (f : α → AnalysisM Bool) [h : ∀ a, Advances (f a)] : Advances (l.allM f) := allM l h

theorem forIn {f : α → β → AnalysisM (ForInStep β)} (l : List α) (b : β) (h : ∀ a b, Advances (f a b)) :
    Advances (forIn l b f) := by
  induction l generalizing b with
  | nil => exact inferInstanceAs (Advances (pure _))
  | cons a l ih =>
    rw [List.forIn_cons]
    refine seq (h a b) fun r => ?_
    cases r
    · infer_instance
    · exact ih _

instance (l : List α) (f : α → β → AnalysisM (ForInStep β)) (b : β) [h : ∀ a b, Advances (f a b)] :
    Advances (ForIn.forIn l b f) := forIn l b h

/-! ## Access to the state -/

theorem edit {f : Analysis → Analysis} (h : ∀ s, Onward s (f s)) : Advances (modify f) :=
  ⟨fun s a s' h' => by cases h'; exact h s⟩

theorem editGet {f : Analysis → α × Analysis} (h : ∀ s, Onward s (f s).2) : Advances (modifyGet f) :=
  ⟨fun s a s' h' => by cases h'; exact h s⟩

theorem note {f : Analysis → Analysis}
    (h : ∀ s, (f s).result.tree = s.result.tree ∧ (f s).pending = s.pending ∧ (f s).result.sweeps = s.result.sweeps) :
    Advances (modify f) :=
  edit fun s => ⟨fun id hid => by rw [(h s).1]; exact hid, (h s).2.1.ge, (h s).2.2⟩

theorem noteResult {f : AnalysisResult → AnalysisResult} (h : ∀ r, (f r).tree = r.tree ∧ (f r).sweeps = r.sweeps) :
    Advances (modifyResult f) := note fun s => ⟨(h s.result).1, rfl, (h s.result).2⟩

instance (f : ScopeTable → ScopeTable) : Advances (modifyScopes f) := noteResult fun _ => ⟨rfl, rfl⟩

instance (f : TypeTable → α × TypeTable) : Advances (withTypes f) :=
  editGet fun _ => ⟨fun _ h => h, le_rfl, rfl⟩

instance (f : ScopeTable → α × ScopeTable) : Advances (withScopes f) :=
  editGet fun _ => ⟨fun _ h => h, le_rfl, rfl⟩

theorem modifyNode (id : NodeId) {f : Node → Node} (h : ∀ n : Node, n.completed = true → (f n).completed = true) :
    Advances (modifyNode id f) := edit fun _ => ⟨fun _ hk => done_modify h hk, le_rfl, rfl⟩

instance : Advances tree := by unfold tree; infer_instance

instance : Advances types := by unfold types; infer_instance

instance : Advances scopes := by unfold scopes; infer_instance

instance (id : NodeId) (cause : InternalCause) : Advances (internal id cause : AnalysisM α) := by
  unfold internal
  infer_instance

instance (id : NodeId) : Advances (node id) := by
  unfold node
  refine bind fun t => ?_
  split <;> infer_instance

instance (n : Node) : Advances (addNode n) :=
  editGet fun s => ⟨fun _ h => done_of_extends (s.result.tree.extends_push n) h, le_rfl, rfl⟩

instance (id : NodeId) : Advances (spanOf id) := by unfold spanOf; infer_instance

instance (id : SymbolId) : Advances (symbol id) := by
  unfold symbol
  refine bind fun t => ?_
  split <;> infer_instance

instance (id : ScopeId) : Advances (scopeInfo id) := by
  unfold scopeInfo
  refine bind fun t => ?_
  split <;> infer_instance

instance (id : SymbolId) (t : TypeId) : Advances (setSymbolType id t) := by unfold setSymbolType; infer_instance

instance (id : SymbolId) : Advances (symbolName id) := by unfold symbolName; infer_instance

instance (s : String) : Advances (internName s) := by unfold internName; infer_instance

instance (id : TypeId) : Advances (typeInfo id) := by
  unfold typeInfo
  refine bind fun t => ?_
  split <;> infer_instance

instance (id : TypeId) : Advances (bareType id) := by unfold bareType; infer_instance

instance (id : TypeId) : Advances (typeText id) := by unfold typeText; infer_instance

instance (ids : List TypeId) : Advances (typeTexts ids) := by unfold typeTexts; infer_instance

instance (t : TypeId) : Advances (isResolved t) := by unfold isResolved; infer_instance

/-! ## Scopes of nodes and reports -/

instance (id : NodeId) (scope : ScopeId) : Advances (setScope id scope) := note fun _ => ⟨rfl, rfl, rfl⟩

instance (id : NodeId) : Advances (scopeOf id) := by
  unfold scopeOf
  refine bind fun s => ?_
  split <;> infer_instance

instance (id : NodeId) : Advances (seqOf id) := by unfold seqOf; infer_instance

instance (id : NodeId) : Advances (query id) := by unfold query; infer_instance

instance (id like : NodeId) : Advances (adopt id like) := by
  unfold adopt
  exact bind fun _ => bind fun _ => bind fun seq => note fun _ => ⟨rfl, rfl, rfl⟩

instance (p : Problem) (span : Span) (notes : List Note) : Advances (reportWith p span notes) :=
  note fun _ => ⟨rfl, rfl, rfl⟩

instance (p : Problem) (span : Span) : Advances (report p span) := by unfold report; infer_instance

instance (id : NodeId) (t : TypeId) : Advances (finish id t) := by
  unfold finish
  have hcomplete : Advances (Analysis.modifyNode id fun n => { n with valueType := t, completed := true }) :=
    modifyNode id fun _ _ => rfl
  have hkeep : Advances (Analysis.modifyNode id fun n => { n with valueType := t }) := modifyNode id fun _ h => h
  have hprogress : Advances (modify fun s : Analysis => { s with progress := true }) := note fun _ => ⟨rfl, rfl, rfl⟩
  have hpending : Advances (modify fun s : Analysis => { s with pending := s.pending + 1 }) :=
    edit fun s => ⟨fun _ h => h, Nat.le_succ _, rfl⟩
  infer_instance

instance (id : NodeId) : Advances (fail id) := inferInstanceAs (Advances (finish id _))

instance : Advances pendingType := by
  have hpending : Advances (modify fun s : Analysis => { s with pending := s.pending + 1 }) :=
    edit fun s => ⟨fun _ h => h, Nat.le_succ _, rfl⟩
  unfold pendingType
  infer_instance

instance (inner : NodeId) (t : TypeId) : Advances (castNode inner t) := by unfold castNode; infer_instance

instance (value : NodeId) (want : TypeId) (code : Code) : Advances (coerce value want code) := by
  unfold coerce
  infer_instance

/-! ## Declarations -/

instance (id : NodeId) (sym : SymbolId) : Advances (setDecl id sym) := noteResult fun _ => ⟨rfl, rfl⟩

theorem withScope {step : AnalysisM Unit} (h : Advances step) (scope : ScopeId) : Advances (withScope scope step) := by
  have (scope : ScopeId) : Advances (modify fun s : Analysis => { s with scope }) := note fun _ => ⟨rfl, rfl, rfl⟩
  unfold Analysis.withScope
  infer_instance

instance (scope : ScopeId) (step : AnalysisM Unit) [h : Advances step] : Advances (Analysis.withScope scope step) :=
  withScope h scope

instance (id : NodeId) (step : AnalysisM Unit) [Advances step] : Advances (inBlock id step) := by unfold inBlock; infer_instance

instance (label : String) (step : AnalysisM Unit) [Advances step] : Advances (inLoop label step) := by
  unfold inLoop
  exact seq (note fun _ => ⟨rfl, rfl, rfl⟩) fun _ => bind fun _ => note fun _ => ⟨rfl, rfl, rfl⟩

theorem outsideLoops {step : AnalysisM Unit} (h : Advances step) : Advances (outsideLoops step) := by
  have (loops : List String) : Advances (modify fun s : Analysis => { s with loops }) := note fun _ => ⟨rfl, rfl, rfl⟩
  unfold Analysis.outsideLoops
  infer_instance

instance (name : String) (span : Span) (prev : SymbolId) : Advances (reportRedeclared name span prev) := by
  unfold reportRedeclared; infer_instance

instance (static : Bool) : Advances (newStorage static) := by
  unfold newStorage
  refine bind fun s => ?_
  split <;> infer_instance

instance : Advances inFunction := by unfold inFunction; infer_instance

instance (scope : ScopeId) (sym : Symbol) : Advances (bindIn scope sym) := by
  unfold bindIn
  refine bind fun t => ?_
  split <;> infer_instance

instance (sym : Symbol) : Advances (bindSymbol sym) := by unfold bindSymbol; infer_instance

instance (owner : NodeId) (name : String) : Advances (declareLocal owner name) := by
  unfold declareLocal
  refine bind fun _ => bind fun _ => bind fun _ => bind fun _ => ?_
  dsimp only
  split <;> refine bind fun _ => bind fun r => ?_
  all_goals split <;> infer_instance

instance (n : Node) : Advances (loadNative n) := by
  unfold loadNative
  refine bind fun s => ?_
  split
  · infer_instance
  · infer_instance
  · split <;> infer_instance

instance (n : Node) : Advances (checkLoopControl n) := by unfold checkLoopControl; infer_instance

section Steps

variable {self : NodeId → AnalysisM Unit} [hself : ∀ id, Advances (self id)]

include hself

instance (id : NodeId) : Advances (declareNested self id) := by unfold declareNested; infer_instance

instance (fs : ScopeId) (p : NodeId) (i : Nat) : Advances (declareParam self fs p i) := by
  unfold declareParam
  refine bind fun _ => bind fun _ => bind fun _ => bind fun _ => bind fun _ => bind fun r => ?_
  split <;> infer_instance

instance (id : NodeId) (fn : SymbolId) : Advances (declareFuncBody self id fn) := by
  unfold declareFuncBody
  refine bind fun _ => bind fun _ => bind fun fs => bind fun _ => seq (note fun _ => ⟨rfl, rfl, rfl⟩) fun _ => ?_
  exact outsideLoops (withScope (bind fun _ => bind fun _ => bind fun _ => inferInstance) fs)

instance (id : NodeId) (n : Node) : Advances (declareLet self id n) := by
  have hstatic (sym : SymbolId) : Advances (modifyResult fun r =>
      { r with statics := r.statics ++ [{ symbol := sym, init := n.b }] }) := noteResult fun _ => ⟨rfl, rfl⟩
  unfold declareLet
  refine bind fun name => ?_
  dsimp only
  split
  · refine bind fun sym => bind fun r => ?_
    split <;> infer_instance
  · refine bind fun storage => bind fun inside => ?_
    split <;> refine bind fun seq => bind fun sym => bind fun r => ?_
    all_goals split <;> infer_instance

instance (id : NodeId) (n : Node) : Advances (declareFunc self id n) := by
  have hbind (sym : Symbol) : Advances (do
      let s ← get
      match s.result.scopes.declareCandidate s.scope sym with
      | .error prev => reportRedeclared n.name n.span prev
      | .ok (symId, scopes) =>
        modifyResult fun r => { r with scopes, funcs := r.funcs.insert id symId }
        if !n.isGeneric then declareFuncBody self id symId) := by
    refine bind fun s => ?_
    split
    · infer_instance
    · exact seq (noteResult fun _ => ⟨rfl, rfl⟩) fun _ => inferInstance
  unfold declareFunc
  refine bind fun name => ?_
  dsimp only
  split
  · exact bind fun handle => hbind _
  · exact bind fun handle => hbind _

instance (id : NodeId) (n : Node) : Advances (declareLiteral self id n) := by
  unfold declareLiteral
  exact bind fun _ => bind fun _ => bind fun _ => seq (noteResult fun _ => ⟨rfl, rfl⟩) fun _ => inferInstance

instance (id : NodeId) (n : Node) : Advances (declareReturn self id n) := by
  unfold declareReturn
  dsimp only
  refine bind fun s => ?_
  split
  · infer_instance
  · refine bind fun fs => ?_
    split
    · exact seq (note fun _ => ⟨rfl, rfl, rfl⟩) fun _ => inferInstance
    · infer_instance

instance (id : NodeId) (n : Node) : Advances (declareTypeDecl self id n) := by
  unfold declareTypeDecl
  refine bind fun _ => bind fun r => ?_
  split <;> infer_instance

instance (union : SymbolId) (ns : ScopeId) (attrs : Attrs) (v : NodeId) (tag : Nat) :
    Advances (declareVariant self union ns attrs v tag) := by
  unfold declareVariant
  refine bind fun _ => bind fun _ => bind fun _ => bind fun _ => bind fun _ => bind fun _ => ?_
  split <;> infer_instance

instance (id : NodeId) (n : Node) : Advances (declareUnion self id n) := by
  unfold declareUnion
  refine bind fun _ => bind fun r => ?_
  split <;> infer_instance

instance (id : NodeId) : Advances (declareArm self id) := by unfold declareArm; infer_instance

instance (id : NodeId) (n : Node) : Advances (declareMatch self id n) := by
  unfold declareMatch
  refine bind fun _ => seq (forIn _ _ fun c r => bind fun _ => ?_) fun _ => inferInstance
  exact seq (note fun _ => ⟨rfl, rfl, rfl⟩) fun _ => inferInstance

instance (id : NodeId) (n : Node) : Advances (declareFor self id n) := by unfold declareFor; infer_instance

instance (id : NodeId) (n : Node) : Advances (declareForeach self id n) := by
  have (key : SymbolId) : Advances (modifyResult fun r => { r with keys := r.keys.insert id key }) :=
    noteResult fun _ => ⟨rfl, rfl⟩
  unfold declareForeach
  infer_instance

instance (id : NodeId) (n : Node) : Advances (declareBlock self id n) := by
  unfold declareBlock
  exact bind fun _ => note fun _ => ⟨rfl, rfl, rfl⟩

instance (n : Node) : Advances (declareNamespace self n) := by unfold declareNamespace; infer_instance

omit hself in
instance (n : Node) : Advances (declareImport n) := by unfold declareImport; infer_instance

instance (id : NodeId) (n : Node) : Advances (declareKind self id n) := by
  unfold declareKind
  split <;> infer_instance

instance (id : NodeId) : Advances (declareStep self id) := by
  have henter : Advances (modify fun s : Analysis => { s with declaring := s.declaring.insert id () }) :=
    note fun _ => ⟨rfl, rfl, rfl⟩
  have hleave : Advances (modify fun s : Analysis => { s with declaring := s.declaring.erase id }) :=
    note fun _ => ⟨rfl, rfl, rfl⟩
  unfold declareStep
  infer_instance

end Steps

instance (fuel : Nat) (id : NodeId) : Advances (declareWith fuel id) := by
  induction fuel generalizing id with
  | zero => exact inferInstanceAs (Advances (throw _))
  | succ fuel ih => exact inferInstanceAs (Advances (declareStep _ id))

instance (id : NodeId) : Advances (declare id) := by unfold declare; infer_instance

/-! ## Instances -/

instance (args : List TypeId) : Advances (anyParams args) := by unfold anyParams; infer_instance

instance (g : Symbol) (params : List String) (args : List TypeId) : Advances (templateScope g params args) := by
  unfold templateScope
  refine bind fun ts => seq (forIn _ _ fun p _ => bind fun name => bind fun t => ?_) fun _ => inferInstance
  split <;> infer_instance

instance (kind : SymbolKind) (clone : NodeId) (inst : SymbolId) (args : List TypeId) :
    Advances (declareInstance kind clone inst args) := by
  have hinstances : Advances (modify fun s : Analysis => { s with instances := s.instances.push clone }) :=
    note fun _ => ⟨rfl, rfl, rfl⟩
  unfold declareInstance
  refine bind fun cn => ?_
  split
  · exact seq (noteResult fun _ => ⟨rfl, rfl⟩) fun _ => inferInstance
  · refine bind fun _ => bind fun _ => bind fun _ => seq (noteResult fun _ => ⟨rfl, rfl⟩) fun _ => inferInstance
  · infer_instance
  · infer_instance

instance (decl : NodeId) : Advances (copyDecl decl) := by
  refine ⟨fun s a s' h => ?_⟩
  rw [copyDecl_apply] at h
  split at h
  · rename_i clone copied hcopy
    cases h
    exact ⟨fun id hid => done_of_extends ((Tree.copy_copies hcopy).extends_modify _) hid, le_rfl, rfl⟩
  · cases h

instance (args : List TypeId) : Advances (keyFor args) := editGet fun _ => ⟨fun _ h => h, le_rfl, rfl⟩

instance (gen : SymbolId) (g : Symbol) (tpl : Template) (args : List TypeId) (key : String) :
    Advances (newInstance gen g tpl args key) := by
  unfold newInstance
  infer_instance

/-! ## Names, functions and types -/

instance (id : NodeId) (n : Node) : Advances (lookupName id n) := by
  unfold lookupName
  refine bind fun q => bind fun tab => ?_
  split <;> infer_instance

instance (fn : SymbolId) : Advances (funcInfo fn) := by
  unfold funcInfo
  refine bind fun s => ?_
  split <;> infer_instance

instance (fn : SymbolId) (f : FuncInfo → FuncInfo) : Advances (modifyFunc fn f) := by
  unfold modifyFunc
  exact bind fun _ => note fun _ => ⟨rfl, rfl, rfl⟩

instance (sym : SymbolId) : Advances (isTyping sym) := by unfold isTyping; infer_instance

instance (base : TypeId) (sym : SymbolId) (name : String) (args : List TypeId) : Advances (namedOf base sym name args) := by
  have (types : TypeTable) : Advances (modifyResult fun r => { r with types }) := noteResult fun _ => ⟨rfl, rfl⟩
  unfold namedOf
  refine bind fun t => ?_
  split <;> infer_instance

instance (id : NodeId) (sym : SymbolId) : Advances (captureName id sym) := by unfold captureName; infer_instance

instance (fn : SymbolId) : Advances (signatureText fn) := by unfold signatureText; infer_instance

instance (fns : List SymbolId) : Advances (candidateNotes fns) := by unfold candidateNotes; infer_instance

instance (span : Span) (name : String) (rejected : List (SymbolId × Rejection)) (acts : List Actual) :
    Advances (reportRejected span name rejected acts) := by
  unfold reportRejected
  infer_instance

instance (id : NodeId) (name : String) (sel : Selection) (acts : List Actual) : Advances (reportSelection id name sel acts) := by
  unfold reportSelection
  refine bind fun span => ?_
  split <;> infer_instance

instance (typeSym : SymbolId) (name : String) : Advances (methodSet? typeSym name) := by
  unfold methodSet?
  refine bind fun tab => ?_
  dsimp only
  split <;> infer_instance

/-! ## Slots -/

instance (slot : Slot) : Advances (slotValue slot) := by
  unfold slotValue
  split <;> infer_instance

instance (slot : Slot) (value : NodeId) : Advances (setSlot slot value) := by
  unfold setSlot
  split <;> exact modifyNode _ fun _ h => h

instance (slot : Slot) (t : TypeId) : Advances (castSlot slot t) := by unfold castSlot; infer_instance

instance (slot : Slot) (want : TypeId) (code : Code) : Advances (coerceSlot slot want code) := by unfold coerceSlot; infer_instance

instance (acts : List Actual) (params : List TypeId) (casts : List Nat) : Advances (castActuals acts params casts) := by
  unfold castActuals
  refine forM casts fun i => ?_
  split <;> infer_instance

instance (id : NodeId) (op : Operator) (l r result : TypeId) : Advances (balanceOperands id op l r result) := by
  unfold balanceOperands
  infer_instance

/-! ## Checks -/

instance (id : NodeId) (sym : SymbolId) : Advances (bindNode id sym) := noteResult fun _ => ⟨rfl, rfl⟩

instance (id : NodeId) (info : CallInfo) : Advances (setCall id info) := noteResult fun _ => ⟨rfl, rfl⟩

instance (id : NodeId) (n : Node) (inner : TypeId) : Advances (expand id n inner) := by
  unfold expand
  refine bind fun t => ?_
  dsimp only
  split <;> infer_instance

instance (target : NodeId) : Advances (assignable target) := by
  unfold assignable
  refine bind fun tn => ?_
  split
  · refine bind fun s => ?_
    split <;> infer_instance
  · infer_instance
  · infer_instance
  · infer_instance

instance (st : TypeId) (fields : List TyField) (seen : List String) (f : NodeId) : Advances (structField st fields seen f) := by
  unfold structField
  refine bind fun fn => ?_
  split <;> infer_instance

instance (st : TypeId) (variants : List TyField) (arms : Arms) (arm : NodeId) : Advances (checkArm st variants arms arm) := by
  unfold checkArm
  refine bind fun cn => ?_
  split
  · infer_instance
  · split
    · split <;> infer_instance
    · infer_instance

instance (id : NodeId) (fn : SymbolId) (inferred : Bool) (want got : TypeId) : Advances (checkReturn id fn inferred want got) := by
  unfold checkReturn
  infer_instance

end Advances

end Analysis

end TreeCompiler
