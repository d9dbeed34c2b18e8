import TreeCompiler.Analysis.Run
import TreeCompiler.Proofs.Analysis.Reach
import TreeCompiler.Proofs.Tree.Circle

/-!
# Which traversals of a decoded tree end

The declaration pass keeps a set of the nodes that are being declared and skips them when it meets them again, so in any tree
its depth is bounded by the number of nodes. Type expressions have no such set.

* `Analysis.idle` : how many nodes are not being declared. Each nested call of the pass lowers it;
* `Ends k m` : from a state with at most `k` such nodes the computation `m` does not run out of fuel, and it restores the set;
* `declare_bounded` : the pass never runs out of fuel;
* `Node.firstPart?`, `typeExpr_endless` : evaluating a type expression whose first parts run in a circle never ends.
-/

namespace TreeCompiler

namespace Analysis

variable {α β : Type} {k : Nat} {s s' : Analysis}

/-! ## Nodes that are not being declared -/

def idle (s : Analysis) : Nat := (List.range' 1 s.result.tree.size).countP fun id => !s.declaring.contains id

theorem idle_le (s : Analysis) : s.idle ≤ s.result.tree.size := by
  calc s.idle ≤ (List.range' 1 s.result.tree.size).length := List.countP_le_length
    _ = s.result.tree.size := List.length_range'

/-- The same nodes are being declared, of a tree of the same size. -/
structure Restores (s s' : Analysis) : Prop where
  size : s'.result.tree.size = s.result.tree.size
  declaring : ∀ id, s'.declaring.contains id = s.declaring.contains id

namespace Restores

theorem refl (s : Analysis) : Restores s s := ⟨rfl, fun _ => rfl⟩

theorem trans {a b c : Analysis} (h₁ : Restores a b) (h₂ : Restores b c) : Restores a c :=
  ⟨h₂.size.trans h₁.size, fun id => (h₂.declaring id).trans (h₁.declaring id)⟩

theorem idle (h : Restores s s') : s'.idle = s.idle := by
  unfold Analysis.idle
  rw [h.size]
  simp only [h.declaring]

end Restores

/-- A node that is entered is no longer idle. -/
theorem idle_enter {id : NodeId} {n : Node} (hn : s.result.tree.get? id = some n) (hid : s.declaring.contains id = false) :
    idle { s with declaring := s.declaring.insert id () } < s.idle := by
  have hmem : id ∈ List.range' 1 s.result.tree.size := Tree.mem_range'_of_get? hn
  unfold idle
  dsimp only
  rw [List.countP_eq_length_filter, List.countP_eq_length_filter]
  have hsub : ∀ x, (!(s.declaring.insert id ()).contains x) = true → (!s.declaring.contains x) = true := by
    intro x hx
    rw [Bool.not_eq_true', Bool.eq_false_iff] at hx ⊢
    exact fun h => hx ((IdMap.contains_insert s.declaring id x ()).2 (.inr h))
  have hsublist := List.monotone_filter_right (List.range' 1 s.result.tree.size) hsub
  refine lt_of_le_of_ne hsublist.length_le fun heq => ?_
  have hin : id ∈ (List.range' 1 s.result.tree.size).filter fun x => !s.declaring.contains x :=
    List.mem_filter.2 ⟨hmem, by rw [hid]; rfl⟩
  rw [← hsublist.eq_of_length heq] at hin
  have hout := (List.mem_filter.1 hin).2
  rw [(IdMap.contains_insert s.declaring id id ()).2 (.inl rfl)] at hout
  cases hout

theorem bind_error {x : AnalysisM α} {f : α → AnalysisM β} {e : AnalysisFailure} (h : x s = .error e s') :
    (x >>= f) s = .error e s' := by
  simp only [Bind.bind, EStateM.bind, h]

class Ends (k : Nat) (m : AnalysisM α) : Prop where
  ends : ∀ s, s.idle ≤ k → (∃ a s', m s = .ok a s' ∧ Restores s s') ∨ ∃ e s', m s = .error e s' ∧ e ≠ .unbounded

namespace Ends

instance (a : α) : Ends k (pure a : AnalysisM α) := ⟨fun s _ => .inl ⟨a, s, rfl, .refl s⟩⟩

instance : Ends k (get : AnalysisM Analysis) := ⟨fun s _ => .inl ⟨s, s, rfl, .refl s⟩⟩

theorem of_throw {e : AnalysisFailure} (he : e ≠ .unbounded) : Ends k (throw e : AnalysisM α) :=
  ⟨fun s _ => .inr ⟨e, s, rfl, he⟩⟩

theorem seq {x : AnalysisM α} {f : α → AnalysisM β} (hx : Ends k x) (hf : ∀ a, Ends k (f a)) : Ends k (x >>= f) := by
  refine ⟨fun s hs => ?_⟩
  rcases hx.ends s hs with ⟨a, s₁, h₁, r₁⟩ | ⟨e, s₁, h₁, he⟩
  · rw [bind_apply h₁]
    rcases (hf a).ends s₁ (r₁.idle ▸ hs) with ⟨b, s₂, h₂, r₂⟩ | h₂
    · exact .inl ⟨b, s₂, h₂, r₁.trans r₂⟩
    · exact .inr h₂
  · exact .inr ⟨e, s₁, bind_error h₁, he⟩

/-- The first part is found by instance. -/
theorem bind {x : AnalysisM α} {f : α → AnalysisM β} [hx : Ends k x] (hf : ∀ a, Ends k (f a)) : Ends k (x >>= f) := seq hx hf

instance {x : AnalysisM α} {f : α → AnalysisM β} [hx : Ends k x] [hf : ∀ a, Ends k (f a)] : Ends k (x >>= f) := seq hx hf

instance {x : AnalysisM α} {f : α → β} [hx : Ends k x] : Ends k (f <$> x) :=
  seq hx fun a => inferInstanceAs (Ends k (pure (f a)))

instance {x : AnalysisM α} [hx : Ends k x] : Ends k (discard x) := inferInstanceAs (Ends k ((fun _ => PUnit.unit) <$> x))

instance {c : Prop} [Decidable c] {x y : AnalysisM α} [Ends k x] [Ends k y] : Ends k (if c then x else y) := by
  split <;> infer_instance

theorem forM {f : α → AnalysisM PUnit} (l : List α) (h : ∀ a, Ends k (f a)) : Ends k (l.forM f) := by
  induction l with
  | nil => exact inferInstanceAs (Ends k (pure _))
  | cons a l ih => exact seq (h a) fun _ => ih

instance (l : List α) (f : α → AnalysisM PUnit) [h : ∀ a, Ends k (f a)] : Ends k (l.forM f) := forM l h

theorem forIn {f : α → β → AnalysisM (ForInStep β)} (l : List α) (b : β) (h : ∀ a b, Ends k (f a b)) :
    Ends k (forIn l b f) := by
  induction l generalizing b with
  | nil => exact inferInstanceAs (Ends k (pure _))
  | cons a l ih =>
    rw [List.forIn_cons]
    refine seq (h a b) fun r => ?_
    cases r
    · exact inferInstanceAs (Ends k (pure _))
    · exact ih _

instance (l : List α) (f : α → β → AnalysisM (ForInStep β)) (b : β) [h : ∀ a b, Ends k (f a b)] :
    Ends k (ForIn.forIn l b f) := forIn l b h

/-! ### Primitive steps -/

theorem note {f : Analysis → Analysis} (h : ∀ s, Restores s (f s)) : Ends k (modify f) :=
  ⟨fun s _ => .inl ⟨⟨⟩, f s, rfl, h s⟩⟩

theorem noteResult {f : AnalysisResult → AnalysisResult} (h : ∀ r, (f r).tree = r.tree) : Ends k (modifyResult f) :=
  note fun s => ⟨by rw [h], fun _ => rfl⟩

instance (f : ScopeTable → ScopeTable) : Ends k (modifyScopes f) := noteResult fun _ => rfl

instance (f : ScopeTable → α × ScopeTable) : Ends k (withScopes f) :=
  ⟨fun s _ => .inl ⟨(f s.result.scopes).1, _, rfl, rfl, fun _ => rfl⟩⟩

instance (id : NodeId) (f : Node → Node) : Ends k (modifyNode id f) := by
  refine note fun s => ⟨?_, fun _ => rfl⟩
  simp only [Tree.size, Tree.modify]
  split <;> simp

instance : Ends k tree := by unfold tree; infer_instance

instance : Ends k types := by unfold types; infer_instance

instance : Ends k scopes := by unfold scopes; infer_instance

instance (id : NodeId) (cause : InternalCause) : Ends k (internal id cause : AnalysisM α) := of_throw nofun

instance (id : NodeId) : Ends k (node id) := by
  unfold node
  refine bind fun t => ?_
  split <;> infer_instance

instance (id : SymbolId) : Ends k (symbol id) := by
  unfold symbol
  refine bind fun t => ?_
  split
  · infer_instance
  · exact of_throw nofun

instance (id : ScopeId) : Ends k (scopeInfo id) := by
  unfold scopeInfo
  refine bind fun t => ?_
  split
  · infer_instance
  · exact of_throw nofun

instance (id : NodeId) : Ends k (spanOf id) := by unfold spanOf; infer_instance

instance (id : NodeId) : Ends k (seqOf id) := by unfold seqOf; infer_instance

instance (t : TypeId) : Ends k (isResolved t) := by unfold isResolved; infer_instance

instance (text : String) : Ends k (internName text) := by unfold internName; infer_instance

instance (id : NodeId) (scope : ScopeId) : Ends k (setScope id scope) := note fun _ => ⟨rfl, fun _ => rfl⟩

instance (p : Problem) (span : Span) (notes : List Note) : Ends k (reportWith p span notes) := note fun _ => ⟨rfl, fun _ => rfl⟩

instance (p : Problem) (span : Span) : Ends k (report p span) := by unfold report; infer_instance

instance (id : NodeId) (t : TypeId) : Ends k (finish id t) := by
  have hprogress : Ends k (modify fun s : Analysis => { s with progress := true }) := note fun _ => ⟨rfl, fun _ => rfl⟩
  have hpending : Ends k (modify fun s : Analysis => { s with pending := s.pending + 1 }) := note fun _ => ⟨rfl, fun _ => rfl⟩
  unfold finish
  infer_instance

/-! ### Parts of the pass -/

theorem withScope {step : AnalysisM Unit} (h : Ends k step) (scope : ScopeId) : Ends k (withScope scope step) := by
  have (scope : ScopeId) : Ends k (modify fun s : Analysis => { s with scope }) := note fun _ => ⟨rfl, fun _ => rfl⟩
  unfold Analysis.withScope
  infer_instance

instance (scope : ScopeId) (step : AnalysisM Unit) [h : Ends k step] : Ends k (Analysis.withScope scope step) := withScope h scope

instance (id : NodeId) (step : AnalysisM Unit) [Ends k step] : Ends k (inBlock id step) := by unfold inBlock; infer_instance

instance (label : String) (step : AnalysisM Unit) [Ends k step] : Ends k (inLoop label step) := by
  unfold inLoop
  exact seq (note fun _ => ⟨rfl, fun _ => rfl⟩) fun _ => bind fun _ => note fun _ => ⟨rfl, fun _ => rfl⟩

theorem outsideLoops {step : AnalysisM Unit} (h : Ends k step) : Ends k (outsideLoops step) := by
  have (loops : List String) : Ends k (modify fun s : Analysis => { s with loops }) := note fun _ => ⟨rfl, fun _ => rfl⟩
  unfold Analysis.outsideLoops
  infer_instance

instance (name : String) (span : Span) (prev : SymbolId) : Ends k (reportRedeclared name span prev) := by
  unfold reportRedeclared; infer_instance

instance (static : Bool) : Ends k (newStorage static) := by
  unfold newStorage
  refine bind fun s => ?_
  split <;> infer_instance

instance : Ends k inFunction := by unfold inFunction; infer_instance

instance (scope : ScopeId) (sym : Symbol) : Ends k (bindIn scope sym) := by
  unfold bindIn
  refine bind fun tab => ?_
  split <;> infer_instance

instance (sym : Symbol) : Ends k (bindSymbol sym) := by unfold bindSymbol; infer_instance

instance (id : NodeId) (sym : SymbolId) : Ends k (setDecl id sym) := noteResult fun _ => rfl

instance (owner : NodeId) (name : String) : Ends k (declareLocal owner name) := by
  unfold declareLocal
  refine bind fun _ => bind fun _ => bind fun _ => bind fun _ => ?_
  dsimp only
  split <;> refine bind fun _ => bind fun r => ?_
  all_goals split <;> infer_instance

instance (n : Node) : Ends k (loadNative n) := by
  unfold loadNative
  refine bind fun s => ?_
  split
  · infer_instance
  · infer_instance
  · split <;> infer_instance

instance (n : Node) : Ends k (checkLoopControl n) := by unfold checkLoopControl; infer_instance

section Steps

variable (self : NodeId → AnalysisM Unit) [hself : ∀ id, Ends k (self id)]

instance (id : NodeId) : Ends k (declareNested self id) := by unfold declareNested; infer_instance

instance (fs : ScopeId) (p : NodeId) (i : Nat) : Ends k (declareParam self fs p i) := by
  unfold declareParam
  refine bind fun _ => bind fun _ => bind fun _ => bind fun _ => bind fun _ => bind fun r => ?_
  split <;> infer_instance

instance (id : NodeId) (fn : SymbolId) : Ends k (declareFuncBody self id fn) := by
  unfold declareFuncBody
  refine bind fun _ => bind fun _ => bind fun fs => bind fun _ => seq (note fun _ => ⟨rfl, fun _ => rfl⟩) fun _ => ?_
  exact outsideLoops (withScope (bind fun _ => bind fun _ => bind fun _ => inferInstance) fs)

instance (id : NodeId) (n : Node) : Ends k (declareLet self id n) := by
  have hstatic (sym : SymbolId) : Ends k (modifyResult fun r =>
      { r with statics := r.statics ++ [{ symbol := sym, init := n.b }] }) := noteResult fun _ => rfl
  unfold declareLet
  refine bind fun name => ?_
  dsimp only
  split
  · refine bind fun sym => bind fun r => ?_
    split <;> infer_instance
  · refine bind fun storage => bind fun inside => ?_
    split <;> refine bind fun seq => bind fun sym => bind fun r => ?_
    all_goals split <;> infer_instance

instance (id : NodeId) (n : Node) : Ends k (declareFunc self id n) := by
  have hbind (sym : Symbol) : Ends k (do
      let s ← get
      match s.result.scopes.declareCandidate s.scope sym with
      | .error prev => reportRedeclared n.name n.span prev
      | .ok (symId, scopes) =>
        modifyResult fun r => { r with scopes, funcs := r.funcs.insert id symId }
        if !n.isGeneric then declareFuncBody self id symId) := by
    refine bind fun s => ?_
    split
    · infer_instance
    · exact seq (noteResult fun _ => rfl) fun _ => inferInstance
  unfold declareFunc
  refine bind fun name => ?_
  dsimp only
  split
  · exact bind fun handle => hbind _
  · exact bind fun handle => hbind _

instance (id : NodeId) (n : Node) : Ends k (declareLiteral self id n) := by
  unfold declareLiteral
  refine bind fun _ => bind fun _ => bind fun _ => seq (noteResult fun _ => rfl) fun _ => inferInstance

instance (id : NodeId) (n : Node) : Ends k (declareReturn self id n) := by
  unfold declareReturn
  refine bind fun s => ?_
  dsimp only
  split
  · infer_instance
  · refine bind fun fs => ?_
    split
    · exact seq (note fun _ => ⟨rfl, fun _ => rfl⟩) fun _ => inferInstance
    · infer_instance

instance (id : NodeId) (n : Node) : Ends k (declareTypeDecl self id n) := by
  unfold declareTypeDecl
  refine bind fun _ => bind fun r => ?_
  split <;> infer_instance

instance (union : SymbolId) (ns : ScopeId) (attrs : Attrs) (v : NodeId) (tag : Nat) :
    Ends k (declareVariant self union ns attrs v tag) := by
  unfold declareVariant
  refine bind fun _ => bind fun _ => bind fun _ => bind fun _ => bind fun _ => bind fun tab => ?_
  split <;> infer_instance

instance (id : NodeId) (n : Node) : Ends k (declareUnion self id n) := by
  unfold declareUnion
  refine bind fun _ => bind fun r => ?_
  split <;> infer_instance

instance (id : NodeId) : Ends k (declareArm self id) := by unfold declareArm; infer_instance

instance (id : NodeId) (n : Node) : Ends k (declareMatch self id n) := by
  unfold declareMatch
  refine bind fun _ => seq (forIn _ _ fun c r => bind fun _ => ?_) fun _ => inferInstance
  exact seq (note fun _ => ⟨rfl, fun _ => rfl⟩) fun _ => inferInstance

instance (id : NodeId) (n : Node) : Ends k (declareFor self id n) := by unfold declareFor; infer_instance

instance (id : NodeId) (n : Node) : Ends k (declareForeach self id n) := by
  have (key : SymbolId) : Ends k (modifyResult fun r => { r with keys := r.keys.insert id key }) := noteResult fun _ => rfl
  unfold declareForeach
  infer_instance

instance (id : NodeId) (n : Node) : Ends k (declareBlock self id n) := by
  unfold declareBlock
  exact bind fun _ => note fun _ => ⟨rfl, fun _ => rfl⟩

instance (n : Node) : Ends k (declareNamespace self n) := by unfold declareNamespace; infer_instance

omit hself in
instance (n : Node) : Ends k (declareImport n) := by unfold declareImport; infer_instance

instance (id : NodeId) (n : Node) : Ends k (declareKind self id n) := by
  unfold declareKind
  split <;> infer_instance

end Steps

end Ends

/-! ## The declaration pass -/

/-- The set is the same again when the node that was entered is left. -/
theorem Restores.leave {id : NodeId} (hid : s.declaring.contains id = false)
    (h : Restores { s with declaring := s.declaring.insert id () } s') :
    Restores s { s' with declaring := s'.declaring.erase id } := by
  refine ⟨h.size, fun x => Bool.eq_iff_iff.2 ?_⟩
  have hentered : s'.declaring.contains x = (s.declaring.insert id ()).contains x := h.declaring x
  rw [IdMap.contains_erase, hentered, IdMap.contains_insert]
  refine ⟨fun hx => hx.2.resolve_left hx.1, fun hx => ⟨?_, .inr hx⟩⟩
  rintro rfl
  rw [hid] at hx
  cases hx

/-- One level of the pass ends when the pass below does from states with one node less to declare. -/
theorem declareStep_ends {self : NodeId → AnalysisM Unit} (h : ∀ k', k = k' + 1 → ∀ id, Ends k' (self id)) (id : NodeId) :
    Ends k (declareStep self id) := by
  refine ⟨fun s hs => ?_⟩
  by_cases hskip : (decide (id = 0) || s.declaring.contains id) = true
  · refine .inl ⟨⟨⟩, s, ?_, .refl s⟩
    unfold declareStep
    change (if _ then _ else _ : AnalysisM Unit) s = _
    rw [if_pos hskip]
    rfl
  · have hid : s.declaring.contains id = false := by
      rw [Bool.or_eq_true, not_or] at hskip
      exact Bool.eq_false_iff.2 hskip.2
    have hstep : declareStep self id s = (node id >>= fun n => do
        modify fun s => { s with declaring := s.declaring.insert id () }
        setScope id (← get).scope
        declareKind self id n
        modify fun s => { s with declaring := s.declaring.erase id } : AnalysisM Unit) s := by
      unfold declareStep
      change (if _ then _ else _ : AnalysisM Unit) s = _
      rw [if_neg hskip]
    rw [hstep]
    cases hn : s.result.tree.get? id with
    | none =>
      refine .inr ⟨.internal id .missingNode, s, bind_error ?_, nofun⟩
      rw [node_apply, hn]
      rfl
    | some n =>
      have hnode : node id s = .ok n s := by
        rw [node_apply, hn]
        rfl
      have hidle := idle_enter hn hid
      obtain ⟨k, rfl⟩ : ∃ k', k = k' + 1 := ⟨k - 1, by omega⟩
      have hself := h k rfl
      have hkind : Ends k (declareKind self id n) := inferInstance
      let s₂ : Analysis :=
        { s with nodeScope := s.nodeScope.insert id s.scope, nodeSeq := s.nodeSeq.insert id (s.seq + 1), seq := s.seq + 1
                 declaring := s.declaring.insert id () }
      have hidle₂ : s₂.idle ≤ k := Nat.le_of_lt_succ (Nat.lt_of_lt_of_le hidle hs)
      rw [bind_apply hnode]
      rcases hkind.ends s₂ hidle₂ with ⟨a, s₃, h₃, r₃⟩ | ⟨e, s₃, h₃, he⟩
      · refine .inl ⟨⟨⟩, { s₃ with declaring := s₃.declaring.erase id }, (?_ : (declareKind self id n >>= _) s₂ = _),
          .leave hid ⟨r₃.size, r₃.declaring⟩⟩
        rw [bind_apply h₃]
        rfl
      · exact .inr ⟨e, s₃, (bind_error h₃ : (declareKind self id n >>= _) s₂ = _), he⟩

theorem declareWith_ends (fuel : Nat) : ∀ id, Ends fuel (declareWith (fuel + 1) id) := by
  induction fuel with
  | zero => exact declareStep_ends nofun
  | succ fuel ih =>
    refine declareStep_ends fun k' hk => ?_
    cases hk
    exact ih

/-- Whatever the tree is like and wherever the pass is started, the fuel of the declaration pass is enough. -/
theorem declare_bounded (id : NodeId) (s s' : Analysis) : declare id s ≠ .error .unbounded s' := by
  have hdeclare : declare id s = declareWith (s.result.tree.size + 1 + 1) id s := rfl
  rw [hdeclare]
  intro h
  rcases (declareWith_ends _ id).ends s (Nat.le_succ_of_le s.idle_le) with ⟨a, s₁, h₁, -⟩ | ⟨e, s₁, h₁, he⟩
  · rw [h₁] at h
    cases h
  · rw [h₁] at h
    cases h
    exact he rfl

end Analysis

/-! ## Type expressions -/

/-- The type expression that is evaluated first when `n` is. -/
def Node.firstPart? (n : Node) : Option NodeId :=
  match n.kind with
  | .typeArray | .typeMap => some n.a
  | .typeTuple => n.list.head?
  | .typeFunc => some (n.list.headD n.a)
  | _ => none

namespace Analysis

/-- Type expressions whose first parts are among them again, none of them completed. -/
def Endless (t : Tree) (ids : List NodeId) : Prop :=
  ∀ id ∈ ids, ∃ n c, t.get? id = some n ∧ n.completed = false ∧ n.firstPart? = some c ∧ c ∈ ids

theorem typeList?_first {rec : Resolver} {ids : List NodeId} {c : NodeId} {s s' : Analysis} {e : AnalysisFailure}
    (hc : ids.head? = some c) (hrec : rec.typeExpr c s = .error e s') : typeList? rec ids s = .error e s' := by
  cases ids with
  | nil => cases hc
  | cons x rest =>
    cases hc
    exact bind_error hrec

theorem typeExprStep_first {rec : Resolver} {id c : NodeId} {n : Node} {s : Analysis} (hn : s.result.tree.get? id = some n)
    (hdone : n.completed = false) (hc : n.firstPart? = some c) (hrec : rec.typeExpr c s = .error .unbounded s) :
    typeExprStep rec id s = .error .unbounded s := by
  have h0 : id ≠ 0 := by
    rintro rfl
    cases hn
  have hnode : node id s = .ok n s := by
    rw [node_apply, hn]
    rfl
  unfold typeExprStep
  rw [if_neg h0, bind_apply hnode, if_neg (by simp [hdone])]
  unfold Node.firstPart? at hc
  split at hc
  · rename_i hk
    cases hc
    rw [hk]
    exact bind_error hrec
  · rename_i hk
    cases hc
    rw [hk]
    exact bind_error hrec
  · rename_i hk
    rw [hk]
    exact bind_error (typeList?_first hc hrec)
  · rename_i hk
    rw [hk]
    cases hlist : n.list with
    | nil =>
      rw [hlist] at hc
      cases hc
      have hparams : typeList? rec [] s = .ok (some []) s := rfl
      exact (bind_apply hparams).trans (bind_error hrec)
    | cons x rest =>
      rw [hlist] at hc
      exact bind_error (typeList?_first hc hrec)
  · cases hc

theorem typeExpr_endless {ids : List NodeId} {s : Analysis} (h : Endless s.result.tree ids) (fuel : Nat) :
    ∀ id ∈ ids, (resolver fuel).typeExpr id s = .error .unbounded s := by
  induction fuel with
  | zero => exact fun _ _ => rfl
  | succ fuel ih =>
    intro id hid
    obtain ⟨n, c, hn, hdone, hc, hmem⟩ := h id hid
    exact typeExprStep_first hn hdone hc (ih c hmem)

/-- A type expression is resolved by evaluating it. -/
theorem resolveKind_of_firstPart (rec : Resolver) (id : NodeId) {n : Node} {c : NodeId} (hc : n.firstPart? = some c) :
    resolveKind rec id n = typeExprStep rec id := by
  unfold Node.firstPart? at hc
  unfold resolveKind
  split at hc
  case h_5 => cases hc
  all_goals
    rename_i hk
    rw [hk]
    rfl

theorem resolve_endless {ids : List NodeId} {s : Analysis} (h : Endless s.result.tree ids) (fuel : Nat) {id : NodeId}
    (hid : id ∈ ids) (hnew : s.resolving.contains id = false) : ∃ s', (resolver fuel).resolve id s = .error .unbounded s' := by
  cases fuel with
  | zero => exact ⟨s, rfl⟩
  | succ fuel =>
    obtain ⟨n, c, hn, hdone, hc, hmem⟩ := h id hid
    have h0 : id ≠ 0 := by
      rintro rfl
      cases hn
    have hnode : node id s = .ok n s := by
      rw [node_apply, hn]
      rfl
    let s₁ : Analysis := { s with resolving := s.resolving.insert id () }
    have hkind : resolveKind (resolver fuel) id n s₁ = .error .unbounded s₁ := by
      rw [resolveKind_of_firstPart _ _ hc]
      exact typeExprStep_first hn hdone hc (typeExpr_endless (s := s₁) h fuel c hmem)
    refine ⟨s₁, ?_⟩
    change resolveStep (resolver fuel) id s = _
    unfold resolveStep
    rw [if_neg h0, bind_apply hnode, if_neg (by simp [hdone])]
    change (if s.resolving.contains id = true then _ else _ : AnalysisM TypeId) s = _
    rw [if_neg (by simp [hnew])]
    exact (bind_error hkind : (resolveKind (resolver fuel) id n >>= _) s₁ = _)

end Analysis

/-- For every decoded tree: the declaration pass ends, whatever node and state it is started in. Walking and copying end from
the nodes that lead to no circle, and from no others. -/
theorem Tree.decoded_traversals_end {bs : Bytes} {t : Tree} (h : Tree.decodeUnit bs = .ok t) :
    (∀ id (s s' : Analysis), Analysis.declare id s ≠ .error .unbounded s') ∧
    (∀ enter id, (¬t.MeetsCircle enter id → (t.walk enter id).isSome) ∧
      (t.MeetsCircle enter id → ∀ fuel, t.walkAux enter fuel id = none)) ∧
    ∀ id, t.Has id → (¬t.MeetsCircle (fun _ => true) id → (t.copy id).isSome) ∧
      (t.MeetsCircle (fun _ => true) id → ∀ fuel, Tree.copyAux fuel t id = none) :=
  ⟨Analysis.declare_bounded, fun _ _ => ⟨walk_isSome, walkAux_eq_none⟩, fun _ hid =>
    ⟨copy_isSome (decodeUnit_closed h) hid, copyAux_eq_none (decodeUnit_closed h) hid⟩⟩

theorem Tree.decodes_of_nodes (bs : Bytes) (nodes : Array Node)
    (h : (Tree.decodeUnit bs).toOption.map (·.nodes) = some nodes) : ∃ t, Tree.decodeUnit bs = .ok t ∧ t.nodes = nodes := by
  cases hdecode : Tree.decodeUnit bs with
  | error e =>
    rw [hdecode] at h
    cases h
  | ok t =>
    rw [hdecode] at h
    exact ⟨t, rfl, Option.some.inj h⟩

/-- Both parts of a pair are the same node. -/
def sharedPart : Tree where
  nodes := #[.typeName ["int"], .typeTuple [1, 1], .letDecl "x" 2 0, { kind := .file, list := [3] }]
  roots := [4]

theorem sharedPart_copies : ∃ t, Tree.decodeUnit sharedPart.encodeUnit = .ok t ∧ t.nodes = sharedPart.nodes ∧
    (t.walk (fun _ => true) 4).isSome ∧ (t.copy 4).isSome := by
  obtain ⟨t, hdecode, hnodes⟩ := Tree.decodes_of_nodes sharedPart.encodeUnit sharedPart.nodes (by decide +kernel)
  obtain ⟨files, nodes, roots⟩ := t
  cases hnodes
  have hshort : (Tree.walkAux { files, nodes := sharedPart.nodes, roots } (fun _ => true) 4 4).isSome := rfl
  have hends := Tree.not_meetsCircle_of_acc (Tree.acc_of_walkAux hshort)
  obtain ⟨-, hwalk, hcopy⟩ := Tree.decoded_traversals_end hdecode
  exact ⟨_, hdecode, rfl, (hwalk _ 4).1 hends, (hcopy 4 (.inr ⟨_, rfl⟩)).1 hends⟩

/-- An array type whose elements are of that type. -/
def selfElement : Tree where
  nodes := #[.typeArray 1, .letDecl "x" 1 0, { kind := .file, list := [2] }]
  roots := [3]

theorem selfElement_hangs : ∃ t, Tree.decodeUnit selfElement.encodeUnit = .ok t ∧ t.nodes = selfElement.nodes ∧
    ∀ fuel, t.walkAux (fun _ => true) fuel 1 = none ∧ Tree.copyAux fuel t 1 = none ∧ ∀ options tracer,
      let s := Analysis.initial t options tracer
      (Analysis.resolver fuel).typeExpr 1 s = .error .unbounded s ∧
      ∃ s', (Analysis.resolver fuel).resolve 1 s = .error .unbounded s' := by
  obtain ⟨t, hdecode, hnodes⟩ := Tree.decodes_of_nodes selfElement.encodeUnit selfElement.nodes (by decide +kernel)
  have hnode : t.get? 1 = some (.typeArray 1) := by
    unfold Tree.get?
    rw [hnodes]
    rfl
  have hcircle : t.MeetsCircle (fun _ => true) 1 := ⟨1, .refl, .single ⟨rfl, _, hnode, List.mem_singleton_self 1⟩⟩
  have hclosed := Tree.decodeUnit_closed hdecode
  have hendless : Analysis.Endless t [1] := by
    intro id hid
    cases List.mem_singleton.1 hid
    exact ⟨_, 1, hnode, rfl, rfl, List.mem_singleton_self 1⟩
  refine ⟨t, hdecode, hnodes, fun fuel => ⟨Tree.walkAux_eq_none hcircle fuel,
    Tree.copyAux_eq_none hclosed (.inr ⟨_, hnode⟩) hcircle fuel, fun options tracer => ⟨?_, ?_⟩⟩⟩
  · exact Analysis.typeExpr_endless hendless fuel 1 (List.mem_singleton_self 1)
  · exact Analysis.resolve_endless hendless fuel (List.mem_singleton_self 1) rfl

end TreeCompiler
