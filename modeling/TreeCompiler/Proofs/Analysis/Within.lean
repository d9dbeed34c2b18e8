import TreeCompiler.Proofs.Analysis.Coverage

/-!
# Declaring a finished tree

Analysis stops at completed nodes, so the declaration pass has nothing to change in a tree that an analysis has finished.

* `Tree.Finished V` : the nodes of `V`, which has the roots and the children of its nodes, are completed. A generic
  declaration is left alone until it is instantiated, and its children need not be in `V`;
* `Analysis.Within V t` : the tree is `t`, and the functions that the declaration pass met are in `V`; `Stays V t m` : the
  computation `m` keeps that;
* `declareKind_stays` : one node of the pass; `declarePass_stays` : the pass.
-/

namespace TreeCompiler

/-! ## Finished trees -/

/-- The type that a literal gets from the declaration pass. -/
def NodeKind.literalType? : NodeKind → Option TypeId
  | .intLit => some TypeTable.int
  | .realLit => some TypeTable.real
  | .stringLit => some TypeTable.string
  | .boolLit => some TypeTable.bool
  | _ => none

/-- A declaration whose children are not declared with it. -/
def Node.isTemplate (n : Node) : Bool :=
  n.isGeneric && match n.kind with
    | .letDecl | .typeDecl => true
    | .func => n.name ≠ ""
    | _ => false

def Tree.typeOf (t : Tree) (id : NodeId) : TypeId := ((t.get? id).map (·.valueType)).getD 0

/-- The node is completed; a literal has the type of its kind, and a parameter that of its annotation. -/
structure Node.Finished (t : Tree) (n : Node) : Prop where
  completed : n.completed = true
  literal : ∀ type ∈ n.kind.literalType?, n.valueType = type
  param : n.kind = .param → n.valueType = if n.a = 0 then TypeTable.dynamic else t.typeOf n.a

instance (t : Tree) (n : Node) : Decidable (n.Finished t) :=
  decidable_of_iff (n.completed = true ∧ (∀ type ∈ n.kind.literalType?, n.valueType = type) ∧
    (n.kind = .param → n.valueType = if n.a = 0 then TypeTable.dynamic else t.typeOf n.a))
    ⟨fun h => ⟨h.1, h.2.1, h.2.2⟩, fun h => ⟨h.completed, h.literal, h.param⟩⟩

structure Tree.Finished (V : List NodeId) (t : Tree) : Prop where
  roots : ∀ r ∈ t.roots, r ∈ V
  children : ∀ id ∈ V, ∀ n ∈ t.get? id, n.isTemplate = false → ∀ c ∈ n.children, c ∈ V
  nodes : ∀ id ∈ V, ∀ n ∈ t.get? id, n.Finished t

instance (V : List NodeId) (t : Tree) : Decidable (t.Finished V) :=
  decidable_of_iff ((∀ r ∈ t.roots, r ∈ V) ∧
    (∀ id ∈ V, ∀ n ∈ t.get? id, n.isTemplate = false → ∀ c ∈ n.children, c ∈ V) ∧ ∀ id ∈ V, ∀ n ∈ t.get? id, n.Finished t)
    ⟨fun h => ⟨h.1, h.2.1, h.2.2⟩, fun h => ⟨h.roots, h.children, h.nodes⟩⟩

theorem Node.isTemplate_of_kind {n : Node} (h : n.kind ∉ [.letDecl, .typeDecl, .func]) : n.isTemplate = false := by
  unfold isTemplate
  split <;> simp_all

/-- An edit that changes nothing at its node changes nothing. -/
theorem Tree.modify_eq_self {t : Tree} {id : NodeId} {f : Node → Node} (h : ∀ n, t.get? id = some n → f n = n) :
    t.modify id f = t := by
  unfold modify
  split
  · rfl
  · rename_i h0
    have hnodes : t.nodes.modify (id - 1) f = t.nodes := by
      refine Array.ext_getElem? fun i => ?_
      rw [Array.getElem?_modify]
      split
      · subst i
        cases hn : t.nodes[id - 1]? with
        | none => rfl
        | some n =>
          have hget : t.get? id = some n := by rw [get?, if_neg h0, hn]
          rw [Option.map_some, h n hget]
      · rfl
    rw [hnodes]

/-- The children of the node are in `V`. -/
structure Node.Inside (V : List NodeId) (n : Node) : Prop where
  slot : ∀ c, c = n.a ∨ c = n.b ∨ c = n.c ∨ c = n.d → c = 0 ∨ c ∈ V
  list : ∀ c ∈ n.list, c ∈ V

namespace Node.Inside

variable {V : List NodeId} {n : Node}

theorem a (h : n.Inside V) : n.a = 0 ∨ n.a ∈ V := h.slot _ (.inl rfl)

theorem b (h : n.Inside V) : n.b = 0 ∨ n.b ∈ V := h.slot _ (.inr (.inl rfl))

theorem c (h : n.Inside V) : n.c = 0 ∨ n.c ∈ V := h.slot _ (.inr (.inr (.inl rfl)))

theorem d (h : n.Inside V) : n.d = 0 ∨ n.d ∈ V := h.slot _ (.inr (.inr (.inr rfl)))

end Node.Inside

namespace Tree.Finished

variable {V : List NodeId} {t : Tree} {id : NodeId} {n : Node}

theorem inside (h : t.Finished V) (hid : id ∈ V) (hn : t.get? id = some n) (hplain : n.isTemplate = false) : n.Inside V := by
  have hchildren := h.children id hid n hn hplain
  refine ⟨fun c hc => ?_, fun c hc => hchildren c (List.mem_append_right _ hc)⟩
  by_cases h0 : c = 0
  · exact .inl h0
  · refine .inr (hchildren c (List.mem_append_left _ (List.mem_append_left _ (List.mem_filter.2 ⟨?_, by simpa using h0⟩))))
    simpa using hc

/-- Parameters, variants, match arms and statements are no declarations. -/
theorem inside_of_kind (h : t.Finished V) (hid : id ∈ V) (hn : t.get? id = some n)
    (hk : n.kind ∉ [.letDecl, .typeDecl, .func]) : n.Inside V := h.inside hid hn (Node.isTemplate_of_kind hk)

end Tree.Finished

/-- A function of `V` with its return statements. -/
structure FuncInfo.In (V : List NodeId) (t : Tree) (i : FuncInfo) : Prop where
  node : i.node ∈ V
  func : ∃ n, t.get? i.node = some n ∧ n.kind = .func ∧ n.isTemplate = false
  returns : ∀ r ∈ i.returns, r ∈ V ∧ ∃ n, t.get? r = some n ∧ n.kind = .returnStmt

namespace Analysis

variable {α β : Type} {V : List NodeId} {t : Tree} {s s' : Analysis}

/-! ## The declaration pass -/

/-- The tree is `t`, the functions that were met are in `V`, and there are no instances. -/
structure Within (V : List NodeId) (t : Tree) (s : Analysis) : Prop where
  tree : s.result.tree = t
  funcs : ∀ fn info, s.funcs.get? fn = some info → info.In V t
  bodies : ∀ fn ∈ s.bodies, ∃ info, s.funcs.get? fn = some info
  instances : s.instances = #[]

theorem Within.learn (hs : Within V t s) {fn : SymbolId} {info : FuncInfo} (hinfo : info.In V t) :
    Within V t { s with funcs := s.funcs.insert fn info } := by
  refine ⟨hs.tree, fun f i hi => ?_, fun f hf => ?_, hs.instances⟩
  · rw [IdMap.get?_insert] at hi
    split at hi
    · cases hi
      exact hinfo
    · exact hs.funcs f i hi
  · simp only [IdMap.get?_insert]
    split
    · exact ⟨_, rfl⟩
    · exact hs.bodies f hf

/-- When the computation succeeds, the tree is still `t`. -/
class Stays (V : List NodeId) (t : Tree) (m : AnalysisM α) : Prop where
  stays : ∀ s a s', Within V t s → m s = .ok a s' → Within V t s' ∧ s'.result.sweeps = s.result.sweeps

namespace Stays

theorem of_modifyGet {f : Analysis → α × Analysis} (h : ∀ s, Within V t s → Within V t (f s).2)
    (hsweeps : ∀ s, (f s).2.result.sweeps = s.result.sweeps) : Stays V t (modifyGet f) := by
  refine ⟨fun s a s' hs hm => ?_⟩
  cases hm
  exact ⟨h s hs, hsweeps s⟩

instance (a : α) : Stays V t (pure a : AnalysisM α) := ⟨fun _ _ _ hs h => by cases h; exact ⟨hs, rfl⟩⟩

instance : Stays V t (get : AnalysisM Analysis) := ⟨fun _ _ _ hs h => by cases h; exact ⟨hs, rfl⟩⟩

instance (e : AnalysisFailure) : Stays V t (throw e : AnalysisM α) := ⟨fun s b s' hs h => by cases h⟩

theorem seq {x : AnalysisM α} {f : α → AnalysisM β} (hx : Stays V t x) (hf : ∀ a, Stays V t (f a)) : Stays V t (x >>= f) := by
  refine ⟨fun s b s' hs h => ?_⟩
  obtain ⟨a, s₁, h₁, h₂⟩ := bind_ok h
  obtain ⟨hs₁, hsweeps₁⟩ := hx.stays s a s₁ hs h₁
  obtain ⟨hs', hsweeps'⟩ := (hf a).stays s₁ b s' hs₁ h₂
  exact ⟨hs', hsweeps'.trans hsweeps₁⟩

/-- The first part is found by instance. -/
theorem bind {x : AnalysisM α} {f : α → AnalysisM β} [hx : Stays V t x] (hf : ∀ a, Stays V t (f a)) : Stays V t (x >>= f) :=
  seq hx hf

instance {x : AnalysisM α} {f : α → AnalysisM β} [hx : Stays V t x] [hf : ∀ a, Stays V t (f a)] : Stays V t (x >>= f) :=
  seq hx hf

instance {x : AnalysisM α} {f : α → β} [hx : Stays V t x] : Stays V t (f <$> x) :=
  seq hx fun a => inferInstanceAs (Stays V t (pure (f a)))

instance {x : AnalysisM α} [hx : Stays V t x] : Stays V t (discard x) := inferInstanceAs (Stays V t ((fun _ => PUnit.unit) <$> x))

instance {c : Prop} [Decidable c] {x y : AnalysisM α} [Stays V t x] [Stays V t y] : Stays V t (if c then x else y) := by
  split <;> infer_instance

theorem ite {c : Prop} [Decidable c] {x y : AnalysisM α} (hx : c → Stays V t x) (hy : ¬c → Stays V t y) :
    Stays V t (if c then x else y) := by
  split
  · exact hx ‹_›
  · exact hy ‹_›

theorem get_bind {f : Analysis → AnalysisM β} (h : ∀ s, Within V t s → Stays V t (f s)) : Stays V t (get >>= f) :=
  ⟨fun s b s' hs hm => (h s hs).stays s b s' hs hm⟩

theorem node_bind {id : NodeId} {f : Node → AnalysisM β} (h : ∀ n, t.get? id = some n → Stays V t (f n)) :
    Stays V t (node id >>= f) := by
  refine ⟨fun s b s' hs hm => ?_⟩
  obtain ⟨n, s₁, h₁, h₂⟩ := bind_ok hm
  obtain ⟨rfl, hn⟩ := node_ok h₁
  exact (h n (hs.tree ▸ hn)).stays _ b s' hs h₂

theorem forM {f : α → AnalysisM PUnit} (l : List α) (h : ∀ a ∈ l, Stays V t (f a)) : Stays V t (l.forM f) := by
  induction l with
  | nil => exact inferInstanceAs (Stays V t (pure _))
  | cons a l ih => exact seq (h a (List.mem_cons_self ..)) fun _ => ih fun b hb => h b (List.mem_cons_of_mem a hb)

theorem forIn {f : α → β → AnalysisM (ForInStep β)} (l : List α) (b : β) (h : ∀ a ∈ l, ∀ b, Stays V t (f a b)) :
    Stays V t (forIn l b f) := by
  induction l generalizing b with
  | nil => exact inferInstanceAs (Stays V t (pure _))
  | cons a l ih =>
    rw [List.forIn_cons]
    refine seq (h a (List.mem_cons_self ..) b) fun r => ?_
    cases r
    · exact inferInstanceAs (Stays V t (pure _))
    · exact ih _ fun c hc => h c (List.mem_cons_of_mem a hc)

/-! ### Primitive steps -/

theorem note {f : Analysis → Analysis} (h : ∀ s, (f s).result.tree = s.result.tree ∧ (f s).result.sweeps = s.result.sweeps ∧
    (f s).funcs = s.funcs ∧ (f s).bodies = s.bodies ∧ (f s).instances = s.instances) : Stays V t (modify f) := by
  refine of_modifyGet (fun s hs => ?_) fun s => (h s).2.1
  obtain ⟨htree, -, hfuncs, hbodies, hinstances⟩ := h s
  exact ⟨htree.trans hs.tree, fun fn info hi => hs.funcs fn info (hfuncs ▸ hi),
    fun fn hf => hfuncs.symm ▸ hs.bodies fn (hbodies ▸ hf), hinstances.trans hs.instances⟩

theorem noteResult {f : AnalysisResult → AnalysisResult} (h : ∀ r, (f r).tree = r.tree ∧ (f r).sweeps = r.sweeps) :
    Stays V t (modifyResult f) := note fun s => ⟨(h s.result).1, (h s.result).2, rfl, rfl, rfl⟩

instance (f : ScopeTable → ScopeTable) : Stays V t (modifyScopes f) := noteResult fun _ => ⟨rfl, rfl⟩

instance (f : ScopeTable → α × ScopeTable) : Stays V t (withScopes f) :=
  of_modifyGet (fun _ hs => ⟨hs.tree, hs.funcs, hs.bodies, hs.instances⟩) fun _ => rfl

instance : Stays V t tree := by unfold tree; infer_instance

instance : Stays V t types := by unfold types; infer_instance

instance : Stays V t scopes := by unfold scopes; infer_instance

instance (id : NodeId) (cause : InternalCause) : Stays V t (internal id cause : AnalysisM α) := by unfold internal; infer_instance

instance (id : NodeId) : Stays V t (node id) := by
  unfold node
  refine bind fun t => ?_
  split <;> infer_instance

instance (id : SymbolId) : Stays V t (symbol id) := by
  unfold symbol
  refine bind fun t => ?_
  split <;> infer_instance

instance (id : ScopeId) : Stays V t (scopeInfo id) := by
  unfold scopeInfo
  refine bind fun t => ?_
  split <;> infer_instance

instance (id : NodeId) : Stays V t (spanOf id) := by unfold spanOf; infer_instance

instance (id : NodeId) : Stays V t (seqOf id) := by unfold seqOf; infer_instance

instance (type : TypeId) : Stays V t (isResolved type) := by unfold isResolved; infer_instance

instance (text : String) : Stays V t (internName text) := by unfold internName; infer_instance

instance (id : NodeId) (scope : ScopeId) : Stays V t (setScope id scope) := note fun _ => ⟨rfl, rfl, rfl, rfl, rfl⟩

instance (p : Problem) (span : Span) (notes : List Note) : Stays V t (reportWith p span notes) :=
  note fun _ => ⟨rfl, rfl, rfl, rfl, rfl⟩

instance (p : Problem) (span : Span) : Stays V t (report p span) := by unfold report; infer_instance

/-- An edit that has been made before. -/
theorem modifyNode {id : NodeId} {f : Node → Node} (h : ∀ n, t.get? id = some n → f n = n) : Stays V t (modifyNode id f) := by
  refine of_modifyGet (fun s hs => ⟨?_, hs.funcs, hs.bodies, hs.instances⟩) fun _ => rfl
  change s.result.tree.modify id f = t
  rw [hs.tree]
  exact Tree.modify_eq_self h

theorem finish {id : NodeId} {type : TypeId} (h : ∀ n, t.get? id = some n → n.completed = true ∧ n.valueType = type) :
    Stays V t (finish id type) := by
  have hset : Stays V t (Analysis.modifyNode id fun n => { n with valueType := type, completed := true }) := by
    refine modifyNode fun n hn => ?_
    obtain ⟨hdone, rfl⟩ := h n hn
    rw [← hdone]
  have hkeep : Stays V t (Analysis.modifyNode id fun n => { n with valueType := type }) := by
    refine modifyNode fun n hn => ?_
    obtain ⟨-, rfl⟩ := h n hn
    rfl
  have hprogress : Stays V t (modify fun s : Analysis => { s with progress := true }) :=
    note fun _ => ⟨rfl, rfl, rfl, rfl, rfl⟩
  have hpending : Stays V t (modify fun s : Analysis => { s with pending := s.pending + 1 }) :=
    note fun _ => ⟨rfl, rfl, rfl, rfl, rfl⟩
  unfold Analysis.finish
  infer_instance

/-! ### Parts of the pass -/

theorem withScope {step : AnalysisM Unit} (h : Stays V t step) (scope : ScopeId) : Stays V t (withScope scope step) := by
  have (scope : ScopeId) : Stays V t (modify fun s : Analysis => { s with scope }) := note fun _ => ⟨rfl, rfl, rfl, rfl, rfl⟩
  unfold Analysis.withScope
  infer_instance

instance (scope : ScopeId) (step : AnalysisM Unit) [h : Stays V t step] : Stays V t (Analysis.withScope scope step) :=
  withScope h scope

theorem inBlock {step : AnalysisM Unit} (h : Stays V t step) (id : NodeId) : Stays V t (inBlock id step) := by
  unfold Analysis.inBlock
  infer_instance

theorem inLoop {step : AnalysisM Unit} (h : Stays V t step) (label : String) : Stays V t (inLoop label step) := by
  unfold Analysis.inLoop
  exact seq (note fun _ => ⟨rfl, rfl, rfl, rfl, rfl⟩) fun _ => bind fun _ => note fun _ => ⟨rfl, rfl, rfl, rfl, rfl⟩

theorem outsideLoops {step : AnalysisM Unit} (h : Stays V t step) : Stays V t (outsideLoops step) := by
  have (loops : List String) : Stays V t (modify fun s : Analysis => { s with loops }) := note fun _ => ⟨rfl, rfl, rfl, rfl, rfl⟩
  unfold Analysis.outsideLoops
  infer_instance

instance (name : String) (span : Span) (prev : SymbolId) : Stays V t (reportRedeclared name span prev) := by
  unfold reportRedeclared; infer_instance

instance (static : Bool) : Stays V t (newStorage static) := by
  unfold newStorage
  refine bind fun s => ?_
  split <;> infer_instance

instance : Stays V t inFunction := by unfold inFunction; infer_instance

instance (scope : ScopeId) (sym : Symbol) : Stays V t (bindIn scope sym) := by
  unfold bindIn
  refine bind fun tab => ?_
  split <;> infer_instance

instance (sym : Symbol) : Stays V t (bindSymbol sym) := by unfold bindSymbol; infer_instance

instance (id : NodeId) (sym : SymbolId) : Stays V t (setDecl id sym) := noteResult fun _ => ⟨rfl, rfl⟩

instance (owner : NodeId) (name : String) : Stays V t (declareLocal owner name) := by
  unfold declareLocal
  refine bind fun _ => bind fun _ => bind fun _ => bind fun _ => ?_
  dsimp only
  split <;> refine bind fun _ => bind fun r => ?_
  all_goals split <;> infer_instance

instance (n : Node) : Stays V t (loadNative n) := by
  unfold loadNative
  refine bind fun s => ?_
  split
  · infer_instance
  · infer_instance
  · split <;> infer_instance

instance (n : Node) : Stays V t (checkLoopControl n) := by unfold checkLoopControl; infer_instance

instance (n : Node) : Stays V t (declareImport n) := by unfold declareImport; infer_instance

end Stays

/-! ### Nodes -/

section Nodes

variable {self : NodeId → AnalysisM Unit} (hf : t.Finished V) (ht : t.Formed)
  (hself : ∀ c, c = 0 ∨ c ∈ V → Stays V t (self c))

include hself in
theorem declareList_stays {l : List NodeId} (hl : ∀ c ∈ l, c ∈ V) : Stays V t (l.forM self) :=
  .forM l fun c hc => hself c (.inr (hl c hc))

include hself in
theorem declareNested_stays {c : NodeId} (hc : c = 0 ∨ c ∈ V) : Stays V t (declareNested self c) := by
  have := hself c hc
  have := Stays.inBlock this c
  unfold declareNested
  infer_instance

include hf hself in
theorem declareParam_stays {fs i : Nat} {p : NodeId} {pn : Node} (hp : p ∈ V) (hn : t.get? p = some pn)
    (hk : pn.kind = .param) : Stays V t (declareParam self fs p i) := by
  have := hself pn.a (hf.inside_of_kind hp hn (by rw [hk]; decide)).a
  unfold declareParam
  refine .node_bind fun n hn' => ?_
  cases hn.symm.trans hn'
  refine .bind fun _ => .bind fun _ => .bind fun name => .bind fun seq => .bind fun r => ?_
  split <;> infer_instance

include hf ht hself in
theorem declareFuncBody_stays {id : NodeId} {n : Node} (fn : SymbolId) (hid : id ∈ V) (hn : t.get? id = some n)
    (hk : n.kind = .func) (hplain : n.isTemplate = false) : Stays V t (declareFuncBody self id fn) := by
  have hin := hf.inside hid hn hplain
  have enter : Stays V t (modify fun s => { s with funcs := s.funcs.insert fn { node := id }, bodies := s.bodies.push fn }) := by
    refine .of_modifyGet (fun s hs => ?_) fun _ => rfl
    have hlearn : Within V t { s with funcs := s.funcs.insert fn { node := id } } :=
      hs.learn ⟨hid, ⟨n, hn, hk, hplain⟩, List.forall_mem_nil _⟩
    refine ⟨hs.tree, hlearn.funcs, fun f hmem => ?_, hs.instances⟩
    rcases Array.mem_push.1 hmem with hmem | rfl
    · exact hlearn.bodies f hmem
    · exact ⟨_, (IdMap.get?_insert ..).trans (if_pos rfl)⟩
  have hparams (fs : ScopeId) : Stays V t (forIn n.list.zipIdx PUnit.unit fun x _ => do
      declareParam self fs x.1 x.2
      pure (ForInStep.yield PUnit.unit)) := by
    refine .forIn _ _ fun x hx _ => ?_
    have hmem : x.1 ∈ n.list := List.fst_mem_of_mem_zipIdx hx
    obtain ⟨pn, hpn, hpk⟩ := (ht.get hn).has_part (k := .param) (by rw [hk]; rfl) hmem
    have : Stays V t (declareParam self fs x.1 x.2) := declareParam_stays hf hself (hin.list x.1 hmem) hpn hpk
    infer_instance
  have hbody (fs : ScopeId) : Stays V t (do
      if n.b ≠ 0 then
        let body ← node n.b
        setScope n.b fs
        if body.kind = .block then body.list.forM self else self n.b) := by
    refine .ite (fun h0 => .node_bind fun bn hb => .bind fun _ => .ite (fun hblock => ?_) fun _ => ?_) fun _ => inferInstance
    · exact declareList_stays hself (hf.inside_of_kind (hin.b.resolve_left h0) hb (by rw [hblock]; decide)).list
    · exact hself n.b hin.b
  have := hself n.a hin.a
  have := hself n.c hin.c
  unfold declareFuncBody
  refine .node_bind fun n' hn' => ?_
  cases hn.symm.trans hn'
  refine .bind fun s => .bind fun fs => .bind fun _ => .bind fun _ => ?_
  exact .outsideLoops (.withScope (.seq (hparams fs) fun _ => .bind fun _ => .bind fun _ => hbody fs) fs)

include hself in
/-- The name of a variable is bound, and its children are declared unless it is generic. -/
theorem enterLet_stays {id : NodeId} {n : Node} (hin : n.isGeneric = false → n.Inside V) (sym : Symbol) : Stays V t (do
    match ← bindSymbol sym with
    | .error prev => reportRedeclared n.name n.span prev
    | .ok symId => do
      setDecl id symId
      if n.isGeneric then return
      if (Attrs.ofFlags n.flags).has .static && (← inFunction) then
        modifyResult fun r => { r with statics := r.statics ++ [{ symbol := symId, init := n.b }] }
      self n.a
      self n.b) := by
  have hstatic (sym : SymbolId) : Stays V t (modifyResult fun r =>
      { r with statics := r.statics ++ [{ symbol := sym, init := n.b }] }) := .noteResult fun _ => ⟨rfl, rfl⟩
  refine .bind fun r => ?_
  split
  · infer_instance
  · refine .bind fun _ => .ite (fun _ => inferInstance) fun hgen => ?_
    have hin := hin (Bool.eq_false_iff.2 hgen)
    have := hself n.a hin.a
    have := hself n.b hin.b
    infer_instance

include hself in
theorem declareLet_stays {id : NodeId} {n : Node} (hin : n.isGeneric = false → n.Inside V) :
    Stays V t (declareLet self id n) := by
  have enter := @enterLet_stays V t self hself id n hin
  unfold declareLet
  refine .bind fun name => .ite (fun _ => enter _) fun _ => .bind fun storage => .bind fun inside => ?_
  exact .ite (fun _ => .bind fun seq => enter _) fun _ => .bind fun seq => enter _

include hf ht hself in
/-- A candidate is entered in the scope, and its body is declared unless it is a template. -/
theorem enterCandidate_stays {id : NodeId} {n : Node} (hid : id ∈ V) (hn : t.get? id = some n) (hk : n.kind = .func)
    (sym : Symbol) : Stays V t (do
      let s ← get
      match s.result.scopes.declareCandidate s.scope sym with
      | .error prev => reportRedeclared n.name n.span prev
      | .ok (symId, scopes) =>
        modifyResult fun r => { r with scopes, funcs := r.funcs.insert id symId }
        if !n.isGeneric then declareFuncBody self id symId) := by
  refine .bind fun s => ?_
  split
  · infer_instance
  · refine .seq (.noteResult fun _ => ⟨rfl, rfl⟩) fun _ => .ite (fun hgen => ?_) fun _ => inferInstance
    have hplain : n.isGeneric = false := by simpa using hgen
    exact declareFuncBody_stays hf ht hself _ hid hn hk (by simp [Node.isTemplate, hplain])

include hf ht hself in
theorem declareFunc_stays {id : NodeId} {n : Node} (hid : id ∈ V) (hn : t.get? id = some n) (hk : n.kind = .func) :
    Stays V t (declareFunc self id n) := by
  have enter := enterCandidate_stays hf ht hself hid hn hk
  unfold declareFunc
  refine .bind fun name => .ite (fun _ => .bind fun handle => enter _) fun _ => .bind fun handle => enter _

include hf ht hself in
theorem declareLiteral_stays {id : NodeId} {n : Node} (hid : id ∈ V) (hn : t.get? id = some n) (hk : n.kind = .func)
    (hname : n.name = "") : Stays V t (declareLiteral self id n) := by
  have hplain : n.isTemplate = false := by simp [Node.isTemplate, hk, hname]
  unfold declareLiteral
  refine .bind fun _ => .bind fun _ => .bind fun fn => .seq (.noteResult fun _ => ⟨rfl, rfl⟩) fun _ => ?_
  exact declareFuncBody_stays hf ht hself fn hid hn hk hplain

include hf hself in
theorem declareReturn_stays {id : NodeId} {n : Node} (hid : id ∈ V) (hn : t.get? id = some n) (hk : n.kind = .returnStmt) :
    Stays V t (declareReturn self id n) := by
  have hvalue := hself n.a (hf.inside_of_kind hid hn (by rw [hk]; decide)).a
  have record (fn : SymbolId) (info : FuncInfo) (hinfo : info.In V t) : Stays V t (modify fun s =>
      { s with funcs := s.funcs.insert fn { info with returns := info.returns ++ [id] } }) := by
    refine .of_modifyGet (fun s hs => hs.learn ⟨hinfo.node, hinfo.func, fun r hr => ?_⟩) fun _ => rfl
    rcases List.mem_append.1 hr with hr | hr
    · exact hinfo.returns r hr
    · obtain rfl := List.mem_singleton.1 hr
      exact ⟨hid, n, hn, hk⟩
  unfold declareReturn
  refine .get_bind fun s hs => .ite (fun _ => inferInstance) fun _ => .bind fun sc => ?_
  dsimp only
  split
  · exact .seq (record _ _ (hs.funcs _ _ ‹_›)) fun _ => hvalue
  · exact hvalue

include hself in
theorem declareTypeDecl_stays {id : NodeId} {n : Node} (hin : n.isGeneric = false → n.Inside V) :
    Stays V t (declareTypeDecl self id n) := by
  unfold declareTypeDecl
  refine .bind fun _ => .bind fun r => ?_
  split
  · infer_instance
  · refine .bind fun _ => .ite (fun hgen => ?_) fun _ => inferInstance
    exact hself n.a (hin (by simpa using hgen)).a

include hf ht hself in
theorem declareUnion_stays {id : NodeId} {n : Node} (hid : id ∈ V) (hn : t.get? id = some n) (hk : n.kind = .unionDecl) :
    Stays V t (declareUnion self id n) := by
  have hin := hf.inside_of_kind hid hn (by rw [hk]; decide)
  have hvariant (union : SymbolId) (ns : ScopeId) (attrs : Attrs) (v : NodeId) (hv : v ∈ n.list) (tag : Nat) :
      Stays V t (declareVariant self union ns attrs v tag) := by
    obtain ⟨vn, hvn, hvk⟩ := (ht.get hn).has_part (k := .variant) (by rw [hk]; rfl) hv
    have := hself vn.a (hf.inside_of_kind (hin.list v hv) hvn (by rw [hvk]; decide)).a
    unfold declareVariant
    refine .node_bind fun n' hn' => ?_
    cases hvn.symm.trans hn'
    refine .bind fun _ => .bind fun _ => .bind fun _ => .bind fun _ => .bind fun tab => ?_
    split <;> infer_instance
  unfold declareUnion
  refine .bind fun _ => .bind fun r => ?_
  split
  · infer_instance
  · rename_i union
    refine .bind fun _ => .bind fun s => .bind fun ns => .seq (.forIn _ _ fun x hx _ => ?_) fun _ => inferInstance
    have := hvariant union ns (Attrs.ofFlags n.flags) x.1 (List.fst_mem_of_mem_zipIdx hx) x.2
    infer_instance

include hf ht hself in
theorem declareMatch_stays {id : NodeId} {n : Node} (hid : id ∈ V) (hn : t.get? id = some n) (hk : n.kind = .matchStmt) :
    Stays V t (declareMatch self id n) := by
  have hin := hf.inside_of_kind hid hn (by rw [hk]; decide)
  have harm (c : NodeId) (hc : c ∈ n.list) : Stays V t (declareArm self c) := by
    obtain ⟨cn, hcn, hck⟩ := (ht.get hn).has_part (k := .matchArm) (by rw [hk]; rfl) hc
    have := declareNested_stays hself (hf.inside_of_kind (hin.list c hc) hcn (by rw [hck]; decide)).a
    unfold declareArm
    refine .node_bind fun n' hn' => ?_
    cases hcn.symm.trans hn'
    refine .bind fun _ => .bind fun _ => .seq (.inBlock inferInstance c) fun _ => inferInstance
  have := hself n.a hin.a
  unfold declareMatch
  refine .bind fun _ => .seq (.forIn _ _ fun c hc _ => ?_) fun _ => inferInstance
  have := harm c hc
  exact .bind fun _ => .seq (.note fun _ => ⟨rfl, rfl, rfl, rfl, rfl⟩) fun _ => inferInstance

include hself in
theorem declareFor_stays {id : NodeId} {n : Node} (hin : n.Inside V) : Stays V t (declareFor self id n) := by
  have := hself n.a hin.a
  have := hself n.b hin.b
  have := hself n.c hin.c
  have := Stays.inLoop (declareNested_stays hself hin.d) n.label
  unfold declareFor
  exact .seq (.inBlock inferInstance id) fun _ => inferInstance

include hself in
theorem declareForeach_stays {id : NodeId} {n : Node} (hin : n.Inside V) : Stays V t (declareForeach self id n) := by
  have := hself n.a hin.a
  have := Stays.inLoop (declareNested_stays hself hin.b) n.label
  have (key : SymbolId) : Stays V t (modifyResult fun r => { r with keys := r.keys.insert id key }) := .noteResult fun _ => ⟨rfl, rfl⟩
  unfold declareForeach
  exact .bind fun _ => .seq (.inBlock inferInstance id) fun _ => inferInstance

include hself in
theorem declareBlock_stays {id : NodeId} {n : Node} (hin : n.Inside V) : Stays V t (declareBlock self id n) := by
  unfold declareBlock
  exact .seq (.inBlock (declareList_stays hself hin.list) id) fun _ => .note fun _ => ⟨rfl, rfl, rfl, rfl, rfl⟩

include hself in
theorem declareNamespace_stays {n : Node} (hin : n.Inside V) : Stays V t (declareNamespace self n) := by
  have := declareList_stays hself hin.list
  unfold declareNamespace
  infer_instance

include hf ht hself in
theorem declareKind_stays {id : NodeId} {n : Node} (hid : id ∈ V) (hn : t.get? id = some n) : Stays V t (declareKind self id n) := by
  have hin (hplain : n.isTemplate = false) : n.Inside V := hf.inside hid hn hplain
  have hkind (hk : n.kind ∉ [.letDecl, .typeDecl, .func]) : n.Inside V := hin (Node.isTemplate_of_kind hk)
  have hgeneric (hgen : n.isGeneric = false) : n.Inside V := hin (by simp [Node.isTemplate, hgen])
  have hliteral (type : TypeId) (hk : n.kind.literalType? = some type) : Stays V t (discard <| finish id type) := by
    have hdone := hf.nodes id hid n hn
    have := @Stays.finish V t id type fun m hm => by
      cases hn.symm.trans hm
      exact ⟨hdone.completed, hdone.literal type hk⟩
    infer_instance
  unfold declareKind
  split
  case h_1 hk => exact declareList_stays hself (hkind (by rw [hk]; decide)).list
  case h_2 hk => exact declareNamespace_stays hself (hkind (by rw [hk]; decide))
  case h_3 => infer_instance
  case h_4 hk => exact declareBlock_stays hself (hkind (by rw [hk]; decide))
  case h_5 => exact declareLet_stays hself hgeneric
  case h_6 hk =>
    exact .ite (declareLiteral_stays hf ht hself hid hn hk) fun _ => declareFunc_stays hf ht hself hid hn hk
  case h_7 => exact declareTypeDecl_stays hself hgeneric
  case h_8 hk => exact declareUnion_stays hf ht hself hid hn hk
  case h_9 hk =>
    have hin := hkind (by rw [hk]; decide)
    have := hself n.a hin.a
    have := declareNested_stays hself hin.b
    have := declareNested_stays hself hin.c
    infer_instance
  case h_10 hk =>
    have hin := hkind (by rw [hk]; decide)
    have := hself n.a hin.a
    have := Stays.inLoop (declareNested_stays hself hin.b) n.label
    infer_instance
  case h_11 hk => exact declareFor_stays hself (hkind (by rw [hk]; decide))
  case h_12 hk => exact declareForeach_stays hself (hkind (by rw [hk]; decide))
  case h_13 hk => exact declareMatch_stays hf ht hself hid hn hk
  case h_14 => infer_instance
  case h_15 => infer_instance
  case h_16 hk => exact declareReturn_stays hf hself hid hn hk
  case h_17 hk => exact hliteral _ (by rw [hk]; rfl)
  case h_18 hk => exact hliteral _ (by rw [hk]; rfl)
  case h_19 hk => exact hliteral _ (by rw [hk]; rfl)
  case h_20 hk => exact hliteral _ (by rw [hk]; rfl)
  case h_21 =>
    refine declareList_stays hself (hf.children id hid n hn (Node.isTemplate_of_kind ?_))
    simp_all

include hf ht hself in
theorem declareStep_stays {id : NodeId} (hid : id = 0 ∨ id ∈ V) : Stays V t (declareStep self id) := by
  unfold declareStep
  refine .bind fun s => .ite (fun _ => inferInstance) fun hskip => .node_bind fun n hn => ?_
  have h0 : id ≠ 0 := by
    rintro rfl
    exact hskip rfl
  have := declareKind_stays hf ht hself (hid.resolve_left h0) hn
  refine .seq (.note fun _ => ⟨rfl, rfl, rfl, rfl, rfl⟩) fun _ => .bind fun _ => .bind fun _ => .bind fun _ => ?_
  exact .note fun _ => ⟨rfl, rfl, rfl, rfl, rfl⟩

end Nodes

theorem declareWith_stays (hf : t.Finished V) (ht : t.Formed) (fuel : Nat) :
    ∀ id, id = 0 ∨ id ∈ V → Stays V t (declareWith fuel id) := by
  induction fuel with
  | zero => exact fun _ _ => inferInstanceAs (Stays V t (throw _))
  | succ fuel ih => exact fun id hid => declareStep_stays hf ht ih hid

theorem traced_stays (name : String) (parent : Nat) (extra : Analysis → List (String × String)) {step : Nat → AnalysisM Unit}
    (h : ∀ span, Stays V t (step span)) : Stays V t (traced name parent extra step) := by
  unfold traced
  refine .seq (.of_modifyGet (fun s hs => ?_) fun _ => rfl) fun span => .seq (h _) fun _ => .note fun _ => ⟨rfl, rfl, rfl, rfl, rfl⟩
  exact ⟨hs.tree, hs.funcs, hs.bodies, hs.instances⟩

/-- The declaration pass changes no node of a finished tree. -/
theorem declarePass_stays (hf : t.Finished V) (ht : t.Formed) : Stays V t declarePass := by
  have hdeclare (id : NodeId) (hid : id ∈ V) : Stays V t (declare id) := by
    unfold declare
    exact .bind fun tree => declareWith_stays hf ht _ id (.inr hid)
  refine traced_stays _ _ _ fun _ => ⟨fun s u s' hs hm => ?_⟩
  obtain ⟨tree, s₁, h₁, h₂⟩ := bind_ok hm
  cases h₁
  rw [hs.tree] at h₂
  exact (Stays.forM t.roots fun r hr => hdeclare r (hf.roots r hr)).stays s u s' hs h₂

end Analysis

end TreeCompiler
