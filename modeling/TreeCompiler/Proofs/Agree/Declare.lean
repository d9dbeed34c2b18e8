import TreeCompiler.Proofs.Agree.State

/-!
# Two runs in step: the declaration pass

Names are entered under their normal form, so two spellings of a declaration bind one name.

* `Agree.bindNew`, `Agree.declareAs` : a new symbol, and a local variable under two spellings of its name;
* `declareKind_agree` : one node of the pass, declared in two spellings;
* `instance : Agree g F (declare id) (declare id)` : the pass.
-/

namespace TreeCompiler.Analysis

variable {g : Pace} {F : List NodeId}

namespace Agree

/-! ## Scopes -/

theorem inScope {step step' : AnalysisM Unit} (h : Agree g F step step') (scope : ScopeId) :
    Agree g F (withScope scope step) (withScope scope step') := by
  have henter (scope : ScopeId) : Agree g F (modify fun s => { s with scope }) (modify fun s => { s with scope }) :=
    note (fun _ _ => rfl) fun _ => ⟨rfl, rfl, rfl, rfl, rfl, rfl⟩
  unfold withScope
  infer_instance

instance (scope : ScopeId) (step step' : AnalysisM Unit) [h : Agree g F step step'] :
    Agree g F (withScope scope step) (withScope scope step') := inScope h scope

instance (s : Scope) : Agree g F (withScopes (·.addScope s)) (withScopes (·.addScope s)) :=
  stepScopes (fun t => t.sameInstances_addScope s) fun _ _ ht => ht.addScope (g.spellsScope_refl s)

instance : Agree g F (withScopes (·.allocGlobal)) (withScopes (·.allocGlobal)) :=
  stepScopes (fun t => t.sameInstances_allocGlobal) fun _ _ ht => ht.allocGlobal

theorem openNamespace (parent : ScopeId) {x y : String} (hx : g.Same x y) (span : Span) :
    Agree g F (withScopes (·.openNamespace parent x span)) (withScopes (·.openNamespace parent y span)) :=
  stepScopes (fun t => t.sameInstances_openNamespace parent x span) fun _ _ ht => ht.openNamespace parent hx span

instance (id : NodeId) (step step' : AnalysisM Unit) [Agree g F step step'] :
    Agree g F (inBlock id step) (inBlock id step') := by
  have henter (block : ScopeId) : Agree g F (modifyScopes (·.enterBlock block)) (modifyScopes (·.enterBlock block)) :=
    changeScopes (fun t => t.sameInstances_enterBlock block) fun _ _ ht => ht.enterBlock block
  have hleave (block : ScopeId) : Agree g F (modifyScopes (·.leaveBlock block)) (modifyScopes (·.leaveBlock block)) :=
    changeScopes (fun t => t.sameInstances_leaveBlock block) fun _ _ ht => ht.leaveBlock block
  unfold inBlock
  infer_instance

instance (label : String) (step step' : AnalysisM Unit) [Agree g F step step'] :
    Agree g F (inLoop label step) (inLoop label step') := by
  unfold inLoop
  refine seq (note (fun _ _ => rfl) fun _ => ⟨rfl, rfl, rfl, rfl, rfl, rfl⟩) fun _ => bind fun _ => ?_
  exact note (fun _ _ => rfl) fun _ => ⟨rfl, rfl, rfl, rfl, rfl, rfl⟩

theorem outside {step step' : AnalysisM Unit} (h : Agree g F step step') :
    Agree g F (outsideLoops step) (outsideLoops step') := by
  have hset (loops : List String) : Agree g F (modify fun s => { s with loops }) (modify fun s => { s with loops }) :=
    note (fun _ _ => rfl) fun _ => ⟨rfl, rfl, rfl, rfl, rfl, rfl⟩
  unfold outsideLoops
  infer_instance

instance (step step' : AnalysisM Unit) [h : Agree g F step step'] : Agree g F (outsideLoops step) (outsideLoops step') :=
  outside h

instance : Agree g F inFunction inFunction := by
  unfold inFunction
  refine ⟨fun s v => .table_bind fun t ht => ?_⟩
  dsimp only
  rw [ht.funcScope]
  exact .inst

/-! ## Symbols -/

/-- The wording of the report names the declaration as it is spelled. -/
instance (x y : String) (span : Span) (prev : SymbolId) :
    Agree g F (reportRedeclared x span prev) (reportRedeclared y span prev) := by
  unfold reportRedeclared
  exact bind fun p => reportWithAs (by rfl) span _ _

instance (static : Bool) : Agree g F (newStorage static) (newStorage static) := by
  unfold newStorage
  refine ⟨fun s v => .table_bind fun t ht => ?_⟩
  dsimp only
  cases static with
  | true =>
    simp only [if_true]
    exact .inst
  | false =>
    obtain ⟨hu, hu'⟩ | ⟨storage, u, u', hu, hu', hrel⟩ := ht.allocLocal? s.scope
    · simp only [Bool.false_eq_true, if_false, hu, hu']
      exact .inst
    · simp only [Bool.false_eq_true, if_false, hu, hu']
      exact .bind (.setScopes (ScopeTable.sameInstances_allocLocal? hu) fun _ => hrel) fun _ _ _ _ => .inst

/-- A symbol that has no instances is bound. -/
theorem bindNew (scope : ScopeId) {sym : Symbol} (hsym : sym.instances = []) :
    Agree g F (bindIn scope sym) (bindIn scope sym) := by
  unfold bindIn
  refine ⟨fun s v => .scopes_bind fun t ht => ?_⟩
  obtain ⟨e, he, he'⟩ | ⟨id, u, u', hu, hu', hrel⟩ := ht.declare scope sym
  · rw [he, he']
    exact .inst
  · rw [hu, hu']
    exact .bind (.setScopes (ScopeTable.sameInstances_declare hsym hu) fun _ => hrel) fun _ _ _ _ => .inst

theorem bindNewHere {sym : Symbol} (hsym : sym.instances = []) : Agree g F (bindSymbol sym) (bindSymbol sym) := by
  have := fun scope => bindNew (g := g) (F := F) scope hsym
  unfold bindSymbol
  infer_instance

instance (id : NodeId) (sym : SymbolId) : Agree g F (setDecl id sym) (setDecl id sym) := noteResult fun _ _ _ => rfl

theorem declareAs (owner : NodeId) {x y : String} (hx : g.Same x y) :
    Agree g F (declareLocal owner x) (declareLocal owner y) := by
  unfold declareLocal
  refine seq (internAs hx) fun name => bind fun span => bind fun storage => bind fun within => ?_
  dsimp only
  have hrest (seq : Nat) :
      Agree g F (bindSymbol { name, kind := .var, decl := owner, span, type := TypeTable.pending, storage, seq })
      (bindSymbol { name, kind := .var, decl := owner, span, type := TypeTable.pending, storage, seq }) := bindNewHere rfl
  split
  all_goals
    refine bind fun n => bind fun r => ?_
    split <;> infer_instance

/-! ## Nodes -/

section Nodes

variable {self : NodeId → AnalysisM Unit} [hself : ∀ (F : List NodeId) (c : NodeId), Agree g F (self c) (self c)]

instance (id : NodeId) : Agree g F (declareNested self id) (declareNested self id) := by
  unfold declareNested
  refine ite inferInstance (tree_bind fun t t' ht => ?_)
  rw [ht.kind]
  infer_instance

instance (fs : ScopeId) (p : NodeId) (i : Nat) : Agree g F (declareParam self fs p i) (declareParam self fs p i) := by
  unfold declareParam
  refine node_bind fun n w hs => bind fun _ => bind fun _ => seq (internAs hs.name) fun name => bind fun at_ => ?_
  refine seq (bindNew fs rfl) fun r => ?_
  split <;> infer_instance

instance (id : NodeId) (fn : SymbolId) : Agree g F (declareFuncBody self id fn) (declareFuncBody self id fn) := by
  have hbody (fs : ScopeId) : Agree g F (modifyScopes (·.modifySymbol fn fun s => { s with body := fs }))
      (modifyScopes (·.modifySymbol fn fun s => { s with body := fs })) := changeSymbol fn fun _ => rfl
  have hknown :
      Agree g F (modify fun s => { s with funcs := s.funcs.insert fn { node := id }, bodies := s.bodies.push fn })
      (modify fun s => { s with funcs := s.funcs.insert fn { node := id }, bodies := s.bodies.push fn }) :=
    note (fun _ _ => rfl) fun _ => ⟨rfl, rfl, rfl, rfl, rfl, rfl⟩
  unfold declareFuncBody
  refine node_bind fun n w hs => ?_
  simp only [Dialect.empty_iff hs.name]
  have hinside (fs : ScopeId) : Agree g F (do
      for x in n.list.zipIdx do declareParam self fs x.1 x.2
      self n.a
      self n.c
      if n.b ≠ 0 then
        let body ← node n.b
        setScope n.b fs
        if body.kind = .block then body.list.forM self else self n.b) (do
      for x in n.list.zipIdx do declareParam self fs x.1 x.2
      self n.a
      self n.c
      if n.b ≠ 0 then
        let body ← node n.b
        setScope n.b fs
        if body.kind = .block then body.list.forM self else self n.b) := by
    refine seq (forIn _ _ fun x _ _ => inferInstance) fun _ => bind fun _ => bind fun _ => ite ?_ inferInstance
    exact node_bind fun body w _ => inferInstance
  have hrest (fs : ScopeId) := (hinside fs).inScope fs |>.outside
  exact ⟨fun s v => .get_bind (.seq fun fs _ _ _ => .seq fun _ _ _ _ => .seq fun _ _ _ _ => (hrest fs).agrees _ _)⟩

instance (n : Node) (w : Spelling) : Agree g F (loadNative n) (loadNative (n.spelled w)) := by
  unfold loadNative
  refine ⟨fun s v => .get_bind ?_⟩
  dsimp only
  split
  · exact (seq (reportAs (by rfl) n.span) fun _ => inferInstance : Agree _ _ _ _).agrees s v
  · exact .inst
  · split <;> exact .inst

instance (n : Node) (w : Spelling) : Agree g F (checkLoopControl n) (checkLoopControl (n.spelled w)) := by
  unfold checkLoopControl
  infer_instance

/-- A variable is entered in the scope, with its symbol. -/
theorem enterLet (id : NodeId) (n : Node) (w : Spelling) {sym : Symbol} (hsym : sym.instances = []) : Agree g F (do
      match ← bindSymbol sym with
      | .error prev => reportRedeclared n.name n.span prev
      | .ok symId => do
        setDecl id symId
        if n.isGeneric then return
        if (Attrs.ofFlags n.flags).has .static && (← inFunction) then
          modifyResult fun r => { r with statics := r.statics ++ [{ symbol := symId, init := n.b }] }
        self n.a
        self n.b) (do
      match ← bindSymbol sym with
      | .error prev => reportRedeclared w.name n.span prev
      | .ok symId => do
        setDecl id symId
        if n.isGeneric then return
        if (Attrs.ofFlags n.flags).has .static && (← inFunction) then
          modifyResult fun r => { r with statics := r.statics ++ [{ symbol := symId, init := n.b }] }
        self n.a
        self n.b) := by
  have hstatic (symId : SymbolId) : Agree g F
      (modifyResult fun r => { r with statics := r.statics ++ [{ symbol := symId, init := n.b }] })
      (modifyResult fun r => { r with statics := r.statics ++ [{ symbol := symId, init := n.b }] }) :=
    noteResult fun _ _ _ => rfl
  refine seq (bindNewHere hsym) fun r => ?_
  split <;> infer_instance

instance (id : NodeId) (n : Node) (w : Spelling) [hs : g.Spells n w] :
    Agree g F (declareLet self id n) (declareLet self id (n.spelled w)) := by
  unfold declareLet
  refine seq (internAs hs.name) fun name => ?_
  refine ite ?_ (bind fun storage => bind fun within => ite (bind fun at_ => ?_) ?_)
  all_goals exact enterLet id n w rfl

/-- A candidate is entered in the scope, with its symbol. -/
theorem enterCandidate (id : NodeId) (n : Node) (w : Spelling) {sym : Symbol} (hsym : sym.instances = []) : Agree g F (do
      let s ← get
      match s.result.scopes.declareCandidate s.scope sym with
      | .error prev => reportRedeclared n.name n.span prev
      | .ok (symId, scopes) => do
        modifyResult fun r => { r with scopes, funcs := r.funcs.insert id symId }
        if !n.isGeneric then declareFuncBody self id symId) (do
      let s ← get
      match s.result.scopes.declareCandidate s.scope sym with
      | .error prev => reportRedeclared w.name n.span prev
      | .ok (symId, scopes) => do
        modifyResult fun r => { r with scopes, funcs := r.funcs.insert id symId }
        if !n.isGeneric then declareFuncBody self id symId) := by
  refine ⟨fun s v => .table_bind fun t ht => ?_⟩
  dsimp only
  obtain ⟨e, he, he'⟩ | ⟨symId, u, u', hu, hu', hrel⟩ := ht.declareCandidate s.scope sym
  · rw [he, he']
    exact .inst
  · rw [hu, hu']
    have hsame := ScopeTable.sameInstances_declareCandidate hsym hu
    refine .bind (.modify (Aside.later ⟨rfl, List.Subset.refl _, fun _ h => h, rfl, rfl, hsame⟩) fun ha => ?_)
      fun _ _ _ _ => .inst
    exact ⟨{ v with scopes := u' }, { ha with scopes := hrel }, rfl⟩

instance (id : NodeId) (n : Node) (w : Spelling) [hs : g.Spells n w] :
    Agree g F (declareFunc self id n) (declareFunc self id (n.spelled w)) := by
  have hsym (name : NameId) (handle : Nat) :
      Symbol.instances
        { name, kind := .function, attrs := Attrs.ofFlags n.flags, decl := id, span := n.span, type := TypeTable.pending,
          template := if n.isGeneric then some { params := n.params } else none, handle } = [] := by
    cases n.isGeneric <;> rfl
  unfold declareFunc
  refine seq (internAs hs.name) fun name => ite (bind fun handle => ?_) (bind fun handle => ?_)
  all_goals exact enterCandidate id n w (hsym name handle)

instance (id : NodeId) (n : Node) (w : Spelling) :
    Agree g F (declareLiteral self id n) (declareLiteral self id (n.spelled w)) := by
  have hadd (name : NameId) (scope : ScopeId) : Agree g F
      (withScopes (·.addSymbol { name, kind := .function, scope, decl := id, span := n.span, type := TypeTable.pending }))
      (withScopes (·.addSymbol { name, kind := .function, scope, decl := id, span := n.span, type := TypeTable.pending })) :=
    stepScopes (fun t => t.sameInstances_addSymbol rfl) fun _ _ ht => ht.addSymbol _
  have hfunc (sym : SymbolId) : Agree g F (modifyResult fun r => { r with funcs := r.funcs.insert id sym })
      (modifyResult fun r => { r with funcs := r.funcs.insert id sym }) := noteResult fun _ _ _ => rfl
  unfold declareLiteral
  infer_instance

instance (id : NodeId) (n : Node) (w : Spelling) :
    Agree g F (declareReturn self id n) (declareReturn self id (n.spelled w)) := by
  unfold declareReturn
  refine ⟨fun s v => .table_bind fun t ht => ?_⟩
  dsimp only
  rw [ht.funcScope]
  have hlearn (fn : SymbolId) (info : FuncInfo) : Agree g F
      (modify fun s => { s with funcs := s.funcs.insert fn { info with returns := info.returns ++ [id] } })
      (modify fun s => { s with funcs := s.funcs.insert fn { info with returns := info.returns ++ [id] } }) :=
    note (fun _ _ => rfl) fun _ => ⟨rfl, rfl, rfl, rfl, rfl, rfl⟩
  refine .ite (fun _ => .inst) fun _ => (scopeInfo_bind fun sc name imports => ?_ : Agree _ _ _ _).agrees _ _
  dsimp only
  split <;> infer_instance

instance (id : NodeId) (n : Node) (w : Spelling) [hs : g.Spells n w] :
    Agree g F (declareTypeDecl self id n) (declareTypeDecl self id (n.spelled w)) := by
  unfold declareTypeDecl
  refine seq (internAs hs.name) fun name => ?_
  refine seq (bindNewHere ?_) fun r => ?_
  · cases n.isGeneric <;> rfl
  · split
    · infer_instance
    · exact bind fun _ => ite inferInstance inferInstance

instance (union : SymbolId) (ns : ScopeId) (attrs : Attrs) (v : NodeId) (tag : Nat) :
    Agree g F (declareVariant self union ns attrs v tag) (declareVariant self union ns attrs v tag) := by
  unfold declareVariant
  refine node_bind fun n w hs => ⟨fun s v => .get_bind (.seq fun _ _ _ _ => .seq fun _ _ _ _ =>
    .bind ((internAs hs.name).agrees _ _) fun name s₁ v₁ _ => .scopes_bind fun t ht => ?_)⟩
  obtain ⟨e, he, he'⟩ | ⟨id, u, u', hu, hu', hrel⟩ := ht.declare ns
    { name, kind := .variant, attrs, decl := _, span := n.span, type := TypeTable.pending, set := union, tag }
  · rw [he, he']
    exact .inst
  · rw [hu, hu']
    exact .setScopes (ScopeTable.sameInstances_declare rfl hu) fun _ => hrel

instance (id : NodeId) (n : Node) (w : Spelling) [hs : g.Spells n w] :
    Agree g F (declareUnion self id n) (declareUnion self id (n.spelled w)) := by
  unfold declareUnion
  refine seq (internAs hs.name) fun name => seq (bindNewHere rfl) fun r => ?_
  split
  · infer_instance
  · refine bind fun _ => ⟨fun s v => .get_bind ?_⟩
    refine .bind ((openNamespace s.scope hs.name n.span).agrees s v) fun ns _ _ _ => ?_
    exact .bind ((forIn _ _ fun x _ _ => inferInstance : Agree _ _ _ _).agrees _ _) fun _ _ _ _ => .inst

instance (id : NodeId) : Agree g F (declareArm self id) (declareArm self id) := by
  unfold declareArm
  refine node_bind fun n w hs => ?_
  have hbind : Agree g F (declareLocal id n.bind) (declareLocal id w.bind) := declareAs id hs.bind
  simp only [ne_eq, Dialect.empty_iff hs.bind]
  infer_instance

theorem declareMatch_agree (id : NodeId) (n : Node) (w : Spelling) (hn : ∀ c ∈ n.list, c ∈ F) :
    Agree g F (declareMatch self id n) (declareMatch self id (n.spelled w)) := by
  have harm (c : NodeId) (hc : c ∈ n.list) : Agree g F (modify fun s => { s with matchOf := s.matchOf.insert c id })
      (modify fun s => { s with matchOf := s.matchOf.insert c id }) := by
    refine ⟨fun s v => .modify (Aside.later ⟨rfl, List.Subset.refl _, fun _ h => h, rfl, rfl, .refl _⟩) fun ha => ?_⟩
    refine ⟨v, { ha with arms := fun arm m hm => ?_ }, rfl⟩
    rw [IdMap.get?_insert] at hm
    split at hm
    · subst arm
      exact ha.written c (hn c hc)
    · exact ha.arms arm m hm
  unfold declareMatch
  refine bind fun _ => seq (forIn _ _ fun c hc _ => ?_) fun _ => inferInstance
  have hnote := harm c hc
  infer_instance

instance (id : NodeId) (n : Node) (w : Spelling) :
    Agree g F (declareFor self id n) (declareFor self id (n.spelled w)) := by
  unfold declareFor
  infer_instance

instance (id : NodeId) (n : Node) (w : Spelling) [hs : g.Spells n w] :
    Agree g F (declareForeach self id n) (declareForeach self id (n.spelled w)) := by
  have hname : Agree g F (declareLocal id n.name) (declareLocal id w.name) := declareAs id hs.name
  have hbind : Agree g F (declareLocal id n.bind) (declareLocal id w.bind) := declareAs id hs.bind
  have hkey (key : SymbolId) : Agree g F (modifyResult fun r => { r with keys := r.keys.insert id key })
      (modifyResult fun r => { r with keys := r.keys.insert id key }) := noteResult fun _ _ _ => rfl
  unfold declareForeach
  simp only [ne_eq, Dialect.empty_iff hs.bind]
  infer_instance

instance (id : NodeId) (n : Node) (w : Spelling) :
    Agree g F (declareBlock self id n) (declareBlock self id (n.spelled w)) := by
  have hblock (block : ScopeId) : Agree g F (modify fun s => { s with nodeScope := s.nodeScope.insert id block })
      (modify fun s => { s with nodeScope := s.nodeScope.insert id block }) :=
    note (fun _ _ => rfl) fun _ => ⟨rfl, rfl, rfl, rfl, rfl, rfl⟩
  unfold declareBlock
  infer_instance

instance (n : Node) (w : Spelling) [hs : g.Spells n w] :
    Agree g F (declareNamespace self n) (declareNamespace self (n.spelled w)) := by
  unfold declareNamespace
  exact ⟨fun s v => .get_bind (.bind ((openNamespace s.scope hs.name n.span).agrees s v) fun ns _ _ _ => .inst)⟩

instance (n : Node) (w : Spelling) [hs : g.Spells n w] : Agree g F (declareImport n) (declareImport (n.spelled w)) := by
  unfold declareImport
  refine ⟨fun s v => .get_bind ?_⟩
  refine (changeScopes (fun t => t.sameInstances_modifyScope _ _) fun t t' ht => ?_ : Agree _ _ _ _).agrees _ _
  refine ht.modifyScopeRel _ fun sc sc' hsc => ?_
  obtain ⟨name, imports, hname, himports, rfl⟩ := hsc
  refine ⟨name, _, hname, List.rel_append himports (.cons ⟨w.path, rfl, hs.path⟩ .nil), rfl⟩

theorem declareKind_agree (id : NodeId) (n : Node) (w : Spelling) [hs : g.Spells n w] (hn : ∀ c ∈ n.written id, c ∈ F) :
    Agree g F (declareKind self id n) (declareKind self id (n.spelled w)) := by
  unfold declareKind
  simp only [Dialect.empty_iff hs.name]
  split <;> try infer_instance
  · rename_i hk
    exact declareMatch_agree id n w fun c hc => hn c (Node.mem_written_list (by rw [hk]; decide) hc)
  · have hchildren : (n.spelled w).children = n.children := rfl
    rw [hchildren]
    infer_instance

instance (id : NodeId) : Agree g F (declareStep self id) (declareStep self id) := by
  have hmark (declaring : Analysis → IdMap Unit) (h : ∀ s v, declaring (s.vary g v) = declaring s) (F : List NodeId) :
      Agree g F (modify fun s => { s with declaring := declaring s })
        (modify fun s => { s with declaring := declaring s }) :=
    note (fun s v => by rw [h]) fun _ => ⟨rfl, rfl, rfl, rfl, rfl, rfl⟩
  unfold declareStep
  refine ⟨fun s v => .get_bind (.ite (fun _ => .inst) fun _ => .node_bind_written fun n w _ hs => ?_)⟩
  have hkind : Agree g (n.written id ++ F) (declareKind self id n) (declareKind self id (n.spelled w)) :=
    declareKind_agree id n w fun c hc => List.mem_append_left F hc
  have hopen := hmark (fun s => s.declaring.insert id ()) (fun _ _ => rfl)
  have hclose := hmark (fun s => s.declaring.erase id) (fun _ _ => rfl)
  exact .inst

end Nodes

instance (fuel : Nat) (id : NodeId) : Agree g F (declareWith fuel id) (declareWith fuel id) := by
  induction fuel generalizing F id with
  | zero => exact inferInstanceAs (Agree g F (throw _) (throw _))
  | succ fuel ih => exact inferInstanceAs (Agree g F (declareStep _ id) (declareStep _ id))

instance (id : NodeId) : Agree g F (declare id) (declare id) := by
  unfold declare
  refine tree_bind fun t t' ht => ?_
  rw [ht.size]
  infer_instance

end Agree

end TreeCompiler.Analysis
