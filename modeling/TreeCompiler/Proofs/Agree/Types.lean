import TreeCompiler.Analysis.Function
import TreeCompiler.Proofs.Agree.Instance

/-!
# Two runs in step: types

The names of fields and variants stand in types as they are written, so a struct type and a union are the same type in both
runs only when the nodes that they list have one spelling. Declared types go by symbol.

* `typeExprStep_agree`, `varTypeStep_agree` : a type expression and the type of a variable;
* `Agree.typeOfSymbol`, `Agree.funcType` : the type of a symbol and of a function are found by instance.
-/

namespace TreeCompiler.Analysis.Agree

variable {g : Pace} {F : List NodeId} {α : Type}

instance (sym : SymbolId) (step step' : AnalysisM α) [Agree g F step step'] :
    Agree g F (whileTyping sym step) (whileTyping sym step') := by
  have hopen : Agree g F (modify fun s => { s with typing := s.typing.insert sym () })
      (modify fun s => { s with typing := s.typing.insert sym () }) :=
    note (fun _ _ => rfl) fun _ => ⟨rfl, rfl, rfl, rfl, rfl, rfl⟩
  have hclose : Agree g F (modify fun s => { s with typing := s.typing.erase sym })
      (modify fun s => { s with typing := s.typing.erase sym }) :=
    note (fun _ _ => rfl) fun _ => ⟨rfl, rfl, rfl, rfl, rfl, rfl⟩
  unfold whileTyping
  infer_instance

instance (sym : SymbolId) : Agree g F (isTyping sym) (isTyping sym) := by
  unfold isTyping
  infer_instance

instance (base : TypeId) (sym : SymbolId) (name : String) (args : List TypeId) :
    Agree g F (namedOf base sym name args) (namedOf base sym name args) := by
  have hset (types : TypeTable) :
      Agree g F (modifyResult fun r => { r with types }) (modifyResult fun r => { r with types }) :=
    noteResult fun _ _ _ => rfl
  unfold namedOf
  refine bind fun t => ?_
  split <;> infer_instance

section Resolver

variable {rec : Resolver} [Agrees g rec]

/-! ## Declared types -/

instance (id : SymbolId) (n : Node) (w : Spelling) (name : String) :
    Agree g F (declaredType rec id n name) (declaredType rec id (n.spelled w) name) := by
  have hdefaults (t : TypeId) (ds : List NodeId) : Agree g F
      (modifyResult fun r => { r with fieldDefaults := r.fieldDefaults.insert t ds })
      (modifyResult fun r => { r with fieldDefaults := r.fieldDefaults.insert t ds }) := noteResult fun _ _ _ => rfl
  unfold declaredType
  refine bind fun base => bind fun sym => bind fun _ => bind fun _ => ite inferInstance (ite inferInstance ?_)
  refine bind fun t => bind fun _ => ⟨fun s v => .get_bind ?_⟩
  dsimp only
  split <;> exact .inst

theorem variantFields_agree {vs : List NodeId} (hvs : ∀ v ∈ vs, v ∈ F) :
    Agree g F (variantFields rec vs) (variantFields rec vs) := by
  induction vs with
  | nil => exact inferInstanceAs (Agree g F (pure _) (pure _))
  | cons v rest ih =>
    have hrest := ih fun c hc => hvs c (List.mem_cons_of_mem _ hc)
    unfold variantFields
    refine node_bind_named fun n ⟨name, path, as⟩ _ hname => ?_
    obtain rfl : name = n.name := hname (hvs v List.mem_cons_self)
    exact ite (bind fun t => inferInstance) (bind fun t => inferInstance)

theorem unionType_agree (id : SymbolId) {n : Node} (hn : ∀ c ∈ n.list, c ∈ F) (w : Spelling) (name : String) :
    Agree g F (unionType rec id n name) (unionType rec id (n.spelled w) name) := by
  have hvariants : Agree g F (variantFields rec n.list) (variantFields rec n.list) := variantFields_agree hn
  unfold unionType
  refine bind fun r => ?_
  split <;> infer_instance

instance (id : SymbolId) : Agree g F (typeOfSymbol rec id) (typeOfSymbol rec id) := by
  have hdeclared (decl : NodeId) (name : String) : Agree g F
      (do
        let n ← node decl
        match n.kind with
        | .typeDecl => declaredType rec id n name
        | .unionDecl => unionType rec id n name
        | k => internal decl (.declaredBy name k.name))
      (do
        let n ← node decl
        match n.kind with
        | .typeDecl => declaredType rec id n name
        | .unionDecl => unionType rec id n name
        | k => internal decl (.declaredBy name k.name)) := by
    refine node_bind_written fun n w _ => ?_
    dsimp only
    split
    · infer_instance
    · rename_i hk
      exact unionType_agree id (fun c hc => List.mem_append_left _ (Node.mem_written_list (by rw [hk]; decide) hc)) w name
    · infer_instance
  unfold typeOfSymbol
  refine bind fun sym => bind fun _ => ite inferInstance (bind fun name => bind fun _ => ite inferInstance ?_)
  have := hdeclared sym.decl name
  infer_instance

instance (id : SymbolId) : Agree g F (variantTypes rec id) (variantTypes rec id) := by
  unfold variantTypes
  refine bind fun sym => bind fun union => bind fun _ => ite inferInstance (bind fun u => ?_)
  split
  · split
    · infer_instance
    · exact bind fun _ => bind fun _ => inferInstance
  · infer_instance

/-! ## Type expressions -/

instance (id : NodeId) (n : Node) (w : Spelling) [g.Spells n w] :
    Agree g F (namedType rec id n) (namedType rec id (n.spelled w)) := by
  unfold namedType
  refine bind fun _ => ite inferInstance (bind fun r => ?_)
  split
  · refine bind fun sym => ?_
    dsimp only
    refine ite (seq (reportWithAs (by rfl) _ _ _) fun _ => inferInstance) ?_
    split
    · exact ite (seq (reportAs (by rfl) _) fun _ => inferInstance) inferInstance
    · refine bind fun args => ite (seq (reportAs (by rfl) _) fun _ => inferInstance) (bind fun _ => inferInstance)
  · infer_instance

theorem structFields_agree {fs : List NodeId} (hfs : ∀ f ∈ fs, f ∈ F) (names : List String) :
    Agree g F (structFields rec names fs) (structFields rec names fs) := by
  induction fs generalizing F names with
  | nil => exact inferInstanceAs (Agree g F (pure _) (pure _))
  | cons f rest ih =>
    unfold structFields
    refine node_bind_named fun n ⟨name, path, as⟩ _ hname => ?_
    obtain rfl : name = n.name := hname (hfs f List.mem_cons_self)
    refine bind fun t => bind fun _ => ite inferInstance ?_
    have hdefault (F : List NodeId) (value : NodeId) : Agree g F (modifyNode f fun n => { n with b := value })
        (modifyNode f fun n => { n with b := value }) :=
      @editNode g F f (fun n => { n with b := value }) (fun _ _ => rfl) fun _ => ⟨rfl, rfl⟩
    have htail {H : List NodeId} (hH : F ⊆ H) : Agree g H (do
        let fn ← node f
        discard <| finish f t
        return (← structFields rec (n.name :: names) rest).map (({ name := n.name, type := t }, fn.b) :: ·)) (do
        let fn ← node f
        discard <| finish f t
        return (← structFields rec (n.name :: names) rest).map (({ name := n.name, type := t }, fn.b) :: ·)) := by
      have hrest : Agree g H (structFields rec (n.name :: names) rest) (structFields rec (n.name :: names) rest) :=
        ih (fun c hc => hH (hfs c (List.mem_cons_of_mem _ hc))) _
      exact node_bind fun m w _ => inferInstance
    refine ite (bind fun _ => ?_) ?_
    all_goals
      refine ite (bind fun _ => bind fun _ => ite inferInstance ?_) (htail (List.Subset.refl _))
      exact ⟨fun s v => .node_bind fun m w _ _ => .coerce_bind fun ok c G s₁ v₁ _ _ => .seq fun _ s₂ v₂ _ =>
        (htail (List.subset_append_right G F)).agrees s₂ v₂⟩

theorem structType_agree {n : Node} (hn : ∀ c ∈ n.list, c ∈ F) (w : Spelling) :
    Agree g F (structType rec n) (structType rec (n.spelled w)) := by
  have hfields : Agree g F (structFields rec [] n.list) (structFields rec [] n.list) := structFields_agree hn []
  have hdefaults (t : TypeId) (ds : List NodeId) : Agree g F
      (modifyResult fun r => { r with fieldDefaults := r.fieldDefaults.insert t ds })
      (modifyResult fun r => { r with fieldDefaults := r.fieldDefaults.insert t ds }) := noteResult fun _ _ _ => rfl
  unfold structType
  refine bind fun r => ?_
  split <;> infer_instance

theorem typeExprStep_agree (id : NodeId) : Agree g F (typeExprStep rec id) (typeExprStep rec id) := by
  unfold typeExprStep
  refine ite inferInstance (node_bind_written fun n w hs => ite inferInstance ?_)
  dsimp only
  split
  · infer_instance
  · infer_instance
  · infer_instance
  · refine bind fun r => ?_
    split <;> infer_instance
  · refine bind fun r => bind fun result => bind fun _ => ?_
    split <;> infer_instance
  · rename_i hk
    have hlist : ∀ c ∈ n.list, c ∈ n.written id ++ F := fun c hc =>
      List.mem_append_left F (Node.mem_written_list (by rw [hk]; decide) hc)
    have hstruct : Agree g (n.written id ++ F) (structType rec n) (structType rec (n.spelled w)) := structType_agree hlist w
    infer_instance
  · infer_instance

/-! ## Functions -/

omit [Agrees g rec] in
instance (fn : SymbolId) : Agree g F (funcInfo fn) (funcInfo fn) := by
  unfold funcInfo
  refine ⟨fun s v => .get_bind ?_⟩
  dsimp only
  split <;> exact .inst

instance (fn : SymbolId) (f : FuncInfo → FuncInfo) : Agree g F (modifyFunc fn f) (modifyFunc fn f) := by
  have hset (info : FuncInfo) : Agree g F (modify fun s => { s with funcs := s.funcs.insert fn (f info) })
      (modify fun s => { s with funcs := s.funcs.insert fn (f info) }) :=
    note (fun _ _ => rfl) fun _ => ⟨rfl, rfl, rfl, rfl, rfl, rfl⟩
  unfold modifyFunc
  infer_instance

instance (p : NodeId) : Agree g F (paramType rec p) (paramType rec p) := by
  have hknown (t : TypeId) : Agree g F (do
      if ← isResolved t then
        if let some sym := (← get).result.decls.get? p then setSymbolType sym t
        discard <| finish p t
      return t) (do
      if ← isResolved t then
        if let some sym := (← get).result.decls.get? p then setSymbolType sym t
        discard <| finish p t
      return t) := by
    refine bind fun _ => ite ⟨fun s v => .get_bind ?_⟩ inferInstance
    dsimp only
    split <;> exact .inst
  unfold paramType
  exact node_bind fun n w _ => ite (bind fun t => hknown t) (bind fun t => hknown t)

instance (ps : List NodeId) : Agree g F (paramList? rec ps) (paramList? rec ps) := by
  induction ps with
  | nil => exact inferInstanceAs (Agree g F (pure _) (pure _))
  | cons p rest ih =>
    unfold paramList?
    infer_instance

instance (fn : SymbolId) : Agree g F (paramTypes rec fn) (paramTypes rec fn) := by
  unfold paramTypes
  refine bind fun info => ite inferInstance (node_bind fun n w _ => bind fun r => ?_)
  split <;> infer_instance

instance (rs : List NodeId) : Agree g F (firstReturn rec rs) (firstReturn rec rs) := by
  induction rs with
  | nil => exact inferInstanceAs (Agree g F (pure _) (pure _))
  | cons r rest ih =>
    unfold firstReturn
    exact node_bind fun n w _ => inferInstance

instance (fn : SymbolId) : Agree g F (funcResult rec fn) (funcResult rec fn) := by
  unfold funcResult
  refine bind fun info => bind fun _ => ite inferInstance (node_bind fun n w _ => ?_)
  infer_instance

instance (fn : SymbolId) : Agree g F (funcType rec fn) (funcType rec fn) := by
  unfold funcType
  refine bind fun sym => ⟨fun s v => .get_bind ?_⟩
  dsimp only
  split
  · exact .seq fun _ _ _ _ => .ite (fun _ => .inst) fun _ => .seq fun _ _ _ _ => .ite (fun _ => .inst) fun _ => .inst
  · exact .inst

/-! ## Variables -/

instance (id : NodeId) : Agree g F (letType rec id) (letType rec id) := by
  unfold letType
  refine node_bind fun n w _ => ⟨fun s v => .get_bind (.seq fun sym _ _ _ => .seq fun _ _ _ _ => ?_)⟩
  exact .ite (fun _ => .inst) fun _ => .seq fun _ _ _ _ => .ite (fun _ => .inst) fun _ => .inst

instance (id : NodeId) : Agree g F (foreachTypes rec id) (foreachTypes rec id) := by
  have hknown (value key : TypeId) : Agree g F (do
      let r := (← get).result
      if let some sym := r.decls.get? id then setSymbolType sym value
      if let some sym := r.keys.get? id then setSymbolType sym key
      return (value, key)) (do
      let r := (← get).result
      if let some sym := r.decls.get? id then setSymbolType sym value
      if let some sym := r.keys.get? id then setSymbolType sym key
      return (value, key)) := by
    refine ⟨fun s v => .get_bind ?_⟩
    dsimp only
    split <;> split <;> exact .inst
  unfold foreachTypes
  refine node_bind fun n w _ => bind fun it => bind fun _ => ite inferInstance (bind fun t => ?_)
  split
  · exact bind fun (value, key) => hknown value key
  · exact bind fun (value, key) => hknown value key
  · exact bind fun (value, key) => hknown value key
  · exact bind fun (value, key) => hknown value key
  · exact bind fun _ => bind fun _ => bind fun _ => bind fun (value, key) => hknown value key

instance (arm : NodeId) : Agree g F (armBindType rec arm) (armBindType rec arm) := by
  have hknown (F : List NodeId) (t : TypeId) : Agree g F (do
      if let some sym := (← get).result.decls.get? arm then setSymbolType sym t
      return t) (do
      if let some sym := (← get).result.decls.get? arm then setSymbolType sym t
      return t) := by
    refine ⟨fun s v => .get_bind ?_⟩
    dsimp only
    split <;> exact .inst
  unfold armBindType
  refine ⟨fun s v => .get_bind ?_⟩
  dsimp only
  cases harm : s.matchOf.get? arm with
  | none => exact .inst
  | some m =>
    refine .grow (G := [arm]) (fun ha c hc => ?_) ?_
    · rw [List.mem_singleton.1 hc]
      exact ha.arms arm m harm
    · refine .node_bind fun n w _ _ => .seq fun st _ _ _ => .seq fun _ _ _ _ => .ite (fun _ => .inst) fun _ => ?_
      refine .node_bind_named fun an ⟨name, path, as⟩ _ _ hname => ?_
      obtain rfl : name = an.name := hname List.mem_cons_self
      exact .seq fun t _ _ _ => (hknown _ _).agrees _ _

theorem varTypeStep_agree (id : SymbolId) : Agree g F (varTypeStep rec id) (varTypeStep rec id) := by
  unfold varTypeStep
  refine bind fun sym => bind fun _ => ite inferInstance (ite (bind fun t => inferInstance) (ite inferInstance ?_))
  refine tree_bind fun t t' ht => ?_
  rw [ht.kind]
  split
  · infer_instance
  · infer_instance
  · exact bind fun (value, key) => inferInstance
  · infer_instance
  · infer_instance

end Resolver

end TreeCompiler.Analysis.Agree
