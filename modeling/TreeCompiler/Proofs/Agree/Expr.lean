import TreeCompiler.Analysis.Expr
import TreeCompiler.Proofs.Agree.Call

/-!
# Two runs in step: expressions

Where an expression compares a name as it is written, at a member and at the fields of a struct literal, the node that has
the name is known to have one spelling.

* `Agree.resolveName` : a name used as a value is found by instance;
* `rewriteOperator_agree` : an operator over named types becomes the same call in both runs;
* `resolveExpr_agree` : an expression of any kind.
-/

namespace TreeCompiler.Analysis.Agree

variable {g : Pace} {F : List NodeId} {α : Type} {rec : Resolver} [Agrees g rec]

omit [Agrees g rec] in
instance (id : NodeId) (t : TypeId) : Agree g F (finishRef id t) (finishRef id t) := by
  unfold finishRef
  infer_instance

/-! ## Names -/

omit [Agrees g rec] in
instance (id : NodeId) (sym : SymbolId) : Agree g F (captureName id sym) (captureName id sym) := by
  have hcapture (use : ScopeId) : Agree g F (withScopes (·.capture use sym)) (withScopes (·.capture use sym)) :=
    stepScopes (fun t => t.sameInstances_capture use sym) fun _ _ ht => ht.capture use sym
  unfold captureName
  refine bind fun s => ite inferInstance (scopes_bind fun t t' ht => bind fun scope => ?_)
  simp only [ht.funcScope]
  refine ite inferInstance (scopeInfo_bind fun fn name imports => bind fun span => bind fun shown => ?_)
  exact ite (bind fun _ => inferInstance) (ite inferInstance inferInstance)

instance (n : Node) (w : Spelling) (gen : SymbolId) :
    Agree g F (explicitInstance rec n gen) (explicitInstance rec (n.spelled w) gen) := by
  unfold explicitInstance
  refine bind fun args => ?_
  split
  · refine bind fun sym => ?_
    split
    · refine ite (seq (reportAs (by rfl) _) fun _ => inferInstance) (bind fun inst => bind fun s => ite ?_ inferInstance)
      exact bind fun texts => seq (reportAs (by rfl) _) fun _ => inferInstance
    · infer_instance
  · infer_instance

instance (id : NodeId) (n : Node) (w : Spelling) (sym : SymbolId) :
    Agree g F (functionValue rec id n sym) (functionValue rec id (n.spelled w) sym) := by
  unfold functionValue
  refine bind fun s => bind fun q => scopes_bind fun t t' ht => ?_
  have haccess : t'.accessible q = t.accessible q := funext (ht.accessible q)
  simp only [haccess, ht.symbol?]
  refine ite ?_ ?_
  · split
    · infer_instance
    · exact seq (reportAs (by rfl) _) fun _ => inferInstance
  · split
    · infer_instance
    · exact seq (reportAs (by rfl) _) fun _ => inferInstance
    · exact seq (reportAs (by rfl) _) fun _ => inferInstance
    · exact bind fun notes => seq (reportWithAs (by rfl) _ _ _) fun _ => inferInstance

instance (id : NodeId) (n : Node) (w : Spelling) (sym : SymbolId) :
    Agree g F (variableValue rec id n sym) (variableValue rec id (n.spelled w) sym) := by
  unfold variableValue
  infer_instance

instance (id : NodeId) (n : Node) (w : Spelling) [g.Spells n w] :
    Agree g F (resolveName rec id n) (resolveName rec id (n.spelled w)) := by
  unfold resolveName
  refine bind fun ready => ite inferInstance (bind fun r => ?_)
  split
  · refine bind fun sym => ?_
    split
    · refine bind fun value => ?_
      split <;> infer_instance
    · refine bind fun value => ?_
      split <;> infer_instance
    · refine bind fun value => ?_
      split <;> infer_instance
    · refine bind fun (payload, union) => bind fun _ => ite inferInstance ?_
      exact ite (seq (reportAs (by rfl) _) fun _ => inferInstance) inferInstance
    · exact seq (reportAs (by rfl) _) fun _ => inferInstance
  · infer_instance

/-! ## Operators -/

theorem rewriteOperator_agree (id : NodeId) (operands : List NodeId) :
    Agree g F (rewriteOperator rec id operands) (rewriteOperator rec id operands) := by
  unfold rewriteOperator
  refine ⟨fun s v => .node_bind fun n w _ _ => .addNode_bind (fun _ => rfl) fun callee s₁ v₁ _ => .seq fun _ s₂ v₂ _ => ?_⟩
  refine .bind (.changeNode id (fun _ _ => rfl) (fun _ => ⟨rfl, rfl, rfl⟩) (fun _ _ hk => ?_) fun n _ c hc => ?_)
    fun _ s₃ v₃ _ => ?_
  · exact absurd hk (by decide : NodeKind.call ∉ listingKinds)
  · exact absurd hc List.not_mem_nil
  · exact (resolveCall_agree id).agrees s₃ v₃

omit [Agrees g rec] in
instance (id : NodeId) (op : Operator) (l r result : TypeId) :
    Agree g F (balanceOperands id op l r result) (balanceOperands id op l r result) := by
  unfold balanceOperands
  infer_instance

instance (id : NodeId) : Agree g F (resolveBinary rec id) (resolveBinary rec id) := by
  have hrewrite (operands : List NodeId) :
      Agree g F (rewriteOperator rec id operands) (rewriteOperator rec id operands) :=
    rewriteOperator_agree id operands
  unfold resolveBinary
  refine node_bind fun _ _ _ => bind fun l => node_bind fun _ _ _ => bind fun r => ?_
  refine bind fun _ => bind fun _ => ite inferInstance ?_
  refine node_bind fun n w _ => bind fun t => ?_
  dsimp only
  split <;> infer_instance

instance (id : NodeId) : Agree g F (resolveUnary rec id) (resolveUnary rec id) := by
  have hrewrite (operands : List NodeId) :
      Agree g F (rewriteOperator rec id operands) (rewriteOperator rec id operands) :=
    rewriteOperator_agree id operands
  unfold resolveUnary
  refine node_bind fun _ _ _ => bind fun x => bind fun _ => ite inferInstance (node_bind fun n w _ => bind fun t => ?_)
  dsimp only
  split <;> infer_instance

omit [Agrees g rec] in
instance (target : NodeId) : Agree g F (assignable target) (assignable target) := by
  unfold assignable
  refine node_bind fun n w _ => ?_
  dsimp only
  split
  · refine ⟨fun s v => .get_bind ?_⟩
    dsimp only
    split
    · suffices hvar : Agree g F _ _ from hvar.agrees s v
      refine bind fun sym => ite (seq (reportAs (by rfl) _) fun _ => inferInstance) ?_
      exact ite (seq (reportWithAs (by rfl) _ _ _) fun _ => inferInstance) inferInstance
    · exact .inst
  · exact bind fun t => node_bind fun m _ _ => inferInstance
  · infer_instance
  · infer_instance

instance (id : NodeId) : Agree g F (resolveAssign rec id) (resolveAssign rec id) := by
  unfold resolveAssign
  refine node_bind fun _ _ _ => bind fun target => node_bind fun _ _ _ => bind fun value => ?_
  refine bind fun _ => bind fun _ => ite inferInstance ?_
  exact node_bind fun n w _ => bind fun _ => ite inferInstance (bind fun t => inferInstance)

/-! ## Access -/

instance (id : NodeId) : Agree g F (resolveIndex rec id) (resolveIndex rec id) := by
  unfold resolveIndex
  refine node_bind fun _ _ _ => bind fun x => node_bind fun _ _ _ => bind fun k => ?_
  refine bind fun _ => bind fun _ => ite inferInstance (bind fun t => ?_)
  split
  · infer_instance
  · infer_instance
  · infer_instance
  · refine node_bind fun n _ _ => node_bind fun kn kw _ => ?_
    generalize (if kn.kind = .intLit && 0 ≤ kn.int then _ else none) = elem?
    split <;> infer_instance
  · infer_instance
  · infer_instance

theorem resolveMember_agree {id : NodeId} (hid : id ∈ F) : Agree g F (resolveMember rec id) (resolveMember rec id) := by
  have hfield (i : Nat) : Agree g F (modifyResult fun r => { r with fields := r.fields.insert id i })
      (modifyResult fun r => { r with fields := r.fields.insert id i }) := noteResult fun _ _ _ => rfl
  unfold resolveMember
  refine node_bind fun _ _ _ => bind fun x => bind fun _ => ite inferInstance ?_
  refine node_bind_named fun n ⟨name, path, as⟩ _ hname => bind fun t => ?_
  obtain rfl : name = n.name := hname hid
  dsimp only
  split
  · split <;> infer_instance
  · infer_instance
  · infer_instance

/-! ## Literals -/

omit [Agrees g rec] in
instance (value : NodeId) (want : TypeId) (code : Code) :
    Agree g F (coerce value want code) (coerce value want code) := by
  rw [← bind_pure (coerce value want code)]
  exact ⟨fun s v => .coerce_bind fun _ _ _ _ _ _ _ => .pure _⟩

instance (elems : List NodeId) : Agree g F (unifyElems rec elems) (unifyElems rec elems) := by
  unfold unifyElems
  refine bind fun ready => ite inferInstance ?_
  split
  · infer_instance
  · exact node_bind fun n w _ => inferInstance

/-- An array literal lists other elements once they are of one type. -/
theorem resolveArray_agree {s : Analysis} {v : View} {id : NodeId} (hid : s.result.tree.Plain id) :
    AgreeFrom g F s v (resolveArray rec id) (resolveArray rec id) := by
  unfold resolveArray
  refine .node_bind fun n w _ _ => .seq fun r s₁ v₁ hr => ?_
  have hlater : Later s s₁ := AgreeFrom.later_of_ok (g := g) (F := F) hr
  split
  · rename_i elem list
    refine .bind (.changeNode id (fun _ _ => rfl) (fun _ => ⟨rfl, rfl, rfl⟩) (fun _ hk => hk) fun m hm c hc => ?_)
      fun _ _ _ _ => .inst
    obtain ⟨m', hm', hk⟩ := hlater.plain id hid
    obtain rfl : m = m' := Option.some.inj (hm.symm.trans hm')
    unfold Node.written at hc ⊢
    rw [if_neg hk] at hc ⊢
    exact .inl hc
  · exact .inst

/-- Nodes that are the same but for their spelling. -/
def Respelled (ns ns' : List Node) : Prop := List.Forall₂ (fun n n' => ∃ w, n' = Node.spelled n w) ns ns'

omit [Agrees g rec] in
theorem map_spelled {f : Node → α} (hf : ∀ n w, f (Node.spelled n w) = f n) {ns ns' : List Node} (h : Respelled ns ns') :
    ns'.map f = ns.map f := by
  induction h with
  | nil => rfl
  | cons hn _ ih =>
    obtain ⟨w, rfl⟩ := hn
    rw [List.map_cons, List.map_cons, hf, ih]

omit [Agrees g rec] in
theorem nodes_bind (ids : List NodeId) {f f' : List Node → AnalysisM α}
    (h : ∀ ns ns', Respelled ns ns' → Agree g F (f ns) (f' ns')) :
    Agree g F (ids.mapM node >>= f) (ids.mapM node >>= f') := by
  induction ids generalizing f f' with
  | nil => exact h [] [] .nil
  | cons id rest ih =>
    simp only [List.mapM_cons, bind_assoc, pure_bind]
    exact node_bind fun n w _ => ih fun ns ns' hns => h (n :: ns) (n.spelled w :: ns') (.cons ⟨w, rfl⟩ hns)

instance (id : NodeId) : Agree g F (resolveMap rec id) (resolveMap rec id) := by
  have hset (p k v : NodeId) : Agree g F (modifyNode p fun n => { n with a := k, b := v })
      (modifyNode p fun n => { n with a := k, b := v }) :=
    @editNode g F p (fun n => { n with a := k, b := v }) (fun _ _ => rfl) fun _ => ⟨rfl, rfl⟩
  unfold resolveMap
  refine node_bind fun n w _ => nodes_bind n.list fun es es' hes => ?_
  have ha : es'.map (·.a) = es.map (·.a) := map_spelled (fun _ _ => rfl) hes
  have hb : es'.map (·.b) = es.map (·.b) := map_spelled (fun _ _ => rfl) hes
  rw [ha, hb]
  refine bind fun keys => bind fun values => ?_
  dsimp only
  split
  · refine bind fun _ => inferInstance
  · infer_instance

instance (elems : List NodeId) : Agree g F (elemTypes? rec elems) (elemTypes? rec elems) := by
  induction elems with
  | nil => exact inferInstanceAs (Agree g F (pure _) (pure _))
  | cons e rest ih =>
    unfold elemTypes?
    infer_instance

instance (id : NodeId) : Agree g F (resolveTuple rec id) (resolveTuple rec id) := by
  unfold resolveTuple
  refine node_bind fun n w _ => bind fun r => ?_
  split <;> infer_instance

omit [Agrees g rec] in
theorem anonymousStruct_agree (id : NodeId) {list : List NodeId} (hlist : ∀ f ∈ list, f ∈ F) :
    Agree g F (anonymousStruct id list) (anonymousStruct id list) := by
  unfold anonymousStruct
  refine seq (mapM list fun f hf => ?_) fun fields => inferInstance
  refine node_bind_named fun n ⟨name, path, as⟩ _ hname => node_bind fun _ _ _ => ?_
  obtain rfl : name = n.name := hname (hlist f hf)
  infer_instance

omit [Agrees g rec] in
theorem structField_agree (st : TypeId) (fields : List TyField) (seen : List String) {f : NodeId} (hf : f ∈ F) :
    Agree g F (structField st fields seen f) (structField st fields seen f) := by
  unfold structField
  refine node_bind_named fun n ⟨name, path, as⟩ _ hname => ?_
  obtain rfl : name = n.name := hname hf
  dsimp only
  split <;> infer_instance

theorem resolveStruct_agree {s : Analysis} {v : View} {id : NodeId} {n : Node} (hn : s.result.tree.get? id = some n)
    (hlist : ∀ f ∈ n.list, f ∈ F) : AgreeFrom g F s v (resolveStruct rec id) (resolveStruct rec id) := by
  have hanonymous := anonymousStruct_agree (g := g) id hlist
  have hfields (st : TypeId) (fields : List TyField) : Agree g F (n.list.foldlM (structField st fields) [])
      (n.list.foldlM (structField st fields) []) :=
    foldlM n.list [] fun seen f hf => structField_agree st fields seen (hlist f hf)
  unfold resolveStruct
  refine .node_bind fun m w hm _ => ?_
  obtain rfl : n = m := Option.some.inj (hn.symm.trans hm)
  suffices hrest : Agree g F _ _ from hrest.agrees s v
  refine bind fun ready => ite inferInstance (ite inferInstance (bind fun st => bind fun _ => ?_))
  refine ite inferInstance (bind fun t => ?_)
  split <;> infer_instance

/-! ## Conversions and tests -/

instance (id : NodeId) : Agree g F (resolveCast rec id) (resolveCast rec id) := by
  unfold resolveCast
  refine node_bind fun _ _ _ => bind fun source => node_bind fun _ _ _ => bind fun target => ?_
  infer_instance

instance (id : NodeId) : Agree g F (resolveTypeIs rec id) (resolveTypeIs rec id) := by
  have hfold (same : Bool) : Agree g F
      (modifyNode id fun n => { n with flags := n.flags.union .folded, int := if same then 1 else 0 })
      (modifyNode id fun n => { n with flags := n.flags.union .folded, int := if same then 1 else 0 }) :=
    @editNode g F id (fun n => { n with flags := n.flags.union .folded, int := if same then 1 else 0 })
      (fun _ _ => rfl) fun _ => ⟨rfl, rfl⟩
  unfold resolveTypeIs
  refine node_bind fun _ _ _ => bind fun value => node_bind fun _ _ _ => bind fun want => ?_
  infer_instance

theorem resolveExpr_agree {s : Analysis} {v : View} {id : NodeId} {n : Node} {w : Spelling}
    (hn : s.result.tree.get? id = some n) (hw : ∀ c ∈ n.written id, c ∈ F) [g.Spells n w] :
    AgreeFrom g F s v (resolveExpr rec id n) (resolveExpr rec id (n.spelled w)) := by
  unfold resolveExpr
  dsimp only
  split
  case h_9 => exact (resolveCall_agree id).agrees s v
  case h_11 hk => exact (resolveMember_agree (hw id (Node.mem_written_member hk))).agrees s v
  case h_12 hk => exact resolveArray_agree ⟨n, hn, by rw [hk]; decide⟩
  case h_15 hk => exact resolveStruct_agree hn fun f hf => hw f (Node.mem_written_list (by rw [hk]; decide) hf)
  all_goals exact .inst

end TreeCompiler.Analysis.Agree
