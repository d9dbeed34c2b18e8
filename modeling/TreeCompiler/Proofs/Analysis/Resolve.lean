import Mathlib.Data.List.Forall2
import TreeCompiler.Analysis.Run
import TreeCompiler.Proofs.Analysis.Call

/-!
# Resolution and the whole run

Every step of resolution walks, so a run does: `Tree.analyze_steps` gives the changes that lead from the initial state to the
state in which an analysis ends. Some edits depend on the node they meet: an operator may become a call because it is one,
only an array literal exchanges its elements, and only a map literal writes back what its parts hold.
-/

namespace TreeCompiler

namespace Analysis

variable {α β : Type}

/-! ## Names -/

def IsFuncScope (fs : ScopeId) (s : Analysis) : Prop :=
  ∃ sc, s.result.scopes.scope? fs = some sc ∧ sc.kind = .function

theorem isFuncScope_lasting (fs : ScopeId) : Lasting (IsFuncScope fs) := by
  rintro s s' - hsteps ⟨sc, hsc, hk⟩
  obtain ⟨sc', hsc', g⟩ := hsteps.tables.scopes fs sc hsc
  exact ⟨sc', hsc', g.kind.trans hk⟩

/-- The captured copy is entered in the function around the name. -/
instance (id : NodeId) (sym : SymbolId) : Walks (captureName id sym) := by
  refine ⟨fun s => ?_⟩
  unfold captureName
  refine .bind .inst fun v s₁ _ _ => .ite (fun _ => .inst) fun _ => .bind .inst fun tab s₂ htab _ => ?_
  cases htab
  refine .of_sound fun hs₁ => .bind .inst fun scope s₂ _ hsteps => .ite (fun _ => .inst) fun huse => ?_
  simp only [Bool.or_eq_true, decide_eq_true_eq, not_or] at huse
  have hJ := isFuncScope_lasting (s₁.result.scopes.funcScope scope)
  have huse := hJ s₁ s₂ hs₁ hsteps (ScopeTable.funcScope_scope? huse.1)
  refine (?_ : WalksUnder (IsFuncScope (s₁.result.scopes.funcScope scope)) _) s₂ huse
  refine .bind hJ fun fn => .bind hJ fun span => .bind hJ fun name => ?_
  refine .ite (fun _ => .of_walks) fun _ => .ite (fun _ => .of_walks) fun _ => .seq hJ ?_ fun _ => .of_walks
  rintro s₃ ⟨sc, hsc, hk⟩
  exact .modifyGet fun _ => .single (.arrange rfl rfl rfl ⟨rfl, rfl, rfl, rfl⟩ (ScopeTable.keeps_capture hsc hk sym))

namespace Walks

variable (rec : Resolver) [ResolverWalks rec]

omit [ResolverWalks rec] in
instance (id : NodeId) (t : TypeId) : Walks (finishRef id t) := by unfold finishRef; infer_instance

instance (n : Node) (gen : SymbolId) : Walks (explicitInstance rec n gen) := by
  unfold explicitInstance
  refine bind fun args => ?_
  split
  · refine bind fun sym => ?_
    split
    · refine ite inferInstance (bind fun inst => bind fun s => ite ?_ inferInstance)
      infer_instance
    · infer_instance
  · infer_instance

instance (id : NodeId) (n : Node) (symId : SymbolId) : Walks (functionValue rec id n symId) := by
  unfold functionValue
  refine bind fun sym => bind fun q => bind fun tab => ?_
  dsimp only
  refine ite ?_ ?_
  · split <;> infer_instance
  · split <;> infer_instance

instance (id : NodeId) (n : Node) (symId : SymbolId) : Walks (variableValue rec id n symId) := by
  unfold variableValue; infer_instance

instance (id : NodeId) (n : Node) : Walks (resolveName rec id n) := by
  unfold resolveName
  refine bind fun ready => ite inferInstance (bind fun found => ?_)
  split
  · refine bind fun sym => ?_
    split
    · refine bind fun v => ?_
      split <;> infer_instance
    · refine bind fun v => ?_
      split <;> infer_instance
    · refine bind fun v => ?_
      split <;> infer_instance
    · refine bind fun v => ?_
      obtain ⟨payload, union⟩ := v
      exact bind fun r => ite inferInstance (ite inferInstance inferInstance)
    · infer_instance
  · infer_instance

/-! ## Operators -/

omit [ResolverWalks rec] in
instance (id : NodeId) (op : Operator) (l r result : TypeId) : Walks (balanceOperands id op l r result) := by
  unfold balanceOperands
  refine bind fun t => ite inferInstance (ite inferInstance ?_)
  exact ite inferInstance inferInstance

end Walks

theorem operationKinds_lasting (id : NodeId) : Lasting (OfKinds operationKinds id) :=
  ofKinds_lasting (fun _ => by decide) id

section

variable (rec : Resolver) [ResolverWalks rec]

/-- An operator that becomes a call is resolved as one. -/
theorem rewriteOperator_under (id : NodeId) (operands : List NodeId) :
    WalksUnder (OfKinds operationKinds id) (rewriteOperator rec id operands) := by
  have hJ := operationKinds_lasting id
  unfold rewriteOperator
  refine .bind hJ fun n => .bind hJ fun callee => .bind hJ fun _ => ?_
  rintro s ⟨m, hm, hk⟩
  refine .bind (.modify fun _ => .single (.edit rfl rfl rfl ⟨rfl, rfl, rfl, rfl⟩ ?_)) fun _ s₁ h₁ _ => ?_
  · refine Tree.refines_modify (fun n hn => ?_) fun n hn hno => ?_
    · cases hm.symm.trans hn
      refine ⟨?_, rfl, rfl, .inl rfl, fun hno => absurd hk hno⟩
      simp only [operationKinds, List.mem_cons, List.not_mem_nil, or_false] at hk
      rcases hk with hk | hk | hk
      · exact .inr ⟨.inl hk, rfl⟩
      · exact .inr ⟨.inr hk, rfl⟩
      · exact .inl hk.symm
    · cases hm.symm.trans hn
      exact absurd hk hno
  · cases h₁
    refine resolveCall_under rec id _ ⟨_, (Tree.get?_modify ..).trans ((if_pos rfl).trans (congrArg _ hm)), ?_⟩
    exact List.mem_singleton.2 rfl

theorem resolveBinary_under (id : NodeId) : WalksUnder (OfKinds operationKinds id) (resolveBinary rec id) := by
  have hJ := operationKinds_lasting id
  unfold resolveBinary
  refine .bind hJ fun _ => .bind hJ fun l => .bind hJ fun _ => .bind hJ fun r => .bind hJ fun _ => .bind hJ fun _ => ?_
  refine .ite (fun _ => .of_walks) fun _ => .bind hJ fun n => .bind hJ fun t => ?_
  split
  · exact .of_walks
  · exact .ite (fun _ => rewriteOperator_under rec id _) fun _ => .of_walks

theorem resolveUnary_under (id : NodeId) : WalksUnder (OfKinds operationKinds id) (resolveUnary rec id) := by
  have hJ := operationKinds_lasting id
  unfold resolveUnary
  refine .bind hJ fun _ => .bind hJ fun x => .bind hJ fun _ => .ite (fun _ => .of_walks) fun _ => ?_
  refine .bind hJ fun n => .bind hJ fun t => ?_
  split
  · exact .of_walks
  · exact .ite (fun _ => rewriteOperator_under rec id _) fun _ => .of_walks

instance (elems : List NodeId) : Walks (unifyElems rec elems) := by
  unfold unifyElems
  refine Walks.bind fun ready => Walks.ite inferInstance ?_
  split <;> infer_instance

theorem resolveArray_under (id : NodeId) : WalksUnder (OfKinds [.arrayLit] id) (resolveArray rec id) := by
  have hJ : Lasting (OfKinds [.arrayLit] id) := ofKinds_lasting (by decide) id
  unfold resolveArray
  refine .bind hJ fun _ => .bind hJ fun found => ?_
  split
  · refine .seq hJ ?_ fun _ => .of_walks
    rintro s ⟨m, hm, hk⟩
    refine .modify fun _ => .single (.edit rfl rfl rfl ⟨rfl, rfl, rfl, rfl⟩ (Tree.refines_modify_same fun n hn => ⟨?_, rfl, rfl⟩))
    cases hm.symm.trans hn
    exact ⟨.inl rfl, rfl, rfl, .inl rfl, fun _ hno => absurd (List.mem_singleton.1 hk) hno⟩
  · exact .of_walks

/-! ### Maps -/

/-- The elements as they stand afterwards are the elements or casts of them. -/
theorem coerceList_ensures (t : TypeId) (code : Code) (elems : List NodeId) (s : Analysis) :
    Ensures s (elems.mapM fun e => return (← coerce e t code).2) fun list s' =>
      List.Forall₂ s'.result.tree.Same list elems ∧ ∀ v ∈ list, v ≠ 0 := by
  induction elems generalizing s with
  | nil => exact .pure ⟨.nil, List.forall_mem_nil _⟩
  | cons e rest ih =>
    rw [List.mapM_cons]
    intro hs
    refine Ensures.bind (fun v s₁ h₁ _ => fun hs₁ => Ensures.bind (fun list s₂ h₂ hw₂ => .pure ?_) hs₁) hs
    obtain ⟨r, s', hr, hv⟩ := bind_ok h₁
    cases hv
    obtain ⟨hsame, hpresent⟩ := ih _ hs₁ list s₂ h₂
    exact ⟨.cons (hw₂.refines.same (coerce_ok hr).same) hsame, List.forall_mem_cons.2 ⟨(coerce_ok hr).present, hpresent⟩⟩

theorem unifyElems_ensures (elems : List NodeId) (s : Analysis) :
    Ensures s (unifyElems rec elems) fun found s' =>
      ∀ t list, found = some (t, list) → List.Forall₂ s'.result.tree.Same list elems ∧ ∀ v ∈ list, v ≠ 0 := by
  unfold unifyElems
  refine .bind fun ready s₁ _ _ => .ite (fun _ => .pure fun _ _ h => by cases h) fun _ => ?_
  split
  · refine .pure fun t list h => ?_
    cases h
    exact ⟨.nil, List.forall_mem_nil _⟩
  · rename_i first _
    refine .bind fun n s₂ hn _ => fun hs₂ => Ensures.bind (fun cast s₃ h₃ _ => .pure fun t list h => ?_) hs₂
    cases h
    obtain ⟨hsame, hpresent⟩ := coerceList_ensures _ _ _ s₂ hs₂ cast s₃ h₃
    refine ⟨.cons (.refl _ _) hsame, List.forall_mem_cons.2 ⟨?_, hpresent⟩⟩
    rintro rfl
    cases (node_ok hn).2

omit [ResolverWalks rec] in
theorem nodes_ok {ids : List NodeId} {ns : List Node} {s s' : Analysis} (h : ids.mapM node s = .ok ns s') :
    s' = s ∧ List.Forall₂ (fun id n => s.result.tree.get? id = some n) ids ns := by
  induction ids generalizing ns s s' with
  | nil =>
    cases h
    exact ⟨rfl, .nil⟩
  | cons id ids ih =>
    rw [List.mapM_cons] at h
    obtain ⟨n, s₁, h₁, ha⟩ := bind_ok h
    obtain ⟨rfl, hn⟩ := node_ok h₁
    obtain ⟨rest, s₂, h₂, hb⟩ := bind_ok ha
    obtain ⟨rfl, hrest⟩ := ih h₂
    cases hb
    exact ⟨rfl, .cons hn hrest⟩

/-- The part `x.1` of the map literal `id` has the key `x.2.1` and the value `x.2.2`, up to implicit casts. -/
def Maps (id : NodeId) (x : NodeId × NodeId × NodeId) (s : Analysis) : Prop :=
  ∃ m n, s.result.tree.get? id = some m ∧ m.kind = .mapLit ∧ x.1 ∈ m.list ∧ s.result.tree.get? x.1 = some n ∧
    s.result.tree.Same x.2.1 n.a ∧ s.result.tree.Same x.2.2 n.b

theorem maps_lasting (id : NodeId) (x : NodeId × NodeId × NodeId) : Lasting (Maps id x) := by
  rintro s s' - hsteps ⟨m, n, hm, hk, hx, hn, ha, hb⟩
  have h := hsteps.refines
  obtain ⟨m', hm', gm⟩ := h.nodes id m hm
  obtain ⟨n', hn', -⟩ := h.nodes x.1 n hn
  have hlist := gm.list (by rw [hk]; decide) (by rw [hk]; decide)
  -- the part is a pair where that matters
  have hslots (hp : s'.result.tree.Paired) := h.slots x.1 n n' hn hn' (by
    rw [h.paired hp id m hm hk x.1 hx n hn]
    decide)
  exact ⟨m', n', hm', (gm.kind_eq (by rw [hk]; decide)).trans hk, hlist ▸ hx, hn',
    (h.same ha).trans fun hp => ((hslots hp).1 hp).symm, (h.same hb).trans fun hp => ((hslots hp).2 hp).symm⟩

/-- The nodes of the parts, their keys and their values, each up to a relation. -/
theorem forall_zip {R : NodeId → Node → Prop} {S : NodeId → NodeId → Prop} {ps keys values : List NodeId} {ns : List Node}
    (hR : List.Forall₂ R ps ns) (hk : List.Forall₂ S keys (ns.map (·.a))) (hv : List.Forall₂ S values (ns.map (·.b))) :
    ∀ x ∈ ps.zip (keys.zip values), ∃ n, R x.1 n ∧ S x.2.1 n.a ∧ S x.2.2 n.b := by
  induction hR generalizing keys values with
  | nil =>
    intro x hx
    cases hx
  | cons h _ ih =>
    cases hk with
    | cons hk hks =>
      cases hv with
      | cons hv hvs => exact List.forall_mem_cons.2 ⟨⟨_, h, hk, hv⟩, ih hks hvs⟩

theorem resolveMap_under (id : NodeId) : WalksUnder (OfKinds [.mapLit] id) (resolveMap rec id) := by
  rintro s ⟨m, hm, hk⟩
  replace hk := List.mem_singleton.1 hk
  unfold resolveMap
  refine .node_bind fun m' hm' => ?_
  cases hm.symm.trans hm'
  refine .bind .inst fun ns s₁ h₁ _ => .of_sound fun hs => ?_
  obtain ⟨rfl, hns⟩ := nodes_ok h₁
  refine .bind .inst fun keys s₂ h₂ hw₂ => .bind .inst fun values s₃ h₃ hw₃ => ?_
  split
  · rename_i key keys elem values
    have hkeys := unifyElems_ensures rec _ s₁ hs _ s₂ h₂ key keys rfl
    have hvalues := unifyElems_ensures rec _ s₂ (hw₂.sound hs) _ s₃ h₃ elem values rfl
    have hzip := forall_zip hns (hkeys.1.imp fun _ _ h => hw₃.refines.same h) hvalues.1
    have hmaps (x) (hx : x ∈ m.list.zip (keys.zip values)) : Maps id x s₃ := by
      obtain ⟨n, hn, ha, hb⟩ := hzip x hx
      have hold : Maps id (x.1, n.a, n.b) s₁ := ⟨m, n, hm, hk, (List.of_mem_zip hx).1, hn, .refl _ _, .refl _ _⟩
      obtain ⟨m', n', hm', hk', hx', hn', ha', hb'⟩ := maps_lasting id _ s₁ s₃ hs (hw₂.trans hw₃) hold
      exact ⟨m', n', hm', hk', hx', hn', ha.trans ha', hb.trans hb'⟩
    have hJ : Lasting fun s => ∀ x ∈ m.list.zip (keys.zip values), Maps id x s :=
      fun s s' hs hsteps h x hx => maps_lasting id x s s' hs hsteps (h x hx)
    refine .bind (WalksUnder.forIn hJ _ _ (fun x hx _ => ?_) s₃ hmaps) fun _ s₄ _ _ => .inst
    refine .seq hJ (fun s h => ?_) fun _ => .of_walks
    obtain ⟨m', n', hm', hk', hx', hn', ha', hb'⟩ := h x hx
    have hpresent : x.2.1 ≠ 0 := hkeys.2 _ (List.of_mem_zip (List.of_mem_zip hx).2).1
    exact .modify fun _ => .single (.edit rfl rfl rfl ⟨rfl, rfl, rfl, rfl⟩
      (Tree.refines_modify_pair hm' hk' hx' hn' ha' hb' hpresent))
  · exact .inst

end

namespace Walks

variable (rec : Resolver) [ResolverWalks rec]

omit [ResolverWalks rec] in
instance (target : NodeId) : Walks (assignable target) := by
  unfold assignable
  refine bind fun tn => ?_
  split
  · refine bind fun s => ?_
    split <;> infer_instance
  all_goals infer_instance

instance (id : NodeId) : Walks (resolveAssign rec id) := by
  unfold resolveAssign
  refine bind fun _ => bind fun target => bind fun _ => bind fun value => bind fun _ => bind fun _ => ite inferInstance ?_
  refine bind fun n => bind fun ok => ite inferInstance (bind fun t => ite ?_ ?_)
  · infer_instance
  · infer_instance

/-! ## Access -/

instance (id : NodeId) : Walks (resolveIndex rec id) := by
  unfold resolveIndex
  refine bind fun _ => bind fun x => bind fun _ => bind fun k => bind fun _ => bind fun _ => ite inferInstance ?_
  refine bind fun t => ?_
  split
  case h_4 =>
    refine bind fun _ => bind fun kn => ?_
    split <;> infer_instance
  all_goals infer_instance

instance (id : NodeId) : Walks (resolveMember rec id) := by
  have found (i : Nat) : Walks (modifyResult fun r => { r with fields := r.fields.insert id i }) :=
    noteResult fun _ => ⟨rfl, rfl, rfl, rfl, rfl⟩
  unfold resolveMember
  refine bind fun _ => bind fun x => bind fun _ => ite inferInstance (bind fun n => bind fun t => ?_)
  dsimp only
  split
  · split <;> infer_instance
  all_goals infer_instance

/-! ## Literals -/

instance (ids : List NodeId) : Walks (elemTypes? rec ids) := by
  induction ids with
  | nil => exact inferInstanceAs (Walks (pure _))
  | cons e rest ih => unfold elemTypes?; infer_instance

instance (id : NodeId) : Walks (resolveTuple rec id) := by
  unfold resolveTuple
  refine bind fun _ => bind fun found => ?_
  split <;> infer_instance

omit [ResolverWalks rec] in
instance (id : NodeId) (list : List NodeId) : Walks (anonymousStruct id list) := by
  unfold anonymousStruct; infer_instance

omit [ResolverWalks rec] in
instance (st : TypeId) (fields : List TyField) (seen : List String) (f : NodeId) :
    Walks (structField st fields seen f) := by
  unfold structField
  refine bind fun fn => ?_
  split <;> infer_instance

instance (id : NodeId) : Walks (resolveStruct rec id) := by
  unfold resolveStruct
  refine bind fun n => bind fun ready => ite inferInstance (ite inferInstance (bind fun st => bind fun _ => ?_))
  refine ite inferInstance (bind fun t => ?_)
  split <;> infer_instance

/-! ## Conversions and tests -/

instance (id : NodeId) : Walks (resolveCast rec id) := by
  unfold resolveCast
  refine bind fun _ => bind fun source => bind fun _ => bind fun target => bind fun _ => bind fun _ => ite inferInstance ?_
  exact bind fun ok => ite inferInstance inferInstance

instance (id : NodeId) : Walks (resolveTypeIs rec id) := by
  have fold (b : Int) : Walks (Analysis.modifyNode id fun n => { n with flags := n.flags.union .folded, int := b }) :=
    modifyNode id fun n => ⟨⟨.inl rfl, rfl, rfl, .inr rfl, fun _ _ => rfl⟩, rfl, rfl⟩
  unfold resolveTypeIs
  infer_instance

end Walks

section

variable (rec : Resolver) [ResolverWalks rec]

theorem resolveExpr_from {s : Analysis} {id : NodeId} {n : Node} (hn : s.result.tree.get? id = some n) :
    WalksFrom s (resolveExpr rec id n) := by
  unfold resolveExpr
  split
  case h_6 hk => exact resolveBinary_under rec id s ⟨n, hn, by rw [hk]; decide⟩
  case h_7 hk => exact resolveUnary_under rec id s ⟨n, hn, by rw [hk]; decide⟩
  case h_9 hk => exact resolveCall_under rec id s ⟨n, hn, by rw [hk]; decide⟩
  case h_12 hk => exact resolveArray_under rec id s ⟨n, hn, by rw [hk]; decide⟩
  case h_13 hk => exact resolveMap_under rec id s ⟨n, hn, by rw [hk]; decide⟩
  all_goals exact .inst

end

/-! ## Statements -/

namespace Walks

variable (rec : Resolver) [ResolverWalks rec]

instance (id : NodeId) (list : List NodeId) : Walks (resolveList rec id list) := by unfold resolveList; infer_instance

omit [ResolverWalks rec] in
instance (id : NodeId) (n : Node) : Walks (resolveImport id n) := by
  unfold resolveImport
  refine bind fun tab => bind fun scope => ?_
  infer_instance

instance (cond : NodeId) : Walks (condition rec cond) := by unfold condition; infer_instance

instance (id : NodeId) (n : Node) : Walks (resolveLet rec id n) := by
  unfold resolveLet
  refine ite inferInstance (bind fun s => ?_)
  split
  · infer_instance
  · refine bind fun t => ite inferInstance (bind fun init => bind fun _ => bind fun _ => ite inferInstance ?_)
    infer_instance

instance (id : NodeId) (n : Node) : Walks (resolveFunc rec id n) := by
  unfold resolveFunc
  refine bind fun s => ?_
  dsimp only
  split <;> infer_instance

instance (id : NodeId) (n : Node) : Walks (resolveTypeDecl rec id n) := by
  unfold resolveTypeDecl
  refine bind fun s => ?_
  dsimp only
  split <;> infer_instance

omit [ResolverWalks rec] in
instance (id : NodeId) (fn : SymbolId) (inferred : Bool) (want got : TypeId) :
    Walks (checkReturn id fn inferred want got) := by
  unfold checkReturn
  refine bind fun n => bind fun t => ?_
  infer_instance

instance (id : NodeId) (n : Node) : Walks (resolveReturn rec id n) := by
  unfold resolveReturn
  refine bind fun tab => bind fun scope => ite inferInstance (bind fun sc => bind fun want => bind fun _ => ?_)
  refine bind fun got => bind fun _ => bind fun _ => ite inferInstance ?_
  exact bind fun info => bind fun n => inferInstance

instance (id : NodeId) (n : Node) : Walks (resolveForeach rec id n) := by
  unfold resolveForeach
  refine bind fun found => ?_
  obtain ⟨value, key⟩ := found
  infer_instance

omit [ResolverWalks rec] in
instance (st : TypeId) (variants : List TyField) (arms : Arms) (arm : NodeId) :
    Walks (checkArm st variants arms arm) := by
  unfold checkArm
  refine bind fun cn => ite inferInstance ?_
  split
  · split <;> infer_instance
  · infer_instance

instance (st : TypeId) (variants : List TyField) (arms : Arms) (arm : NodeId) :
    Walks (resolveArm rec st variants arms arm) := by
  have tagged (tag : Int) : Walks (modifyResult fun r => { r with cases := r.cases.insert arm tag }) :=
    noteResult fun _ => ⟨rfl, rfl, rfl, rfl, rfl⟩
  unfold resolveArm
  refine bind fun found => ?_
  obtain ⟨tag, arms⟩ := found
  infer_instance

instance (id : NodeId) (n : Node) : Walks (resolveMatch rec id n) := by
  unfold resolveMatch
  refine bind fun st => ?_
  dsimp only
  refine bind fun r => ite inferInstance (bind fun t => ?_)
  split
  · refine bind fun arms => ?_
    infer_instance
  · infer_instance

end Walks

section

variable (rec : Resolver) [ResolverWalks rec]

theorem resolveKind_from {s : Analysis} {id : NodeId} {n : Node} (hn : s.result.tree.get? id = some n) :
    WalksFrom s (resolveKind rec id n) := by
  unfold resolveKind
  split
  case h_20 => exact .ite (fun _ => .inst) fun _ => resolveExpr_from rec hn
  all_goals exact .inst

instance (id : NodeId) : Walks (resolveStep rec id) := by
  refine ⟨fun s => ?_⟩
  unfold resolveStep
  refine .ite (fun _ => .inst) fun _ => .node_bind fun n hn => .ite (fun _ => .inst) fun _ => .get_bind ?_
  refine .ite (fun _ => .inst) fun _ => .bind (.modify fun _ => steps_note rfl rfl rfl rfl ⟨rfl, rfl, rfl, rfl⟩) fun _ s₁ h₁ _ => ?_
  cases h₁
  refine .bind (resolveKind_from rec hn) fun t s₂ _ _ => ?_
  exact .bind (.modify fun _ => steps_note rfl rfl rfl rfl ⟨rfl, rfl, rfl, rfl⟩) fun _ _ _ _ => .inst

end

instance (fuel : Nat) : ResolverWalks (resolver fuel) := by
  induction fuel with
  | zero => exact ⟨fun _ => inferInstanceAs (Walks (throw _)), fun _ => inferInstanceAs (Walks (throw _)),
      fun _ => inferInstanceAs (Walks (throw _))⟩
  | succ fuel ih => exact ⟨fun id => inferInstanceAs (Walks (resolveStep _ id)),
      fun id => inferInstanceAs (Walks (typeExprStep _ id)), fun id => inferInstanceAs (Walks (varTypeStep _ id))⟩

/-! ## The run -/

namespace Walks

theorem traced (name : String) (parent : Nat) (extra : Analysis → List (String × String)) {step : Nat → AnalysisM Unit}
    (h : ∀ span, Walks (step span)) : Walks (traced name parent extra step) := by
  refine seq ⟨fun s => .modifyGet fun _ => steps_note rfl rfl rfl rfl ⟨rfl, rfl, rfl, rfl⟩⟩ fun span => seq (h _) fun _ => ?_
  exact note fun _ => ⟨rfl, rfl, rfl, rfl⟩

variable (rec : Resolver) [ResolverWalks rec]

instance (fn : SymbolId) : Walks (resolveBody rec fn) := by
  unfold resolveBody
  infer_instance

theorem visitGrowing (list : Analysis → Array α) {visit : α → AnalysisM Unit} (h : ∀ a, Walks (visit a)) (fuel : Nat) :
    ∀ i, Walks (visitGrowing list visit fuel i) := by
  induction fuel with
  | zero => exact fun _ => inferInstanceAs (Walks (throw _))
  | succ fuel ih =>
    intro i
    unfold Analysis.visitGrowing
    refine bind fun s => ?_
    split
    · infer_instance
    · exact seq (h _) fun _ => ih _

instance : Walks (sweep rec) := by
  unfold sweep
  refine seq (note fun _ => ⟨rfl, rfl, rfl, rfl⟩) fun _ => bind fun t => bind fun _ => ?_
  exact seq (visitGrowing _ (fun fn => inferInstance) _ _) fun _ => visitGrowing _ (fun id => inferInstance) _ _

instance (parent : Nat) : Walks (tracedSweep rec parent) := by
  unfold tracedSweep
  exact seq (noteResult fun _ => ⟨rfl, rfl, rfl, rfl, rfl⟩) fun _ => traced _ _ _ fun _ => inferInstance

instance (parent budget : Nat) : Walks (resolveSweeps rec parent budget) := by
  induction budget using Nat.strongRecOn with
  | ind budget ih =>
    unfold resolveSweeps
    split
    · exact seq (note fun _ => ⟨rfl, rfl, rfl, rfl⟩) fun _ => inferInstance
    · refine bind fun _ => bind fun s => ite inferInstance (ih _ ?_)
      split <;> omega

instance : Walks run := by
  unfold run
  refine seq (traced _ _ _ fun _ => inferInstance) fun _ => bind fun t => ?_
  exact bind fun s => traced _ _ _ fun _ => inferInstance

end Walks

/-! ## The initial state -/

theorem empty_laid (tree : Tree) : ScopeTable.Laid tree {} := by
  have hroot : ∀ (id : Nat) sc, ({} : ScopeTable).scope? id = some sc → id = 1 ∧ sc = { kind := .nameSpace } := by
    intro id sc h
    obtain ⟨h0, hle⟩ := ScopeTable.scope?_lt h
    have hid : id = 1 := Nat.le_antisymm hle h0
    subst hid
    cases h
    exact ⟨rfl, rfl⟩
  have hnone : ∀ (id : Nat) sym, ({} : ScopeTable).symbol? id ≠ some sym := by
    intro id sym h
    obtain ⟨h0, hle⟩ := ScopeTable.symbol?_lt h
    exact absurd (Nat.lt_of_lt_of_le h0 hle) (Nat.lt_irrefl _)
  refine ⟨fun id sc h => ?_, fun id sc h => ?_, fun id sym h => absurd h (hnone id sym),
    fun id sym h => absurd h (hnone id sym), fun id sc h hk => ?_, fun id sym h => absurd h (hnone id sym),
    fun id sym h => absurd h (hnone id sym)⟩
  · obtain ⟨rfl, rfl⟩ := hroot id sc h
    exact Nat.zero_lt_one
  · obtain ⟨-, rfl⟩ := hroot id sc h
    simp
  · obtain ⟨-, rfl⟩ := hroot id sc h
    cases hk

theorem declareBuiltins_keeps (tree : Tree) : ScopeTable.Keeps tree {} (declareBuiltins {}) := by
  unfold declareBuiltins
  refine List.foldlRecOn _ _ (.refl ..) fun tab h p _ => ?_
  have hi := h.trans (ScopeTable.keeps_intern p.1)
  dsimp only
  split
  · rename_i id tab' hdecl
    refine hi.trans (ScopeTable.keeps_declare hdecl rfl (fun _ => ?_) nofun (fun _ => .none)
      (ScopeTable.not_deferred_of_storage rfl))
    exact ScopeTable.grows_size hi.grows
  · exact hi

theorem initial_sound (tree : Tree) (options : AnalysisOptions) (tracer : Tracer) :
    Sound (initial tree options tracer) :=
  ⟨(declareBuiltins_keeps tree).laid (empty_laid tree), ScopeTable.grows_size (declareBuiltins_keeps tree).grows,
    fun fn info h => by cases h⟩

end Analysis

theorem Tree.analyze_steps (tree : Tree) (options : AnalysisOptions) (tracer : Tracer) :
    Analysis.Steps (.initial tree options tracer) (tree.analyze options tracer).state := by
  have h := (inferInstance : Analysis.Walks Analysis.run).walks _ (Analysis.initial_sound tree options tracer)
  unfold Analysis.after at h
  unfold Tree.analyze EStateM.run
  cases hrun : Analysis.run (.initial tree options tracer) with
  | ok _ _ =>
    rw [hrun] at h
    exact h
  | error _ _ =>
    rw [hrun] at h
    exact h

theorem Tree.analyze_sound (tree : Tree) (options : AnalysisOptions) (tracer : Tracer) :
    Analysis.Sound (tree.analyze options tracer).state :=
  (analyze_steps tree options tracer).sound (Analysis.initial_sound tree options tracer)

end TreeCompiler
