import TreeCompiler.Proofs.Emit.Supply

/-!
# Results of functions

What resolution returns for a node is the type that the node is completed with, or pending. The result of a function is the
type of its declared result, and one that declares none takes it from its return statements. A body that is an expression has
none, and its type is not looked at.

* `Analysis.Assigns` : what a part of resolution returns for a node, with an instance for every part;
* `Analysis.funcResult_ok` : where the result of a function comes from;
* `Analysis.Accords t info` : what is known of a function accords with its declaration in the tree `t`;
* `Tree.analyze_results` : it does for every function of an analyzed tree.
-/

namespace TreeCompiler

/-! ## Types that are returned -/

/-- The node `id` is completed with the type `ty`. -/
def Tree.HasType (t : Tree) (id : NodeId) (ty : TypeId) : Prop :=
  ∃ n, t.get? id = some n ∧ n.completed = true ∧ n.valueType = ty

namespace Analysis

variable {α : Type} {id : NodeId} {s s' : Analysis}

/-- Unless the type that `m` returns is pending, the node `id` is completed with it. -/
class Assigns (id : NodeId) (m : AnalysisM TypeId) : Prop where
  assigns : ∀ s t s', m s = .ok t s' → t = TypeTable.pending ∨ s'.result.tree.HasType id t

namespace Assigns

/-- What is returned depends on the last part only. -/
theorem bind {x : AnalysisM α} {f : α → AnalysisM TypeId} (h : ∀ a, Assigns id (f a)) : Assigns id (x >>= f) := by
  refine ⟨fun s t s' hrun => ?_⟩
  obtain ⟨a, s₁, -, hlast⟩ := bind_ok hrun
  exact (h a).assigns s₁ t s' hlast

instance {x : AnalysisM α} {f : α → AnalysisM TypeId} [h : ∀ a, Assigns id (f a)] : Assigns id (x >>= f) := bind h

theorem ite {c : Prop} [Decidable c] {x y : AnalysisM TypeId} (hx : Assigns id x) (hy : Assigns id y) :
    Assigns id (if c then x else y) := by
  split
  · exact hx
  · exact hy

instance {c : Prop} [Decidable c] {x y : AnalysisM TypeId} [hx : Assigns id x] [hy : Assigns id y] :
    Assigns id (if c then x else y) := ite hx hy

instance : Assigns id (pure TypeTable.pending) := ⟨fun s t s' h => by cases h; exact .inl rfl⟩

instance (k : NodeId) (cause : InternalCause) : Assigns id (internal k cause) := ⟨fun s t s' h => by cases h⟩

instance : Assigns id pendingType := by unfold pendingType; infer_instance

instance (t : TypeId) : Assigns id (finish id t) := by
  refine ⟨fun s t' s' hrun => ?_⟩
  unfold finish at hrun
  obtain ⟨n, s₁, hn, hrest⟩ := bind_ok hrun
  obtain ⟨rfl, hn⟩ := node_ok hn
  obtain ⟨resolved, s₂, hresolved, hrest⟩ := bind_ok hrest
  cases hresolved
  split at hrest
  · obtain ⟨_, s₃, hset, hrest⟩ := bind_ok hrest
    cases hset
    have htype : (s₁.result.tree.modify id fun n => { n with valueType := t, completed := true }).HasType id t :=
      ⟨{ n with valueType := t, completed := true }, by rw [Tree.get?_modify, if_pos rfl, hn]; rfl, rfl, rfl⟩
    split at hrest
    · obtain ⟨_, s₄, hprogress, hrest⟩ := bind_ok hrest
      cases hprogress
      cases hrest
      exact .inr htype
    · cases hrest
      exact .inr htype
  · obtain ⟨_, s₃, -, hrest⟩ := bind_ok hrest
    obtain ⟨_, s₄, -, hrest⟩ := bind_ok hrest
    cases hrest
    exact .inl rfl

instance : Assigns id (fail id) := inferInstanceAs (Assigns id (finish id _))

instance : Assigns id (pendingOrFail id) := by unfold pendingOrFail; infer_instance

instance (parts : List TypeId) : Assigns id (settle id parts) := by unfold settle; infer_instance

instance (t : TypeId) : Assigns id (finishRef id t) := by unfold finishRef; infer_instance

variable (rec : Resolver)

/-! ### Calls -/

instance (state : ArgState) : Assigns id (waitForArgs id state) := by unfold waitForArgs; infer_instance

instance (callee : NodeId) (c : Candidate) (acts : List Actual) (method : Bool) :
    Assigns id (finishCall rec id callee c acts method) := by
  unfold finishCall
  refine bind fun ft => bind fun _ => ite inferInstance (bind fun info => bind fun _ => bind fun sym => ?_)
  dsimp only
  infer_instance

instance (cands : List SymbolId) : Assigns id (callOverloads rec id cands) := by
  unfold callOverloads
  refine bind fun args => ite inferInstance (bind fun n => bind fun cn => ?_)
  have hselect (explicit : Option (List TypeId)) : Assigns id (do
      match ← selectOverload rec (← query id) cands explicit args.acts args.spread with
      | .pending => pendingOrFail id
      | .chosen c _ => finishCall rec id n.a c args.acts false
      | sel =>
        reportSelection id cn.qualifiedName sel args.acts
        discard <| fail n.a
        fail id) := by
    refine bind fun q => bind fun sel => ?_
    split <;> infer_instance
  exact ite (bind fun r => hselect r) (bind fun r => hselect _)

instance (ft : TypeId) (args : CallArgs) : Assigns id (callTyped id ft args) := by
  unfold callTyped
  refine bind fun n => bind fun t => ?_
  split
  · refine bind fun ts => ?_
    split <;> infer_instance
  · infer_instance
  · infer_instance

instance : Assigns id (callValue rec id) := by unfold callValue; infer_instance

instance (variant : SymbolId) : Assigns id (callVariant rec id variant) := by
  unfold callVariant
  refine bind fun (payload, union) => bind fun _ => bind fun _ => bind fun _ => ite inferInstance (bind fun n => ?_)
  dsimp only
  split
  · infer_instance
  · exact ite inferInstance (bind fun an => ite inferInstance (bind fun _ => ite inferInstance (bind fun _ => inferInstance)))

instance : Assigns id (abandonCall rec id) := by unfold abandonCall; infer_instance

instance : Assigns id (callNamed rec id) := by
  unfold callNamed
  refine bind fun n => bind fun cn => bind fun ready => ite inferInstance (bind fun r => ?_)
  split
  · refine bind fun sym => ?_
    split <;> infer_instance
  · infer_instance

instance (args : CallArgs) : Assigns id (callField rec id args) := by unfold callField; infer_instance

instance : Assigns id (callMember rec id) := by
  unfold callMember
  refine bind fun n => bind fun m => bind fun recv => bind fun args => ite inferInstance ?_
  refine bind fun _ => ite inferInstance (bind fun rt => bind fun cn => ?_)
  dsimp only
  refine ite inferInstance (bind fun set? => ?_)
  split
  · infer_instance
  · refine bind fun (found, sel) => ?_
    dsimp only
    split <;> infer_instance

instance : Assigns id (resolveCall rec id) := by
  unfold resolveCall
  refine bind fun n => bind fun cn => ?_
  split <;> infer_instance

/-! ### Expressions -/

instance (n : Node) : Assigns id (resolveName rec id n) := by
  unfold resolveName
  refine bind fun ready => ite inferInstance (bind fun r => ?_)
  split
  · refine bind fun sym => ?_
    split
    · refine bind fun r => ?_
      split <;> infer_instance
    · refine bind fun r => ?_
      split <;> infer_instance
    · refine bind fun r => ?_
      split <;> infer_instance
    · refine bind fun (payload, union) => ?_
      infer_instance
    · infer_instance
  · infer_instance

instance (operands : List NodeId) : Assigns id (rewriteOperator rec id operands) := by unfold rewriteOperator; infer_instance

instance : Assigns id (resolveBinary rec id) := by
  unfold resolveBinary
  refine bind fun _ => bind fun l => bind fun _ => bind fun r => bind fun _ => bind fun _ => ite inferInstance ?_
  refine bind fun n => bind fun t => ?_
  split <;> infer_instance

instance : Assigns id (resolveUnary rec id) := by
  unfold resolveUnary
  refine bind fun _ => bind fun x => bind fun _ => ite inferInstance (bind fun n => bind fun t => ?_)
  split <;> infer_instance

instance : Assigns id (resolveAssign rec id) := by
  unfold resolveAssign
  refine bind fun _ => bind fun target => bind fun _ => bind fun value => bind fun _ => bind fun _ => ite inferInstance ?_
  infer_instance

instance : Assigns id (resolveIndex rec id) := by
  unfold resolveIndex
  refine bind fun _ => bind fun x => bind fun _ => bind fun k => bind fun _ => bind fun _ => ite inferInstance ?_
  refine bind fun t => ?_
  split
  · infer_instance
  · infer_instance
  · infer_instance
  · refine bind fun _ => bind fun kn => ?_
    split <;> infer_instance
  · infer_instance
  · infer_instance

instance : Assigns id (resolveMember rec id) := by
  unfold resolveMember
  refine bind fun _ => bind fun x => bind fun _ => ite inferInstance (bind fun n => bind fun t => ?_)
  dsimp only
  split
  · split <;> infer_instance
  · infer_instance
  · infer_instance

instance : Assigns id (resolveArray rec id) := by
  unfold resolveArray
  refine bind fun n => bind fun r => ?_
  split <;> infer_instance

instance : Assigns id (resolveMap rec id) := by
  unfold resolveMap
  refine bind fun n => bind fun entries => bind fun keys => bind fun values => ?_
  split <;> infer_instance

instance : Assigns id (resolveTuple rec id) := by
  unfold resolveTuple
  refine bind fun n => bind fun r => ?_
  split <;> infer_instance

instance (list : List NodeId) : Assigns id (anonymousStruct id list) := by unfold anonymousStruct; infer_instance

instance : Assigns id (resolveStruct rec id) := by
  unfold resolveStruct
  refine bind fun n => bind fun ready => ite inferInstance (ite inferInstance (bind fun st => bind fun _ => ite inferInstance ?_))
  refine bind fun t => ?_
  split <;> infer_instance

instance : Assigns id (resolveCast rec id) := by
  unfold resolveCast
  refine bind fun _ => bind fun source => bind fun _ => bind fun target => bind fun _ => bind fun _ => ite inferInstance ?_
  infer_instance

instance : Assigns id (resolveTypeIs rec id) := by
  unfold resolveTypeIs
  exact bind fun _ => bind fun _ => bind fun _ => bind fun _ => bind fun _ => bind fun _ => ite inferInstance (bind fun _ => inferInstance)

instance (n : Node) : Assigns id (resolveExpr rec id n) := by
  unfold resolveExpr
  split <;> infer_instance

/-! ### Types and statements -/

/-- A node that is completed already keeps its type. -/
theorem unless_completed {f : Node → AnalysisM TypeId} (h : ∀ n, Assigns id (f n)) : Assigns id (do
    let n ← node id
    if n.completed then return n.valueType
    f n) := by
  refine ⟨fun s t s' hrun => ?_⟩
  obtain ⟨n, s₁, hn, hrest⟩ := bind_ok hrun
  obtain ⟨rfl, hn⟩ := node_ok hn
  split at hrest
  · cases hrest
    exact .inr ⟨n, hn, ‹_›, rfl⟩
  · exact (h n).assigns _ _ _ hrest

theorem typeExprStep (h0 : id ≠ 0) : Assigns id (typeExprStep rec id) := by
  unfold Analysis.typeExprStep
  rw [if_neg h0]
  refine unless_completed fun n => ?_
  split
  · infer_instance
  · infer_instance
  · infer_instance
  · refine bind fun r => ?_
    split <;> infer_instance
  · refine bind fun r => bind fun result => bind fun _ => ?_
    split <;> infer_instance
  · infer_instance
  · infer_instance

instance (list : List NodeId) : Assigns id (resolveList rec id list) := by unfold resolveList; infer_instance

instance (n : Node) : Assigns id (resolveImport id n) := by unfold resolveImport; infer_instance

instance (n : Node) : Assigns id (resolveLet rec id n) := by
  unfold resolveLet
  refine ite inferInstance (bind fun s => ?_)
  split <;> infer_instance

instance (n : Node) : Assigns id (resolveFunc rec id n) := by
  unfold resolveFunc
  refine bind fun s => ?_
  dsimp only
  split <;> infer_instance

instance (n : Node) : Assigns id (resolveTypeDecl rec id n) := by
  unfold resolveTypeDecl
  refine bind fun s => ?_
  dsimp only
  split <;> infer_instance

instance (n : Node) : Assigns id (resolveReturn rec id n) := by
  unfold resolveReturn
  refine bind fun tab => bind fun scope => ?_
  dsimp only
  infer_instance

instance (n : Node) : Assigns id (resolveForeach rec id n) := by
  unfold resolveForeach
  exact bind fun (value, key) => inferInstance

instance (n : Node) : Assigns id (resolveMatch rec id n) := by
  unfold resolveMatch
  refine bind fun st => ?_
  dsimp only
  refine bind fun known => ite inferInstance (bind fun t => ?_)
  split <;> infer_instance

theorem resolveKind (h0 : id ≠ 0) (n : Node) : Assigns id (resolveKind rec id n) := by
  have htype := typeExprStep rec h0
  unfold Analysis.resolveKind
  split <;> infer_instance

theorem resolveStep (h0 : id ≠ 0) : Assigns id (resolveStep rec id) := by
  unfold Analysis.resolveStep
  rw [if_neg h0]
  refine unless_completed fun n => bind fun s => ite inferInstance (bind fun _ => ?_)
  refine ⟨fun s t s' hrun => ?_⟩
  obtain ⟨t, s₁, hkind, hrest⟩ := bind_ok hrun
  obtain ⟨_, s₂, hleave, hrest⟩ := bind_ok hrest
  cases hleave
  cases hrest
  have h := (resolveKind rec h0 n).assigns _ _ _ hkind
  exact h

/-- What resolution returns for a node. -/
theorem resolver_resolve {fuel : Nat} {t : TypeId} (h0 : id ≠ 0) (h : (resolver fuel).resolve id s = .ok t s') :
    t = TypeTable.pending ∨ s'.result.tree.HasType id t := by
  cases fuel with
  | zero => cases h
  | succ fuel => exact (resolveStep _ h0).assigns _ _ _ h

theorem resolver_typeExpr {fuel : Nat} {t : TypeId} (h0 : id ≠ 0) (h : (resolver fuel).typeExpr id s = .ok t s') :
    t = TypeTable.pending ∨ s'.result.tree.HasType id t := by
  cases fuel with
  | zero => cases h
  | succ fuel => exact (typeExprStep _ h0).assigns _ _ _ h

end Assigns

/-! ## The result of a function -/

/-- The return statement `r` is met on the way from `s` to `s'`, where its value is completed with the type `t`. Without a
value the type is void. -/
def Returns (s s' : Analysis) (r : NodeId) (t : TypeId) : Prop :=
  ∃ s₁ n, Steps s s₁ ∧ s₁.result.tree.Refines s'.result.tree ∧ s₁.result.tree.get? r = some n ∧
    if n.a = 0 then t = TypeTable.void else s'.result.tree.HasType n.a t

theorem firstReturn_ok {fuel : Nat} {rs : List NodeId} {t : TypeId} (hs : Sound s)
    (h : firstReturn (resolver fuel) rs s = .ok t s') : t = TypeTable.pending ∨ ∃ r ∈ rs, Returns s s' r t := by
  induction rs generalizing s with
  | nil =>
    cases h
    exact .inl rfl
  | cons r rest ih =>
    obtain ⟨n, s₁, hnode, hrest⟩ := bind_ok h
    obtain ⟨rfl, hn⟩ := node_ok hnode
    dsimp only at hrest
    split at hrest
    · rename_i h0
      cases hrest
      exact .inr ⟨r, List.mem_cons_self .., _, n, .refl, .refl _, hn, (if_pos h0).symm ▸ rfl⟩
    · rename_i h0
      obtain ⟨t', s₂, hvalue, hrest⟩ := bind_ok hrest
      have hw : Steps s₁ s₂ := WalksFrom.inst.of_ok hs hvalue
      obtain ⟨resolved, s₃, hresolved, hrest⟩ := bind_ok hrest
      cases hresolved
      split at hrest
      · cases hrest
        exact (Assigns.resolver_resolve h0 hvalue).imp_right fun htype =>
          ⟨r, List.mem_cons_self .., _, n, .refl, hw.refines, hn, (if_neg h0).symm ▸ htype⟩
      · refine (ih (hw.sound hs) hrest).imp_right ?_
        rintro ⟨r', hr', s₄, m, h₁, h₂, hm, hif⟩
        exact ⟨r', List.mem_cons_of_mem _ hr', s₄, m, hw.trans h₁, h₂, hm, hif⟩

theorem keepResult_ok {fn : SymbolId} {u t : TypeId} (h : (do
    if ← isResolved u then modifyFunc fn fun i => { i with result := u }
    return u : AnalysisM TypeId) s = .ok t s') : u = t ∧ s'.result = s.result := by
  obtain ⟨resolved, s₁, hresolved, h⟩ := bind_ok h
  cases hresolved
  split at h
  · obtain ⟨_, s₂, hkeep, h⟩ := bind_ok h
    obtain ⟨info, s₃, hinfo, hset⟩ := bind_ok hkeep
    obtain ⟨rfl, -⟩ := funcInfo_ok hinfo
    cases hset
    cases h
    exact ⟨rfl, rfl⟩
  · cases h
    exact ⟨rfl, rfl⟩

theorem whileTyping_ok {sym : SymbolId} {step : AnalysisM α} {a : α} (h : whileTyping sym step s = .ok a s') :
    ∃ s₁, step { s with typing := s.typing.insert sym () } = .ok a s₁ ∧ s' = { s₁ with typing := s₁.typing.erase sym } := by
  obtain ⟨_, s₁, hmark, h⟩ := bind_ok h
  cases hmark
  obtain ⟨a, s₁, hstep, h⟩ := bind_ok h
  obtain ⟨_, s₂, hclear, h⟩ := bind_ok h
  cases hclear
  cases h
  exact ⟨s₁, hstep, rfl⟩

/-- The result of a function is the one that is known of it, or else the type that its declared result is completed with.
Without a declaration it is the type of a return statement, and void if none is recorded, whatever the body is. -/
theorem funcResult_ok {fuel : Nat} {fn : SymbolId} {t : TypeId} (hs : Sound s) (h : funcResult (resolver fuel) fn s = .ok t s')
    (ht : t ≠ TypeTable.pending) : ∃ info, s.funcs.get? fn = some info ∧ (t = info.result ∨
      ∃ n, s.result.tree.get? info.node = some n ∧
        if n.a ≠ 0 then s'.result.tree.HasType n.a t
        else if info.returns = [] then t = TypeTable.void
        else ∃ r ∈ info.returns, Returns s s' r t) := by
  obtain ⟨info, s₁, hinfo, hrest⟩ := bind_ok h
  obtain ⟨rfl, hinfo⟩ := funcInfo_ok hinfo
  refine ⟨info, hinfo, ?_⟩
  obtain ⟨known, s₂, hknown, hrest⟩ := bind_ok hrest
  cases hknown
  dsimp only at hrest
  split at hrest
  · cases hrest
    exact .inl rfl
  obtain ⟨n, s₂, hnode, hresult⟩ := bind_ok hrest
  obtain ⟨rfl, hn⟩ := node_ok hnode
  refine .inr ⟨n, hn, ?_⟩
  by_cases ha : n.a ≠ 0
  · rw [if_pos ha] at hresult ⊢
    obtain ⟨u, s₃, htype, hkeep⟩ := bind_ok hresult
    obtain ⟨rfl, hsame⟩ := keepResult_ok hkeep
    rw [hsame]
    exact (Assigns.resolver_typeExpr ha htype).resolve_left ht
  · rw [if_neg ha] at hresult ⊢
    by_cases hnone : info.returns.isEmpty = true
    · rw [if_pos hnone] at hresult
      rw [if_pos (List.isEmpty_iff.1 hnone)]
      exact (keepResult_ok hresult).1.symm
    · rw [if_neg hnone] at hresult
      rw [if_neg (mt List.isEmpty_iff.2 hnone)]
      obtain ⟨typing, s₃, htyping, hinferred⟩ := bind_ok hresult
      cases htyping
      split at hinferred
      · cases hinferred
        exact absurd rfl ht
      · obtain ⟨s₄, hstep, rfl⟩ := whileTyping_ok hinferred
        obtain ⟨u, s₅, hfirst, hkeep⟩ := bind_ok hstep
        obtain ⟨rfl, hsame⟩ := keepResult_ok hkeep
        have hmarked : Steps s₂ { s₂ with typing := s₂.typing.insert fn () } :=
          steps_note rfl rfl rfl rfl ⟨rfl, rfl, rfl, rfl⟩
        obtain ⟨r, hr, s₆, m, h₁, h₂, hm, hif⟩ := (firstReturn_ok (hmarked.sound hs) hfirst).resolve_left ht
        rw [← hsame] at h₂ hif
        exact ⟨r, hr, s₆, m, hmarked.trans h₁, h₂, hm, hif⟩

/-! ## Declarations -/

/-- The recorded statements are return statements, and without any of them a result that is not declared is void. -/
structure Accords (t : Tree) (info : FuncInfo) : Prop where
  returns : ∀ r ∈ info.returns, ∃ n, t.get? r = some n ∧ n.kind = .returnStmt
  result : ∀ n, t.get? info.node = some n → n.a = 0 → info.returns = [] → info.result = 0 ∨ info.result = TypeTable.void

/-- A function node keeps its declared result, so what was inferred without one was inferred for good. -/
theorem Accords.mono {t t' : Tree} {info : FuncInfo} (h : Accords t info) (hr : t.Refines t')
    (hf : ∃ n, t.get? info.node = some n ∧ n.kind = .func) : Accords t' info := by
  refine ⟨fun r hmem => ?_, fun n' hn' h0 hempty => ?_⟩
  · obtain ⟨n, hn, hk⟩ := h.returns r hmem
    obtain ⟨n', hn', g⟩ := hr.nodes r n hn
    exact ⟨n', hn', (g.kind_eq (by rw [hk]; decide)).trans hk⟩
  · obtain ⟨n, hn, hk⟩ := hf
    refine h.result n hn ?_ hempty
    by_contra ha
    exact hr.filled info.node n n' hn hn' (by rw [hk]; decide) ha h0

theorem Learns.accords {s : Analysis} {fn : SymbolId} {info : FuncInfo} (h : Learns s fn info)
    (hs : ∀ info, s.funcs.get? fn = some info → Accords s.result.tree info) : Accords s.result.tree info := by
  cases h with
  | body _ _ => exact ⟨List.forall_mem_nil _, fun _ _ _ _ => .inl rfl⟩
  | @returns info r n h hr hk =>
    refine ⟨fun x hx => ?_, fun n _ _ he => absurd he (by simp)⟩
    rcases List.mem_append.1 hx with hx | hx
    · exact (hs info h).returns x hx
    · rw [List.mem_singleton.1 hx]
      exact ⟨n, hr, hk⟩
  | @params info h _ _ => exact ⟨(hs info h).returns, (hs info h).result⟩
  | @result info h t ht => exact ⟨(hs info h).returns, fun n hn h0 he => .inr (ht n hn h0 he)⟩

/-- The function whose node is noted is declared by a function node. -/
theorem Sound.funcNode {s : Analysis} (hs : Sound s) {fn : SymbolId} {info : FuncInfo} (hi : s.funcs.get? fn = some info) :
    ∃ n, s.result.tree.get? info.node = some n ∧ n.kind = .func := by
  obtain ⟨sym, hsym, hk, hd⟩ := hs.infos fn info hi
  exact hd ▸ hs.laid.decls fn sym hsym hk

/-- What is known of every function accords with its declaration. -/
def Accordant (s : Analysis) : Prop := ∀ fn info, s.funcs.get? fn = some info → Accords s.result.tree info

theorem Step.accordant {s s' : Analysis} (h : Step s s') (hs : Sound s) (ha : Accordant s) : Accordant s' := by
  have same (funcs : s'.funcs = s.funcs) : Accordant s' := fun fn info hi =>
    (ha fn info (funcs ▸ hi)).mono h.refines (hs.funcNode (funcs ▸ hi))
  cases h with
  | edit _ _ _ kept _ => exact same kept.funcs
  | arrange _ _ _ kept _ => exact same kept.funcs
  | defer _ _ _ _ _ _ funcs _ _ _ _ => exact same funcs
  | learn fn info _ _ result funcs hl =>
    intro fn' info' hi
    rw [result]
    rw [funcs, IdMap.get?_insert] at hi
    split at hi
    · subst fn'
      cases hi
      exact hl.accords (ha fn)
    · exact ha fn' info' hi
  | _ => exact same rfl

theorem Steps.accordant {s s' : Analysis} (h : Steps s s') (hs : Sound s) (ha : Accordant s) : Accordant s' := by
  induction h with
  | refl => exact ha
  | tail h hstep ih => exact hstep.accordant (Steps.sound h hs) ih

end Analysis

/-- Every function of an analyzed tree is declared by a function node, and only return statements are recorded for it. If the
node declares no result and none is recorded, the result is void or was never asked for, whatever the body is. -/
theorem Tree.analyze_results (tree : Tree) (options : AnalysisOptions) (tracer : Tracer) :
    let s := (tree.analyze options tracer).state
    ∀ fn info, s.funcs.get? fn = some info → ∃ n, s.result.tree.get? info.node = some n ∧ n.kind = .func ∧
      (∀ r ∈ info.returns, ∃ m, s.result.tree.get? r = some m ∧ m.kind = .returnStmt) ∧
      (n.a = 0 → info.returns = [] → info.result = 0 ∨ info.result = TypeTable.void) := by
  intro s fn info hi
  have h : Analysis.Accordant s := (tree.analyze_steps options tracer).accordant (Analysis.initial_sound tree options tracer)
    fun fn info hi => by cases hi
  obtain ⟨n, hn, hk⟩ := (tree.analyze_sound options tracer).funcNode hi
  exact ⟨n, hn, hk, (h fn info hi).returns, (h fn info hi).result n hn⟩

/-- A function whose body is an expression, and a variable that takes its result. -/
def expressionBody : Tree where
  nodes := #[.intLit 1, .func "f" [] 0 1, .ident ["f"], .call 3 [], .letDecl "x" 0 4, { kind := .file, list := [2, 5] }]
  roots := [6]

/-- The function returns a number, and the variable gets an empty operand. -/
theorem expressionBody_loses_value :
    let e := expressionBody.analyze {} {}
    let u := e.state.result
    e.failure = none ∧ e.hasErrors = false ∧ (u.tree.get? 1).map (·.valueType) = some TypeTable.int ∧
    (e.state.funcs.get? 9).map (·.result) = some TypeTable.void ∧
    ∃ p table s, Emit.run (Emit.start u {} {}) = .ok (p, table) s ∧ ({ op := .ret, a := .int 1 } : Instr) ∈ p.code ∧
      ({ op := .mov, a := .global 0, b := .none } : Instr) ∈ p.code := by
  obtain ⟨hfailure, herrors, htype, hresult, hview⟩ :
      let e := expressionBody.analyze {} {}
      let u := e.state.result
      e.failure = none ∧ e.hasErrors = false ∧ (u.tree.get? 1).map (·.valueType) = some TypeTable.int ∧
        (e.state.funcs.get? 9).map (·.result) = some TypeTable.void ∧
        Emit.view? Emit.run (fun r _ => decide (({ op := .ret, a := .int 1 } : Instr) ∈ r.1.code ∧
          ({ op := .mov, a := .global 0, b := .none } : Instr) ∈ r.1.code)) (Emit.start u {} {}) = some true := by
    decide +kernel
  obtain ⟨r, s, hrun, hcode⟩ := Emit.view?_eq_some hview
  exact ⟨hfailure, herrors, htype, hresult, r.1, r.2, s, hrun, of_decide_eq_true hcode⟩

/-- A function whose body is an expression of another type than its result. -/
def uncheckedBody : Tree where
  nodes := #[
    .typeName ["int"], .realLit 0x3ff8000000000000, .func "f" [] 1 2, .ident ["f"], .call 4 [], .exprStmt 5,
    { kind := .file, list := [3, 6] }]
  roots := [7]

/-- A real number is returned where an integer is declared, without a cast. -/
theorem uncheckedBody_returns_real :
    let e := uncheckedBody.analyze {} {}
    let u := e.state.result
    e.failure = none ∧ e.hasErrors = false ∧ (e.state.funcs.get? 9).map (·.result) = some TypeTable.int ∧
    (u.tree.get? 3).map (·.b) = some 2 ∧ (u.tree.get? 2).map (·.valueType) = some TypeTable.real ∧
    u.types.accepts TypeTable.int TypeTable.real = false ∧
    ∃ p table s, Emit.run (Emit.start u {} {}) = .ok (p, table) s ∧
      ({ op := .ret, a := .real 0x3ff8000000000000 } : Instr) ∈ p.code := by
  obtain ⟨hfailure, herrors, hresult, hbody, htype, haccepts, hview⟩ :
      let e := uncheckedBody.analyze {} {}
      let u := e.state.result
      e.failure = none ∧ e.hasErrors = false ∧ (e.state.funcs.get? 9).map (·.result) = some TypeTable.int ∧
        (u.tree.get? 3).map (·.b) = some 2 ∧ (u.tree.get? 2).map (·.valueType) = some TypeTable.real ∧
        u.types.accepts TypeTable.int TypeTable.real = false ∧
        Emit.view? Emit.run (fun r _ => decide (({ op := .ret, a := .real 0x3ff8000000000000 } : Instr) ∈ r.1.code))
          (Emit.start u {} {}) = some true := by decide +kernel
  obtain ⟨r, s, hrun, hcode⟩ := Emit.view?_eq_some hview
  exact ⟨hfailure, herrors, hresult, hbody, htype, haccepts, r.1, r.2, s, hrun, of_decide_eq_true hcode⟩

end TreeCompiler
