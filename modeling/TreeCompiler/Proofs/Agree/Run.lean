import TreeCompiler.Analysis.Run
import TreeCompiler.Proofs.Agree.Expr

/-!
# Two runs in step: statements, and a whole analysis

The arms of a match name variants as they are written, and a match lists its arms, so each of them has one spelling.
Besides that, a statement is the same step in both runs. The three functions that resolution calls back then agree by
induction on the bound of its depth.

What a sweep does is the same even if only the second one is lenient. Whether it is strict is written into the trace and decided
by its limit, so for more than the inside of a sweep the runs must be strict together and have one limit.

* `resolveStep_agree` : the entry for every node;
* `agrees_resolver` : resolution agrees with itself under another spelling and a deeper speculation;
* `Pace.Steady`, `Pace.Whole` : paces for several sweeps and for a whole analysis;
* `Agree.visitGrowing` : a list that grows while it is visited is the same in both runs;
* `agree_run` : the analysis of a unit; `Tree.analyze_agree` : how two of them end.
-/

/-! ## Statements -/

namespace TreeCompiler.Analysis

variable {g : Pace} {F : List NodeId}

namespace Agree

variable {rec : Resolver} [Agrees g rec]

instance (id : NodeId) (list : List NodeId) : Agree g F (resolveList rec id list) (resolveList rec id list) := by
  unfold resolveList
  infer_instance

omit [Agrees g rec] in
instance (id : NodeId) (n : Node) (w : Spelling) [hs : g.Spells n w] :
    Agree g F (resolveImport id n) (resolveImport id (n.spelled w)) := by
  unfold resolveImport
  refine scopes_bind fun t t' ht => bind fun owner => ?_
  have himport : g.SpellsImport { path := n.path, fromGlobal := n.fromGlobal, span := n.span }
      { path := w.path, fromGlobal := n.fromGlobal, span := n.span } := ⟨w.path, rfl, hs.path⟩
  have hglobal : (n.spelled w).fromGlobal = n.fromGlobal := rfl
  dsimp only
  rw [hglobal, ht.resolveImport? himport]
  exact ite (seq (reportAs (by rfl) _) fun _ => inferInstance) inferInstance

instance (cond : NodeId) : Agree g F (condition rec cond) (condition rec cond) := by
  unfold condition
  exact bind fun t => bind fun _ => ite (bind fun ts => inferInstance) inferInstance

/-! ## Declarations -/

instance (id : NodeId) (n : Node) (w : Spelling) : Agree g F (resolveLet rec id n) (resolveLet rec id (n.spelled w)) := by
  unfold resolveLet
  refine ite inferInstance ⟨fun s v => .get_bind ?_⟩
  dsimp only
  split
  · exact .inst
  · suffices hlet : Agree g F _ _ from hlet.agrees s v
    exact bind fun t => ite inferInstance (bind fun init => bind fun _ => bind fun _ => ite inferInstance inferInstance)

instance (id : NodeId) (n : Node) (w : Spelling) :
    Agree g F (resolveFunc rec id n) (resolveFunc rec id (n.spelled w)) := by
  have hgeneric : (n.spelled w).isGeneric = n.isGeneric := rfl
  unfold resolveFunc
  refine ⟨fun s v => .get_bind ?_⟩
  dsimp only
  rw [hgeneric]
  split <;> exact .inst

instance (id : NodeId) (n : Node) (w : Spelling) :
    Agree g F (resolveTypeDecl rec id n) (resolveTypeDecl rec id (n.spelled w)) := by
  have hgeneric : (n.spelled w).isGeneric = n.isGeneric := rfl
  unfold resolveTypeDecl
  refine ⟨fun s v => .get_bind ?_⟩
  dsimp only
  rw [hgeneric]
  split <;> exact .inst

omit [Agrees g rec] in
instance (id : NodeId) (fn : SymbolId) (inferred : Bool) (want got : TypeId) :
    Agree g F (checkReturn id fn inferred want got) (checkReturn id fn inferred want got) := by
  unfold checkReturn
  refine node_bind fun n w _ => bind fun t => ite inferInstance (ite inferInstance (ite inferInstance inferInstance))

instance (id : NodeId) (n : Node) (w : Spelling) :
    Agree g F (resolveReturn rec id n) (resolveReturn rec id (n.spelled w)) := by
  unfold resolveReturn
  refine scopes_bind fun t t' ht => bind fun scope => ?_
  simp only [ht.funcScope]
  refine ite inferInstance (scopeInfo_bind fun sc name imports => bind fun want => node_bind fun _ _ _ => bind fun got => ?_)
  refine bind fun _ => bind fun _ => ite inferInstance (bind fun info => node_bind fun fn _ _ => inferInstance)

instance (id : NodeId) (n : Node) (w : Spelling) :
    Agree g F (resolveForeach rec id n) (resolveForeach rec id (n.spelled w)) := by
  unfold resolveForeach
  exact bind fun (value, key) => inferInstance

/-! ## Matches -/

omit [Agrees g rec] in
theorem checkArm_agree (st : TypeId) (variants : List TyField) (arms : Arms) {arm : NodeId} (harm : arm ∈ F) :
    Agree g F (checkArm st variants arms arm) (checkArm st variants arms arm) := by
  unfold checkArm
  refine node_bind_named fun cn ⟨name, path, as⟩ hs hname => ?_
  obtain rfl : name = cn.name := hname harm
  have hbind : as = "" ↔ cn.bind = "" := Dialect.empty_iff hs.bind
  simp only [ne_eq, hbind]
  refine ite inferInstance ?_
  split
  · split <;> infer_instance
  · infer_instance

theorem resolveArm_agree (st : TypeId) (variants : List TyField) (arms : Arms) {arm : NodeId} (harm : arm ∈ F) :
    Agree g F (resolveArm rec st variants arms arm) (resolveArm rec st variants arms arm) := by
  have hcase (tag : Int) : Agree g F (modifyResult fun r => { r with cases := r.cases.insert arm tag })
      (modifyResult fun r => { r with cases := r.cases.insert arm tag }) := noteResult fun _ _ _ => rfl
  unfold resolveArm
  exact seq (checkArm_agree st variants arms harm) fun (tag, arms) => inferInstance

theorem resolveMatch_agree (id : NodeId) {n : Node} (hn : ∀ c ∈ n.list, c ∈ F) (w : Spelling) :
    Agree g F (resolveMatch rec id n) (resolveMatch rec id (n.spelled w)) := by
  have harms (st : TypeId) (variants : List TyField) : Agree g F (n.list.foldlM (resolveArm rec st variants) {})
      (n.list.foldlM (resolveArm rec st variants) {}) :=
    foldlM n.list {} fun arms c hc => resolveArm_agree st variants arms (hn c hc)
  unfold resolveMatch
  refine bind fun st => bind fun _ => ite inferInstance (bind fun t => ?_)
  split
  · exact bind fun arms => ite inferInstance inferInstance
  · infer_instance

/-! ## Every kind of node -/

theorem resolveKind_agree {s : Analysis} {v : View} {id : NodeId} {n : Node} {w : Spelling}
    (hn : s.result.tree.get? id = some n) (hw : ∀ c ∈ n.written id, c ∈ F) [g.Spells n w] :
    AgreeFrom g F s v (resolveKind rec id n) (resolveKind rec id (n.spelled w)) := by
  have htype : Agree g F (typeExprStep rec id) (typeExprStep rec id) := typeExprStep_agree id
  unfold resolveKind
  dsimp only
  split
  case h_14 hk =>
    have harms : ∀ c ∈ n.list, c ∈ F := fun c hc => hw c (Node.mem_written_list (by rw [hk]; decide) hc)
    exact (resolveMatch_agree id harms w).agrees s v
  case h_20 => exact .ite (fun _ => .inst) fun _ => resolveExpr_agree hn hw
  all_goals exact .inst

theorem resolveStep_agree (id : NodeId) : Agree g F (resolveStep rec id) (resolveStep rec id) := by
  have hopen (F : List NodeId) : Agree g F (modify fun s => { s with resolving := s.resolving.insert id () })
      (modify fun s => { s with resolving := s.resolving.insert id () }) :=
    note (fun _ _ => rfl) fun _ => ⟨rfl, rfl, rfl, rfl, rfl, rfl⟩
  have hclose (F : List NodeId) : Agree g F (modify fun s => { s with resolving := s.resolving.erase id })
      (modify fun s => { s with resolving := s.resolving.erase id }) :=
    note (fun _ _ => rfl) fun _ => ⟨rfl, rfl, rfl, rfl, rfl, rfl⟩
  unfold resolveStep
  refine ite inferInstance ⟨fun s v => .node_bind_written fun n w hn _ => .ite (fun _ => .inst) fun _ => .get_bind ?_⟩
  refine .ite (fun _ => .inst) fun _ => .seq fun _ s₁ v₁ h₁ => ?_
  cases h₁
  exact .bind (resolveKind_agree hn fun c hc => List.mem_append_left F hc) fun _ _ _ _ => .inst

end Agree

/-- Resolution agrees with itself, however deep it may go. -/
instance agrees_resolver (fuel : Nat) : Agrees g (resolver fuel) := by
  induction fuel with
  | zero =>
    refine ⟨fun F id => ?_, fun F id => ?_, fun F id => ?_⟩
    all_goals exact inferInstanceAs (Agree g F (throw AnalysisFailure.unbounded) (throw AnalysisFailure.unbounded))
  | succ fuel ih =>
    exact ⟨fun _ id => Agree.resolveStep_agree id, fun _ id => Agree.typeExprStep_agree id,
      fun _ id => Agree.varTypeStep_agree id⟩

end TreeCompiler.Analysis

/-! ## Sweeps -/

namespace TreeCompiler

/-- Both runs are strict in the same sweeps. -/
class Pace.Steady (g : Pace) : Prop where
  lenient : g.lenient = false

/-- Both runs have one limit of sweeps, too. -/
class Pace.Whole (g : Pace) : Prop extends Pace.Steady g where
  sweeps : g.sweeps = none

instance (g : Guise) : Pace.Whole { g with } where
  lenient := rfl
  sweeps := rfl

namespace Analysis

variable {g : Pace} {F : List NodeId} {α : Type}

theorem vary_strict [hg : g.Steady] (s : Analysis) (v : View) : (s.vary g v).strict = s.strict := by
  simp [hg.lenient]

namespace Agree

/-- What is told at the end of a span is not a matter of spelling. -/
theorem openSpan_agree (name : String) (parent : Nat) : Agree g F
    (modifyGet fun s : Analysis =>
      let (span, tracer) := s.tracer.start 2 name parent
      (span, { s with tracer }))
    (modifyGet fun s : Analysis =>
      let (span, tracer) := s.tracer.start 2 name parent
      (span, { s with tracer })) :=
  ⟨fun _ v => .modifyGet (Aside.later ⟨rfl, List.Subset.refl _, fun _ h => h, rfl, rfl, .refl _⟩) fun ha =>
    ⟨v, { ha with }, rfl⟩⟩

theorem traced_agree (name : String) (parent : Nat) {extra : Analysis → List (String × String)}
    (he : ∀ s v, extra (s.vary g v) = extra s) {step step' : Nat → AnalysisM Unit}
    (h : ∀ id, Agree g F (step id) (step' id)) :
    Agree g F (traced name parent extra step) (traced name parent extra step') := by
  unfold traced
  refine seq (openSpan_agree name parent) fun span => seq (h span.id) fun _ => ?_
  refine note (fun s v => ?_) fun s => ⟨rfl, rfl, rfl, rfl, rfl, rfl⟩
  dsimp only
  rw [he]

section Resolver

variable {rec : Resolver} [Agrees g rec]

instance (fn : SymbolId) : Agree g F (resolveBody rec fn) (resolveBody rec fn) := by
  unfold resolveBody
  exact bind fun sym => bind fun _ => ite inferInstance (bind fun _ => bind fun info => node_bind fun n w _ => inferInstance)

omit [Agrees g rec] in
theorem visitGrowing_agree {list : Analysis → Array α} (hl : ∀ s v, list (s.vary g v) = list s) {visit : α → AnalysisM Unit}
    (h : ∀ a, Agree g F (visit a) (visit a)) (fuel i : Nat) :
    Agree g F (visitGrowing list visit fuel i) (visitGrowing list visit fuel i) := by
  induction fuel generalizing i with
  | zero => exact inferInstanceAs (Agree g F (throw _) (throw _))
  | succ fuel ih =>
    unfold visitGrowing
    refine ⟨fun s v => .get_bind ?_⟩
    rw [hl]
    split
    · exact .inst
    · exact (seq (h _) fun _ => ih (i + 1)).agrees s v

instance : Agree g F (sweep rec) (sweep rec) := by
  have hreset : Agree g F (modify fun s => { s with progress := false, pending := 0 })
      (modify fun s => { s with progress := false, pending := 0 }) :=
    note (fun _ _ => rfl) fun _ => ⟨rfl, rfl, rfl, rfl, rfl, rfl⟩
  unfold sweep
  refine bind fun _ => tree_bind fun t t' ht => ?_
  rw [ht.roots]
  refine bind fun _ => seq (visitGrowing_agree (fun _ _ => rfl) (fun fn => inferInstance) _ _) fun _ => ?_
  exact visitGrowing_agree (fun _ _ => rfl) (fun id => inferInstance) _ _

instance [g.Steady] (parent : Nat) : Agree g F (tracedSweep rec parent) (tracedSweep rec parent) := by
  have hcount : Agree g F (modifyResult fun r => { r with sweeps := r.sweeps + 1 })
      (modifyResult fun r => { r with sweeps := r.sweeps + 1 }) := noteResult fun _ _ _ => rfl
  unfold tracedSweep
  exact bind fun _ => traced_agree _ _ (fun s v => by rw [vary_strict s v]) fun _ => inferInstance

theorem resolveSweeps_agree [hg : g.Steady] (parent budget : Nat) :
    Agree g F (resolveSweeps rec parent budget) (resolveSweeps rec parent budget) := by
  have hstrict : Agree g F (modify fun s => { s with strict := true }) (modify fun s => { s with strict := true }) :=
    note (fun _ _ => by simp [hg.lenient]) fun _ => ⟨rfl, rfl, rfl, rfl, rfl, rfl⟩
  fun_induction resolveSweeps rec parent budget with
  | case1 => infer_instance
  | case2 budget ih =>
    refine bind fun _ => ⟨fun s v => .get_bind (.ite (fun _ => .inst) fun _ => ?_)⟩
    exact (ih s).agrees s v

end Resolver

end Agree

instance : Agree g F (do (← tree).roots.forM declare) (do (← tree).roots.forM declare) := by
  refine Agree.tree_bind fun t t' ht => ?_
  rw [ht.roots]
  infer_instance

instance agree_run [hg : g.Whole] : Agree g F run run := by
  unfold run
  refine .seq (Agree.traced_agree _ _ (fun _ _ => rfl) fun _ => inferInstance) fun _ => ?_
  refine Agree.tree_bind fun t t' ht => ?_
  rw [ht.size]
  refine ⟨fun s v => .get_bind ?_⟩
  have hbudget : (s.vary g v).options.maxSweeps = s.options.maxSweeps := by simp [hg.sweeps]
  rw [hbudget]
  exact (Agree.traced_agree _ _ (fun _ _ => rfl) fun span => Agree.resolveSweeps_agree span _).agrees s v

/-- What every run leaves of the state in which it starts, whether it fails or not. -/
theorem later_run (s : Analysis) : Later s (after run s) := by
  have hrun : Agree { Dialect.exact with depth := 0 } [] run run := agree_run
  exact (hrun.agrees s s.view).later

/-- Two analyses that start alike. -/
theorem alike_initial {tree tree' : Tree} (h : g.Respells tree tree') {options : AnalysisOptions}
    (hd : options.maxTryDepth ≤ g.depth) (tracer : Tracer) :
    Alike g [] (initial tree options tracer) ⟨tree', declareBuiltins {}, {}⟩ :=
  ⟨h, g.respellsScopes_refl _, .refl _, nofun, nofun, hd⟩

end Analysis

theorem Tree.analyze_state (tree : Tree) (options : AnalysisOptions) (tracer : Tracer) :
    (tree.analyze options tracer).state = Analysis.after Analysis.run (.initial tree options tracer) := by
  unfold Tree.analyze EStateM.run Analysis.after
  split <;> simp_all

/-- An analysis keeps the options that it was given. -/
theorem Tree.analyze_options (tree : Tree) (options : AnalysisOptions) (tracer : Tracer) :
    (tree.analyze options tracer).state.options = options := by
  rw [Tree.analyze_state]
  exact (Analysis.later_run _).options

/-- The analyses of a unit in two spellings, the second with a deeper speculation. The first meets its limit, or both end
alike. -/
theorem Tree.analyze_agree {g : Guise} {tree tree' : Tree} (h : g.Respells tree tree') {options : AnalysisOptions}
    (hd : options.maxTryDepth ≤ g.depth) (tracer : Tracer) :
    let c : Pace := { g with }
    let e := tree.analyze options tracer
    let e' := tree'.analyze { options with maxTryDepth := g.depth } tracer
    Analysis.Lost c e.state ∨
      ∃ v, Analysis.Alike c [] e.state v ∧ e' = { state := e.state.vary c v, failure := e.failure } := by
  intro c
  have hrun : Analysis.Agree c [] Analysis.run Analysis.run := Analysis.agree_run
  have hends := (hrun.agrees _ _).agree (Analysis.alike_initial h hd tracer)
  have hstart : (Analysis.initial tree options tracer).vary c ⟨tree', Analysis.declareBuiltins {}, {}⟩ =
      Analysis.initial tree' { options with maxTryDepth := g.depth } tracer := rfl
  have hlost (s : Analysis) (h : Analysis.Parted c s) : Analysis.Lost c s := h.resolve_right fun h => Bool.noConfusion h.1
  rw [hstart] at hends
  unfold Analysis.after at hends
  unfold Tree.analyze EStateM.run
  cases hfirst : Analysis.run (.initial tree options tracer) with
  | ok a s =>
    rw [hfirst] at hends
    refine hends.imp (hlost _) ?_
    rintro ⟨v, hv, hsecond⟩
    exact ⟨v, hv, by rw [hsecond]; rfl⟩
  | error e s =>
    rw [hfirst] at hends
    refine hends.imp (hlost _) ?_
    rintro ⟨v, hv, hsecond⟩
    exact ⟨v, hv, by rw [hsecond]; rfl⟩

end TreeCompiler
