import TreeCompiler.Proofs.Agree.Run
import TreeCompiler.Tree.Builder

/-!
# The limit of speculation and canonically equivalent spellings

An analysis that nests trials too deep refuses the innermost one, and what was refused counts as failed. A run that refuses
none does not depend on its limit: every run with a higher one takes the same steps.

Names are looked up by their normal form, so an analysis does not depend on how the name of a declaration or of its use is
spelled. The names of fields and variants are not looked up but compared as they are written.

* `Tree.analyze_deeper` : a run with a higher limit, when none was refused;
* `Tree.analyze_limited` : a refused trial that changes what is called;
* `Tree.analyze_respelled` : the analyses of a unit in two spellings;
* `Tree.analyze_misspelled` : a member that is spelled like its field, but not with the same characters.
-/

namespace TreeCompiler

/-! ## Limits -/

theorem AnalysisEnd.hasErrors_congr {e e' : AnalysisEnd} (h : e.state.sink.Alike e'.state.sink) :
    e'.hasErrors = e.hasErrors :=
  decide_eq_decide.2 h.errorCount_pos

/-- When no trial was refused for the limit, a run with a higher one ends alike. -/
theorem Tree.analyze_deeper (tree : Tree) (options : AnalysisOptions) (tracer : Tracer) {d d' : Nat} (hd : d ≤ d')
    (hnone : ∀ r ∈ (tree.analyze { options with maxTryDepth := d } tracer).state.sink.history,
      r.diagnostic.code ≠ .tryDepthExceeded) :
    let e := tree.analyze { options with maxTryDepth := d } tracer
    let e' := tree.analyze { options with maxTryDepth := d' } tracer
    e'.failure = e.failure ∧ e'.hasErrors = e.hasErrors ∧ e'.state.result = e.state.result ∧
      e'.state.sink.history.map Reported.place = e.state.sink.history.map Reported.place := by
  intro e e'
  have hsame : Dialect.exact.Respells tree tree := Dialect.respells_refl Dialect.strict_exact tree
  have hends := @Tree.analyze_agree { Dialect.exact with depth := d' } tree tree hsame
    { options with maxTryDepth := d } hd tracer
  rcases hends with ⟨-, r, hr, hcode⟩ | ⟨v, hv, heq⟩
  · exact absurd hcode (hnone r hr)
  · have hstate : e'.state = e.state.vary _ v := congrArg AnalysisEnd.state heq
    have htree : v.tree = e.state.result.tree := hv.tree.eq_of_strict Dialect.strict_exact
    have hscopes : v.scopes = e.state.result.scopes := hv.scopes.eq_of_strict Dialect.strict_exact
    have hsink : e.state.sink.Alike e'.state.sink := by
      rw [hstate]
      exact hv.sink
    have hfailure : e'.failure = e.failure := by
      have hfailures := congrArg AnalysisEnd.failure heq
      exact hfailures
    refine ⟨hfailure, AnalysisEnd.hasErrors_congr hsink, ?_, hsink.history⟩
    rw [hstate]
    change { e.state.result with tree := v.tree, scopes := v.scopes } = e.state.result
    rw [htree, hscopes]

/-- A field `m` of `S`, a generic method `m` of `S` with a where clause, and a call of the member `m`. -/
def guardedMethod : Tree where
  nodes := #[
    .typeName ["int"], .typeName ["int"], .typeFunc 2 [1], .field "m" 3 0, .typeStruct [4], .typeDecl "S" 5,
    .typeName ["S"], .letDecl "o" 7 0,
    .typeName ["S"], .param "self" 9, .typeName ["T"], .param "x" 11, .typeName ["int"], .intLit 0, .returnStmt 14,
    .block [15], .boolLit true, { kind := .whereClause, list := [17] },
    { Node.func "m" [10, 12] 13 16 with params := ["T"], c := 18 }, .nameSpace "S" [19],
    .ident ["o"], .member 21 "m", .intLit 1, .call 22 [23], .letDecl "y" 0 24,
    { kind := .file, list := [6, 8, 20, 25] }]
  roots := [26]

theorem guardedMethod_end :
    let e := guardedMethod.analyze { maxTryDepth := 2 } {}
    e.failure = none ∧ e.hasErrors = false ∧ (e.state.result.calls.get? 24).map (·.kind) = some .static ∧
      ∀ r ∈ e.state.sink.history, r.diagnostic.code ≠ .tryDepthExceeded := by
  decide +kernel

theorem guardedMethod_deeper :
    let e := guardedMethod.analyze { maxTryDepth := 2 } {}
    let e' := guardedMethod.analyze { maxTryDepth := 3 } {}
    e.failure = none ∧ e.hasErrors = false ∧ e'.failure = none ∧ e'.hasErrors = false ∧
      e'.state.result = e.state.result := by
  obtain ⟨hsuccess, hclean, -, hnone⟩ := guardedMethod_end
  obtain ⟨hfailure, herrors, hresult, -⟩ := guardedMethod.analyze_deeper {} {} (show 2 ≤ 3 by decide) hnone
  exact ⟨hsuccess, hclean, hfailure.trans hsuccess, herrors.trans hclean, hresult⟩

/-- With a limit of one, the where clause of the method cannot be tried inside the trial of the call, so the field is called.
No run ends with an error. -/
theorem Tree.analyze_limited :
    let e := guardedMethod.analyze { maxTryDepth := 1 } {}
    let e' := guardedMethod.analyze { maxTryDepth := 2 } {}
    e.failure = none ∧ e.hasErrors = false ∧ e'.failure = none ∧ e'.hasErrors = false ∧
      (e.state.result.calls.get? 24).map (·.kind) = some .value ∧
      (e'.state.result.calls.get? 24).map (·.kind) = some .static ∧
      ∃ r ∈ e.state.sink.history, r.diagnostic.code = .tryDepthExceeded := by
  obtain ⟨hfailure, herrors, hvalue, hrefused⟩ :
      let e := guardedMethod.analyze { maxTryDepth := 1 } {}
      let e' := guardedMethod.analyze { maxTryDepth := 2 } {}
      e.failure = none ∧ e.hasErrors = false ∧ (e.state.result.calls.get? 24).map (·.kind) = some .value ∧
        ∃ r ∈ e.state.sink.history, r.diagnostic.code = .tryDepthExceeded := by decide +kernel
  obtain ⟨hfailure', herrors', hstatic, -⟩ := guardedMethod_end
  exact ⟨hfailure, herrors, hfailure', herrors', hvalue, hstatic, hrefused⟩

/-! ## Spellings -/

/-- The analyses of a unit in two spellings end alike, up to the wording of the reports, when the names of members and of
what declarations of unions, matches, struct types and struct literals list are written alike. -/
theorem Tree.analyze_respelled {tree tree' : Tree} (h : Dialect.canonical.Respells tree tree') (options : AnalysisOptions)
    (tracer : Tracer) :
    let e := tree.analyze options tracer
    let e' := tree'.analyze options tracer
    e'.failure = e.failure ∧ e'.hasErrors = e.hasErrors ∧
      { e'.state.result with tree := e.state.result.tree, scopes := e.state.result.scopes } = e.state.result ∧
      e'.state.sink.history.map Reported.place = e.state.sink.history.map Reported.place ∧
      ∀ p, p ∈ e'.diagnostics.map Diagnostic.place ↔ p ∈ e.diagnostics.map Diagnostic.place := by
  intro e e'
  have hends := Tree.analyze_agree (g := { Dialect.canonical with depth := options.maxTryDepth }) h (Nat.le_refl _) tracer
  rcases hends with ⟨hne, -⟩ | ⟨v, hv, heq⟩
  · exact absurd (congrArg AnalysisOptions.maxTryDepth (tree.analyze_options options tracer)) hne
  · have hstate : e'.state = e.state.vary _ v := congrArg AnalysisEnd.state heq
    have hfailure : e'.failure = e.failure := by
      have hfailures := congrArg AnalysisEnd.failure heq
      exact hfailures
    have hsink : e.state.sink.Alike e'.state.sink := by
      rw [hstate]
      exact hv.sink
    refine ⟨hfailure, AnalysisEnd.hasErrors_congr hsink, ?_, hsink.history, hsink.delivered⟩
    rw [hstate]

/-- A variable `é` of a struct type with a field `é`, and an access to the field of the variable. -/
def accented (use member : String) : Tree where
  nodes := #[
    .typeName ["int"], .field "\u00e9" 1 0, .typeStruct [2], .typeDecl "S" 3, .typeName ["S"], .letDecl "\u00e9" 5 0,
    .ident [use], .member 7 member, .letDecl "y" 0 8,
    { kind := .file, list := [4, 6, 9] }]
  roots := [10]

/-- With one spelling the field is found. -/
theorem accented_end :
    let e := (accented "\u00e9" "\u00e9").analyze {} {}
    e.failure = none ∧ e.hasErrors = false ∧ (e.state.result.bindings.get? 7).isSome ∧
      e.state.result.fields.get? 8 = some 0 := by
  decide +kernel

/-- The variable may be spelled otherwise where it is used. -/
theorem accented_respelled :
    let e := (accented "\u00e9" "\u00e9").analyze {} {}
    let e' := (accented "e\u0301" "\u00e9").analyze {} {}
    (e.failure = none ∧ e.hasErrors = false ∧ (e.state.result.bindings.get? 7).isSome ∧
      e.state.result.fields.get? 8 = some 0) ∧
      e'.failure = none ∧ e'.hasErrors = false ∧ e'.state.result.bindings = e.state.result.bindings ∧
      e'.state.result.fields = e.state.result.fields := by
  have hsame (n : Node) : ∃ w, Dialect.canonical.Spells n w ∧ n = Node.spelled n w :=
    ⟨n.spelling, Dialect.spells_refl _ n, rfl⟩
  have huse : Dialect.canonical.Spells (.ident ["\u00e9"]) ⟨"e\u0301", [], ""⟩ := by
    have hname : Compose.normalize "\u00e9" = Compose.normalize "e\u0301" := by decide +kernel
    exact ⟨hname, .nil, rfl⟩
  have hrespells : Dialect.canonical.Respells (accented "\u00e9" "\u00e9") (accented "e\u0301" "\u00e9") := by
    refine Dialect.respells_of_nodes rfl rfl ?_ (by decide +kernel)
    refine .cons (hsame _) <| .cons (hsame _) <| .cons (hsame _) <| .cons (hsame _) <| .cons (hsame _) <| .cons (hsame _) ?_
    exact .cons ⟨_, huse, rfl⟩ <| .cons (hsame _) <| .cons (hsame _) <| .cons (hsame _) .nil
  have hends := accented_end
  obtain ⟨hfailure, herrors, hresult, -⟩ := Tree.analyze_respelled hrespells {} {}
  have hbindings := congrArg AnalysisResult.bindings hresult
  have hfields := congrArg AnalysisResult.fields hresult
  exact ⟨hends, hfailure.trans hends.1, herrors.trans hends.2.1, hbindings, hfields⟩

/-- The member stands for the same name, but the field is not found. -/
theorem Tree.analyze_misspelled :
    let e := (accented "\u00e9" "\u00e9").analyze {} {}
    let e' := (accented "\u00e9" "e\u0301").analyze {} {}
    Compose.normalize "e\u0301" = Compose.normalize "\u00e9" ∧
      (e.hasErrors = false ∧ e.state.result.fields.get? 8 = some 0) ∧
      e'.hasErrors = true ∧ e'.state.result.fields.get? 8 = none := by
  have hmember : Compose.normalize "e\u0301" = Compose.normalize "\u00e9" := by decide +kernel
  obtain ⟨herrors', hfield'⟩ :
      let e' := (accented "\u00e9" "e\u0301").analyze {} {}
      e'.hasErrors = true ∧ e'.state.result.fields.get? 8 = none := by decide +kernel
  obtain ⟨-, herrors, -, hfield⟩ := accented_end
  exact ⟨hmember, ⟨herrors, hfield⟩, herrors', hfield'⟩

end TreeCompiler
