import TreeCompiler.Analysis.Function
import TreeCompiler.Proofs.Analysis.Declare

/-!
# Names, instances and types

The steps of resolution walk when the functions they call back do. An instance is a copy of a declaration; it is entered
for the copy before the copy is declared, so that the copy is known to be a function when its body is declared.
-/

namespace TreeCompiler.Analysis

open ScopeTable (Deferred)

variable {α β : Type}

class ResolverWalks (rec : Resolver) : Prop where
  resolve : ∀ id, Walks (rec.resolve id)
  typeExpr : ∀ id, Walks (rec.typeExpr id)
  varType : ∀ id, Walks (rec.varType id)

attribute [instance] ResolverWalks.resolve ResolverWalks.typeExpr ResolverWalks.varType

theorem symbol_bind_eq (id : SymbolId) (f : Symbol → AnalysisM β) : (symbol id >>= f) = (do
    let s ← get
    (match s.result.scopes.symbol? id with | some sym => Pure.pure sym | none => throw .brokenReference) >>= f) := rfl

theorem WalksFrom.symbol_bind {s : Analysis} {id : SymbolId} {f : Symbol → AnalysisM β}
    (h : ∀ sym, s.result.scopes.symbol? id = some sym → WalksFrom s (f sym)) : WalksFrom s (symbol id >>= f) := by
  rw [symbol_bind_eq]
  refine get_bind ?_
  cases hsym : s.result.scopes.symbol? id with
  | none => exact fun _ => .refl
  | some sym => exact h sym hsym

namespace Walks

instance (id : NodeId) (n : Node) : Walks (lookupName id n) := by
  unfold lookupName
  refine bind fun q => bind fun tab => ?_
  dsimp only
  split <;> infer_instance

variable (rec : Resolver) [ResolverWalks rec]

instance (n : Node) : Walks (typeArgsReady rec n) := by unfold typeArgsReady; infer_instance

instance (ids : List NodeId) : Walks (typeList? rec ids) := by
  induction ids with
  | nil => exact inferInstanceAs (Walks (pure _))
  | cons id rest ih => unfold typeList?; infer_instance

instance (n : Node) : Walks (typeArgs? rec n) := by unfold typeArgs?; infer_instance

/-! ## Instances -/

omit [ResolverWalks rec] in
instance (args : List TypeId) : Walks (anyParams args) := by unfold anyParams; infer_instance

end Walks

theorem templateScope_bind {s : Analysis} {g : Symbol} {params : List String} {args : List TypeId}
    {f : ScopeId → AnalysisM β} (hg : Placed g.scope s)
    (h : ∀ ts s', Steps s s' → Placed ts s' → WalksFrom s' (f ts)) :
    WalksFrom s (templateScope g params args >>= f) := by
  intro hs
  unfold templateScope
  rw [bind_assoc]
  refine WalksFrom.bind (.modifyGet fun _ => .single (.arrange rfl rfl rfl ⟨rfl, rfl, rfl, rfl⟩
    (ScopeTable.keeps_addScope rfl (fun _ => hg) fun _ h => by cases h))) (fun ts s₁ h₁ hstep => ?_) hs
  have hts : Placed ts s₁ := by
    cases h₁
    simp [Placed]
  have hJ := placed_lasting ts
  intro hs₁
  rw [bind_assoc]
  refine WalksFrom.bind (WalksUnder.forIn hJ _ _ (fun p _ r => ?_) s₁ hts) (fun _ s₂ _ h₂ => ?_) hs₁
  · refine .bind hJ fun name s' hts' => .bind .inst fun tab s'' htab _ => ?_
    cases htab
    split
    · rename_i id tab hdecl
      refine .bind (.modify fun _ => .single (.arrange rfl rfl rfl ⟨rfl, rfl, rfl, rfl⟩ ?_)) fun _ _ _ _ => .inst
      exact ScopeTable.keeps_declare hdecl rfl (fun _ => hts') (fun _ h => by cases h) (fun _ => .none)
        (ScopeTable.not_deferred_of_storage rfl)
    · exact .inst
  · exact h ts s₂ (hstep.trans h₂) (hJ _ _ hs₁ h₂ hts)

/-- The variable `inst` was made for the declaration `clone` and has no storage yet. -/
def Unplaced (inst clone : Nat) (s : Analysis) : Prop :=
  ∃ sym, s.result.scopes.symbol? inst = some sym ∧ sym.kind = .var ∧ sym.decl = clone ∧ sym.storage = .none ∧ sym.origin ≠ 0

/-- An instance of a variable is noted for early initialization as soon as it has its storage. -/
theorem declareInstance_from {s : Analysis} {kind : SymbolKind} {clone inst : Nat} {args : List TypeId}
    (hfun : kind = .function → Declares inst clone s) (hnew : s.funcs.get? inst = none) (hvar : kind = .var → Unplaced inst clone s) :
    WalksFrom s (declareInstance kind clone inst args) := by
  unfold declareInstance
  refine .node_bind fun cn hcn => ?_
  split
  · refine .bind (.modify fun _ => steps_note rfl rfl rfl rfl ⟨rfl, rfl, rfl, rfl⟩) fun _ s₁ h₁ _ => ?_
    cases h₁
    exact declareFuncBody_from declare (hfun rfl) hnew
  · obtain ⟨sym, hsym, hk, rfl, hst, ho⟩ := hvar rfl
    refine (?_ : WalksVia s s _)
    refine .bind rfl (.bind rfl (.bind rfl (.bind rfl (.land (fun hs => ?_) ?_))))
    · refine .defer ⟨inst, cn.b⟩ rfl rfl rfl rfl rfl rfl rfl
        (.trans (.but ScopeTable.keeps_allocGlobal _) (ScopeTable.keepsBut_setGlobal (Nat.lt_succ_self _) fun sym' h => ?_)) (fun sym' h => ?_)
        ⟨{ sym with storage := s.result.scopes.allocGlobal.1 }, cn, ?_, ⟨hk, ⟨_, rfl⟩, .inl ho⟩, hcn, rfl⟩
      · cases hsym.symm.trans h
        exact hst
      · cases hsym.symm.trans h
        exact ScopeTable.not_deferred_of_storage hst
      · refine (ScopeTable.symbol?_modifySymbol ..).trans ((if_pos rfl).trans ?_)
        exact congrArg (Option.map fun x => { x with storage := s.result.scopes.allocGlobal.1 }) hsym
    · refine (Walks.bind fun _ => Walks.bind fun _ => Walks.bind fun _ => ?_).walks _
      exact Walks.ite (Walks.note fun _ => ⟨rfl, rfl, rfl, rfl⟩) inferInstance
  · exact .inst
  · exact .inst

section

variable (rec : Resolver) [ResolverWalks rec]

instance (clause : NodeId) : Walks (whereHolds rec clause) := by
  unfold whereHolds
  refine Walks.bind fun n => Walks.bind fun r => ?_
  dsimp only
  split <;> infer_instance

/-- The copy is entered as an instance of what was copied and declared in the scope of its type arguments. -/
theorem enterInstance_from {s : Analysis} {g : Symbol} {clone ts : Nat} {sym : Symbol} {args : List TypeId}
    {update : SymbolId → ScopeTable → ScopeTable} {f : SymbolId → AnalysisM β} (hts : Placed ts s)
    (hfunc : g.kind = .function → IsFunc clone s)
    (hsym : sym.kind = g.kind ∧ sym.decl = clone ∧ sym.storage = .none ∧ sym.body = 0 ∧ Placed sym.scope s)
    (ho : sym.origin ≠ 0) (hupdate : ∀ inst tree tab, ScopeTable.Keeps tree tab (update inst tab))
    (hother : ∀ inst tab, s.result.scopes.symbol? inst = none → (update inst tab).symbol? inst = tab.symbol? inst)
    (hf : ∀ inst, Walks (f inst)) :
    WalksFrom s (do
      let inst ← withScopes (·.addSymbol sym)
      modifyScopes (update inst)
      outsideLoops <| withScope ts do
        setScope clone ts
        declareInstance g.kind clone inst args
      f inst) := by
  obtain ⟨hk, hd, hst, hb, hplace⟩ := hsym
  refine .of_sound fun hs => ?_
  have hunknown := hs.unknown (ScopeTable.symbol?_fresh s.result.scopes sym)
  refine .bind (.modifyGet fun _ => .single (.arrange rfl rfl rfl ⟨rfl, rfl, rfl, rfl⟩ (ScopeTable.keeps_addSymbol hb
    (fun _ => hplace) (fun _ hfn => hd ▸ hfunc (hk ▸ hfn)) (fun _ => by rw [hst]; exact .none)
    (ScopeTable.not_deferred_of_storage hst)))) fun inst s₁ h₁ _ => ?_
  cases h₁
  refine .of_sound fun hs₁ => .bind ((Walks.modifyScopes (hupdate _)).walks _) fun _ s₂ h₂ hs₂ => ?_
  cases h₂
  -- the new symbol is in the table as it was entered
  have hnew : (update (s.result.scopes.addSymbol sym).1 (s.result.scopes.addSymbol sym).2).symbol?
      (s.result.scopes.addSymbol sym).1 = some sym :=
    (hother _ _ (ScopeTable.symbol?_fresh ..)).trans (ScopeTable.symbol?_addSymbol_self ..)
  refine .bind (outsideLoops_from fun s₃ h₃ e₃ f₃ => withScope_from ?_ fun s₄ _ e₄ f₄ => ?_) fun _ s₅ _ _ => (hf _).walks s₅
  · exact placed_lasting _ _ _ hs₁ (hs₂.trans h₃) hts
  · refine .bind .inst fun _ s₅ h₅ _ => ?_
    cases h₅
    have hresult := e₄.trans e₃
    refine declareInstance_from (fun hfn => ?_) (by rw [f₄.trans f₃]; exact hunknown) fun hvar => ?_
    · exact ⟨sym, by rw [hresult]; exact hnew, hk.trans hfn, hd⟩
    · exact ⟨sym, by rw [hresult]; exact hnew, hk.trans hvar, hd, hst, ho⟩

instance (gen : SymbolId) (args : List TypeId) : Walks (instanceOf rec gen args) := by
  refine ⟨fun s => ?_⟩
  unfold instanceOf
  refine .symbol_bind fun g hg => .of_sound fun hs => ?_
  have hplace : Placed g.scope s := hs.laid.places gen g hg
  have hdecl := hs.laid.decls gen g hg
  have hgen := ScopeTable.symbol?_lt hg
  split
  · refine .bind (.modifyGet fun _ => steps_note rfl rfl rfl rfl ⟨rfl, rfl, rfl, rfl⟩) fun key s₁ h₁ _ => ?_
    cases h₁
    split
    · exact .inst
    · refine .bind .inst fun t s₂ h₂ _ => ?_
      cases h₂
      split
      · rename_i clone copied hcopy
        have hcopies := Tree.copy_copies hcopy
        refine .bind (.modify fun _ => .single (.edit rfl rfl rfl ⟨rfl, rfl, rfl, rfl⟩ (.of_extends (hcopies.extends_modify _))))
          fun _ s₃ h₃ _ => ?_
        cases h₃
        refine .of_sound fun hs₃ => templateScope_bind hplace fun ts s₄ h₄ hts => ?_
        refine enterInstance_from (g := g) hts (fun hk => ?_) ⟨rfl, rfl, rfl, rfl, ?_⟩ (Nat.ne_of_gt hgen.1) (fun _ _ _ => ?_)
          (fun inst tab hnone => ?_) fun inst => ?_
        · obtain ⟨n, hn, hnk⟩ := hdecl hk
          obtain ⟨n', hn', hk'⟩ := hcopies.2.2 n hn
          refine isFunc_lasting clone _ _ hs₃ h₄ ⟨{ n' with params := [] }, ?_, hk'.trans hnk⟩
          exact (Tree.get?_modify ..).trans ((if_pos rfl).trans (by rw [hn']; rfl))
        · exact placed_lasting g.scope _ _ hs₃ h₄ hplace
        · exact ScopeTable.keeps_modifySymbol fun _ => ⟨⟨rfl, rfl, rfl, rfl, rfl, fun _ => rfl⟩, rfl, rfl⟩
        · refine (ScopeTable.symbol?_modifySymbol ..).trans (if_neg ?_)
          rintro rfl
          obtain ⟨g', hg', -⟩ := h₄.tables.symbols inst g hg
          rw [hnone] at hg'
          cases hg'
        · have reject : Walks (modifyScopes fun tab => tab.modifySymbol inst fun s => { s with rejected := true }) :=
            Walks.modifyScopes fun _ _ =>
              ScopeTable.keeps_modifySymbol fun _ => ⟨⟨rfl, rfl, rfl, rfl, rfl, fun _ => rfl⟩, rfl, rfl⟩
          infer_instance
      · exact .inst
  · exact .inst

instance (gen : SymbolId) (args : List TypeId) : Walks (instantiate rec gen args) := by
  unfold instantiate
  exact .bind fun _ => .seq (.note fun _ => ⟨rfl, rfl, rfl, rfl⟩) fun _ => inferInstance

instance (ts : ScopeId) (ids : List NodeId) : Walks (patternTypes rec ts ids) := by
  induction ids with
  | nil => exact inferInstanceAs (Walks (pure _))
  | cons p rest ih =>
    unfold patternTypes
    refine Walks.bind fun pn => Walks.ite inferInstance (Walks.bind fun t => ?_)
    split <;> infer_instance

instance (gen : SymbolId) : Walks (pattern? rec gen) := by
  refine ⟨fun s => ?_⟩
  unfold pattern?
  refine .symbol_bind fun g hg => .of_sound fun hs => ?_
  have hplace : Placed g.scope s := hs.laid.places gen g hg
  split
  · split
    · exact .inst
    · refine .bind .inst fun holders s₁ _ h₁ => templateScope_bind (placed_lasting _ _ _ hs h₁ hplace) fun ts s₂ _ _ => ?_
      refine (Walks.bind fun n => Walks.bind fun found => ?_).walks s₂
      split
      · infer_instance
      · refine Walks.seq (Walks.modifyScopes fun _ _ => ?_) fun _ => inferInstance
        exact ScopeTable.keeps_modifySymbol fun _ => ⟨⟨rfl, rfl, rfl, rfl, rfl, fun _ => rfl⟩, rfl, rfl⟩
  · exact .inst

instance (gen : SymbolId) (actuals : List TypeId) : Walks (derive? rec gen actuals) := by
  unfold derive?
  refine Walks.bind fun p => ?_
  split <;> infer_instance

/-! ## Types that are written down -/

theorem whileTyping_from {s : Analysis} {sym : SymbolId} {step : AnalysisM α}
    (hstep : ∀ s', Steps s s' → WalksFrom s' step) : WalksFrom s (whileTyping sym step) := by
  unfold whileTyping
  refine .bind (.modify fun _ => steps_note rfl rfl rfl rfl ⟨rfl, rfl, rfl, rfl⟩) fun _ s₁ _ h₁ => ?_
  refine .bind (hstep s₁ h₁) fun v s₂ _ _ => .bind (.modify fun _ => ?_) fun _ _ _ _ => .inst
  exact steps_note rfl rfl rfl rfl ⟨rfl, rfl, rfl, rfl⟩

omit [ResolverWalks rec] in
instance (sym : SymbolId) (step : AnalysisM α) [hstep : Walks step] : Walks (whileTyping sym step) :=
  ⟨fun _ => whileTyping_from fun s' _ => hstep.walks s'⟩

omit [ResolverWalks rec] in
instance (sym : SymbolId) : Walks (isTyping sym) := by unfold isTyping; infer_instance

omit [ResolverWalks rec] in
instance (base : TypeId) (sym : SymbolId) (name : String) (args : List TypeId) : Walks (namedOf base sym name args) := by
  refine ⟨fun s => ?_⟩
  unfold namedOf
  refine .bind .inst fun t s₁ h₁ _ => ?_
  cases h₁
  split
  · rename_i id types hnamed
    exact .bind (.modify fun _ => .single (.intern s types (TypeTable.grows_named? hnamed))) fun _ _ _ _ => .pure _
  · exact .inst

omit [ResolverWalks rec] in
theorem namedOf_apply (base : TypeId) (sym : SymbolId) (name : String) (args : List TypeId) (s : Analysis) :
    namedOf base sym name args s = (match s.result.types.named? base sym name args with
      | some (id, types) => modifyResult (fun r => { r with types }) >>= fun _ => pure id
      | none => throw (.unknownType base) : AnalysisM TypeId) s := rfl

omit [ResolverWalks rec] in
/-- The named type is found under its number, next to the type that was named. -/
theorem namedOf_ok {base t : TypeId} {sym : SymbolId} {name : String} {args : List TypeId} {s s' : Analysis}
    (h : namedOf base sym name args s = .ok t s') : ∃ ty, s'.result.types.lookup? base = some ty ∧
      (ty.kind ≠ .invalid → s'.result.types.find? { ty with sym, name, args } = some t) := by
  rw [namedOf_apply] at h
  cases hnamed : s.result.types.named? base sym name args with
  | none =>
    rw [hnamed] at h
    cases h
  | some r =>
    rw [hnamed] at h
    have hgrow := TypeTable.grows_named? hnamed
    obtain ⟨ty, hty, rfl⟩ := Option.map_eq_some_iff.1 hnamed
    cases h
    exact ⟨ty, hgrow.lookup? hty, fun hk => TypeTable.find?_intern hk⟩

/-- A named type takes over the default values of its structure as they are when it is made. -/
instance (id : SymbolId) (n : Node) (name : String) : Walks (declaredType rec id n name) := by
  refine ⟨fun s => ?_⟩
  unfold declaredType
  refine .bind .inst fun base s₁ _ _ => .symbol_bind fun sym hsym => ?_
  refine .bind .inst fun r s₂ _ _ => .bind .inst fun r' s₃ _ _ => .ite (fun _ => .inst) fun _ => .ite (fun _ => .inst) fun _ => ?_
  refine .bind .inst fun t s₄ hnamed _ => .bind .inst fun _ s₅ h₅ _ => .get_bind ?_
  cases h₅
  dsimp only
  split
  · rename_i ds hds
    obtain ⟨ty, hty, hfind⟩ := namedOf_ok hnamed
    refine .bind (.modify fun _ => .single (.default _ t ds (.inr ?_))) fun _ _ _ _ => .inst
    exact ⟨base, ty, id, name, sym.templateArgs, Nat.ne_of_gt (ScopeTable.symbol?_lt hsym).1, hty, hfind, hds⟩
  · exact .inst

instance (ids : List NodeId) : Walks (variantFields rec ids) := by
  induction ids with
  | nil => exact inferInstanceAs (Walks (pure _))
  | cons v rest ih => unfold variantFields; infer_instance

instance (id : SymbolId) (n : Node) (name : String) : Walks (unionType rec id n name) := by
  unfold unionType
  refine Walks.bind fun r => ?_
  split <;> infer_instance

instance (id : SymbolId) : Walks (typeOfSymbol rec id) := by
  have byKind (sym : Symbol) (n : Node) (name : String) : Walks (match n.kind with
      | .typeDecl => declaredType rec id n name
      | .unionDecl => unionType rec id n name
      | k => internal sym.decl (.declaredBy name k.name)) := by
    split <;> infer_instance
  unfold typeOfSymbol
  infer_instance

instance (id : SymbolId) : Walks (variantTypes rec id) := by
  unfold variantTypes
  refine Walks.bind fun v => Walks.bind fun union => Walks.bind fun r => Walks.ite inferInstance (Walks.bind fun u => ?_)
  split
  · split <;> infer_instance
  · infer_instance

instance (id : NodeId) (n : Node) : Walks (namedType rec id n) := by
  unfold namedType
  refine Walks.bind fun r => Walks.ite inferInstance (Walks.bind fun found => ?_)
  split
  · refine Walks.bind fun sym => Walks.ite inferInstance ?_
    dsimp only
    split <;> infer_instance
  · infer_instance

/-- The default value of a field is converted in its place. -/
instance (seen : List String) (ids : List NodeId) : Walks (structFields rec seen ids) := by
  induction ids generalizing seen with
  | nil => exact inferInstanceAs (Walks (pure _))
  | cons f rest ih =>
    have settled (fn : Node) (t : TypeId) : Walks (do
        let default := (← node f).b
        discard (finish f t)
        pure ((← structFields rec (fn.name :: seen) rest).map ((⟨fn.name, t⟩, default) :: ·)) :
          AnalysisM (Option (List (TyField × NodeId)))) := by
      infer_instance
    unfold structFields
    refine Walks.bind fun fn => Walks.bind fun t => Walks.bind fun r => Walks.ite inferInstance ?_
    have checked : Walks (do
        if fn.b ≠ 0 then
          if !(← isResolved (← rec.resolve fn.b)) then return none
          let (_, value) ← coerce (← node f).b t .assignMismatch
          modifyNode f fun n => { n with b := value }
        let default := (← node f).b
        discard (finish f t)
        pure ((← structFields rec (fn.name :: seen) rest).map ((⟨fn.name, t⟩, default) :: ·)) :
          AnalysisM (Option (List (TyField × NodeId)))) := by
      refine Walks.ite (Walks.bind fun _ => Walks.bind fun _ => Walks.ite inferInstance ⟨fun s => ?_⟩) (settled fn t)
      refine .node_bind fun n hn => .bind .inst fun r s₁ h₁ _ => .bind ?_ fun _ s₂ _ _ => (settled fn t).walks s₂
      exact (coerce_ok h₁).walks hn (.of_same rfl rfl rfl rfl rfl) (.inl rfl) (.inr ⟨rfl, rfl⟩)
    exact Walks.ite (Walks.bind fun _ => checked) checked

/-- The parts that were found, if any, are what the nodes `ids` declare. -/
def DeclaredBy (ids : List NodeId) (found : Option (List (TyField × NodeId))) (s : Analysis) : Prop :=
  ∀ parts, found = some parts → List.Forall₂ s.result.tree.DeclaresField ids parts

/-- A field is noted with the default value it has then, under the name it has from the beginning. -/
theorem structFields_ensures (seen : List String) (ids : List NodeId) (s : Analysis) :
    Ensures s (structFields rec seen ids) (DeclaredBy ids) := by
  induction ids generalizing seen s with
  | nil =>
    refine .pure fun parts h => ?_
    cases h
    exact .nil
  | cons f rest ih =>
    have refused (s₁ : Analysis) : Ensures s₁ (pure none) (DeclaredBy (f :: rest)) :=
      .pure fun _ h => by cases h
    unfold structFields
    refine .bind fun fn s₁ h₁ _ => ?_
    obtain ⟨rfl, hfn⟩ := node_ok h₁
    have settled (t : TypeId) {s₂ : Analysis} (hw : Steps s₁ s₂) : Ensures s₂ (do
        let default := (← node f).b
        discard (finish f t)
        pure ((← structFields rec (fn.name :: seen) rest).map ((⟨fn.name, t⟩, default) :: ·)) :
          AnalysisM (Option (List (TyField × NodeId)))) (DeclaredBy (f :: rest)) := by
      refine .bind fun n s₃ h₃ _ => ?_
      obtain ⟨rfl, hn⟩ := node_ok h₃
      have hname : n.name = fn.name := by
        obtain ⟨n', hn', g⟩ := hw.refines.nodes f fn hfn
        cases hn.symm.trans hn'
        exact g.name
      refine .bind fun _ s₄ _ hw₄ => fun hs₄ => Ensures.bind (fun found s₅ h₅ hw₅ => .pure ?_) hs₄
      intro parts hparts
      cases found with
      | none => cases hparts
      | some ps =>
        cases hparts
        exact .cons ((hw₄.trans hw₅).refines.declaresField ⟨n, hn, hname, fun _ => .refl _ _⟩) (ih _ s₄ hs₄ _ s₅ h₅ ps rfl)
    refine .bind fun t s₂ _ hw₂ => .bind fun r s₃ h₃ _ => .ite (fun _ => refused _) fun _ => ?_
    cases h₃
    have checked {s₃ : Analysis} (hw₃ : Steps s₁ s₃) : Ensures s₃ (do
        if fn.b ≠ 0 then
          if !(← isResolved (← rec.resolve fn.b)) then return none
          let (_, value) ← coerce (← node f).b t .assignMismatch
          modifyNode f fun n => { n with b := value }
        let default := (← node f).b
        discard (finish f t)
        pure ((← structFields rec (fn.name :: seen) rest).map ((⟨fn.name, t⟩, default) :: ·)) :
          AnalysisM (Option (List (TyField × NodeId)))) (DeclaredBy (f :: rest)) := by
      refine .ite (fun _ => .bind fun v s₄ _ hw₄ => .bind fun r s₅ _ hw₅ => .ite (fun _ => refused _) fun _ => ?_)
        fun _ => settled t hw₃
      refine .bind fun n s₆ h₆ _ => ?_
      obtain ⟨rfl, hn⟩ := node_ok h₆
      refine .bind fun r s₇ h₇ hw₇ => .seq ?_ fun _ s₈ _ hw₈ => ?_
      · exact (coerce_ok h₇).walks hn (.of_same rfl rfl rfl rfl rfl) (.inl rfl) (.inr ⟨rfl, rfl⟩)
      · exact settled t ((((hw₃.trans hw₄).trans hw₅).trans hw₇).trans hw₈)
    exact .ite (fun _ => .bind fun _ s₃ _ hw₃ => checked (hw₂.trans hw₃)) fun _ => checked hw₂

/-- The default values of a struct type are noted when its structure has none yet. -/
theorem structType_from {s : Analysis} {e : NodeId} {n : Node} (hn : s.result.tree.get? e = some n)
    (hk : n.kind = .typeStruct) : WalksFrom s (structType rec n) := by
  unfold structType
  refine .of_sound fun hs => .bind .inst fun found s₁ h₁ hw₁ => ?_
  split
  · rename_i parts
    have hparts := structFields_ensures rec [] n.list s hs _ s₁ h₁ parts rfl
    obtain ⟨n', hn', g⟩ := hw₁.refines.nodes e n hn
    have hkind := g.kind_eq (by rw [hk]; decide)
    have hlist := g.list (by rw [hk]; decide) (by rw [hk]; decide)
    refine .bind .inst fun t s₂ h₂ _ => ?_
    cases h₂
    refine .get_bind (.ite (fun hc => ?_) fun _ => .inst)
    refine .bind (.modify fun _ => .single (.default _ _ _ (.inl ⟨?_, ?_⟩))) fun _ _ _ _ => .inst
    · exact Option.not_isSome_iff_eq_none.1 (by rwa [Bool.not_eq_true', Bool.eq_false_iff] at hc)
    · exact ⟨e, n', parts, hn', hkind.trans hk, hlist ▸ hparts, TypeTable.find?_intern (fun h => by cases h), rfl⟩
  · exact .inst

instance (id : NodeId) : Walks (typeExprStep rec id) := by
  refine ⟨fun s => ?_⟩
  unfold typeExprStep
  refine .ite (fun _ => .inst) fun _ => .node_bind fun n hn => .ite (fun _ => .inst) fun _ => ?_
  split
  case h_4 =>
    refine .bind .inst fun elems s₁ _ _ => ?_
    split <;> exact .inst
  case h_5 =>
    refine .bind .inst fun params s₁ _ _ => .bind .inst fun result s₂ _ _ => .bind .inst fun r s₃ _ _ => ?_
    split <;> exact .inst
  case h_6 hk => exact .bind (structType_from rec hn hk) fun t s₁ _ _ => .inst
  all_goals exact .inst

/-! ## Functions and variables -/

omit [ResolverWalks rec] in
instance (fn : SymbolId) : Walks (funcInfo fn) := by
  unfold funcInfo
  refine Walks.bind fun s => ?_
  split <;> infer_instance

theorem funcInfo_apply (fn : SymbolId) (s : Analysis) : funcInfo fn s = (match s.funcs.get? fn with
    | some info => pure info
    | none => throw .brokenReference : AnalysisM FuncInfo) s := rfl

theorem funcInfo_ok {fn : SymbolId} {info : FuncInfo} {s s' : Analysis} (h : funcInfo fn s = .ok info s') :
    s' = s ∧ s.funcs.get? fn = some info := by
  rw [funcInfo_apply] at h
  cases hi : s.funcs.get? fn <;> rw [hi] at h <;> cases h
  exact ⟨rfl, rfl⟩

theorem modifyFunc_from {s : Analysis} {fn : SymbolId} {f : FuncInfo → FuncInfo}
    (h : ∀ info, s.funcs.get? fn = some info → Learns s fn (f info)) : WalksFrom s (modifyFunc fn f) := by
  unfold modifyFunc
  refine .bind .inst fun info s₁ h₁ _ => ?_
  obtain ⟨rfl, hinfo⟩ := funcInfo_ok h₁
  exact .modify fun _ => .single (.learn fn _ rfl rfl rfl rfl (h info hinfo))

instance (fn : SymbolId) (params : List TypeId) (variadic : Bool) :
    Walks (modifyFunc fn fun i => { i with params, variadic, signed := true }) :=
  ⟨fun _ => modifyFunc_from fun _ h => .params h params variadic⟩

instance (p : NodeId) : Walks (paramType rec p) := by
  unfold paramType
  refine Walks.bind fun pn => Walks.ite ?_ ?_
  all_goals
    refine Walks.bind fun t => Walks.bind fun r => Walks.ite (Walks.bind fun s => ?_) inferInstance
    split <;> infer_instance

instance (ps : List NodeId) : Walks (paramList? rec ps) := by
  induction ps with
  | nil => exact inferInstanceAs (Walks (pure _))
  | cons p rest ih => unfold paramList?; infer_instance

instance (fn : SymbolId) : Walks (paramTypes rec fn) := by
  unfold paramTypes
  refine Walks.bind fun info => Walks.ite inferInstance (Walks.bind fun n => Walks.bind fun found => ?_)
  split <;> infer_instance

instance (returns : List NodeId) : Walks (firstReturn rec returns) := by
  induction returns with
  | nil => exact inferInstanceAs (Walks (pure _))
  | cons r rest ih => unfold firstReturn; infer_instance

/-- Without a declared result and a return statement the result is void. -/
instance (fn : SymbolId) : Walks (funcResult rec fn) := by
  refine ⟨fun s => ?_⟩
  unfold funcResult
  refine .bind .inst fun info s₁ h₁ _ => ?_
  obtain ⟨rfl, hinfo⟩ := funcInfo_ok h₁
  refine .bind .inst fun r s₂ h₂ _ => .ite (fun _ => .inst) fun _ => .node_bind fun n hn => .of_sound fun hs => ?_
  cases h₂
  have hk : n.kind = .func := by
    obtain ⟨sym, hsym, hfn, hd⟩ := hs.infos fn info hinfo
    obtain ⟨m, hm, hmk⟩ := hs.laid.decls fn sym hsym hfn
    cases hn.symm.trans (hd ▸ hm)
    exact hmk
  have keep (t : TypeId) {s' : Analysis} (hw : Steps s₁ s') (ht : n.a = 0 → info.returns = [] → t = TypeTable.void) :
      WalksFrom s' (do
        if ← isResolved t then modifyFunc fn fun i => { i with result := t }
        pure t) := by
    refine .bind .inst fun b s'' hb _ => ?_
    cases hb
    refine .ite (fun _ => .bind (modifyFunc_from fun info' hi' => .result hi' t fun n' hn' h0 hr => ?_) fun _ _ _ _ => .inst)
      fun _ => .inst
    obtain ⟨i, hi, g⟩ := hw.infos hinfo
    cases hi.symm.trans hi'
    refine ht ?_ (List.prefix_nil.1 (hr ▸ g.returns))
    by_contra ha
    exact hw.refines.filled info.node n n' hn (g.node ▸ hn') (by rw [hk]; decide) ha h0
  refine .ite (fun ha => .bind .inst fun t s₂ _ hw => keep t hw fun h => absurd h ha) fun _ => ?_
  refine .ite (fun _ => keep _ .refl fun _ _ => rfl) fun hr => .bind .inst fun b s₂ hb _ => .ite (fun _ => .inst) fun _ => ?_
  cases hb
  refine whileTyping_from fun s₂ hw₂ => .bind .inst fun t s₃ _ hw₃ => keep t (hw₂.trans hw₃) fun _ h => ?_
  exact absurd (by rw [h]; rfl) hr

instance (fn : SymbolId) : Walks (funcType rec fn) := by
  unfold funcType
  refine Walks.bind fun sym => Walks.bind fun s => ?_
  split
  · refine Walks.bind fun r => Walks.ite inferInstance (Walks.bind fun ready => Walks.ite inferInstance ?_)
    exact Walks.bind fun t => inferInstance
  · infer_instance

instance (id : NodeId) : Walks (letType rec id) := by
  have keep (sym : SymbolId) (t : TypeId) : Walks (do
      if ← isResolved t then setSymbolType sym t
      pure t : AnalysisM TypeId) := by infer_instance
  unfold letType
  refine Walks.bind fun n => Walks.bind fun s => Walks.bind fun sym => Walks.bind fun r => Walks.ite inferInstance ?_
  refine Walks.bind fun b => Walks.ite inferInstance ?_
  dsimp only
  generalize (s.result.decls.get? id).getD 0 = symId
  have typed : Walks (if n.a ≠ 0 then rec.typeExpr n.a >>= fun t => do
        if ← isResolved t then setSymbolType symId t
        pure t
      else if n.b ≠ 0 then rec.resolve n.b >>= fun t => do
        if ← isResolved t then setSymbolType symId t
        pure t
      else pure TypeTable.dynamic >>= fun t => do
        if ← isResolved t then setSymbolType symId t
        pure t : AnalysisM TypeId) :=
    Walks.ite (Walks.bind (keep symId)) (Walks.ite (Walks.bind (keep symId)) (Walks.bind (keep symId)))
  infer_instance

instance (id : NodeId) : Walks (foreachTypes rec id) := by
  unfold foreachTypes
  refine Walks.bind fun n => Walks.bind fun it => Walks.bind fun r => Walks.ite inferInstance (Walks.bind fun t => ?_)
  have named (r : AnalysisResult) (value key : TypeId) : Walks (do
      if let some sym := r.decls.get? id then setSymbolType sym value
      if let some sym := r.keys.get? id then setSymbolType sym key
      pure (value, key) : AnalysisM (TypeId × TypeId)) := by
    dsimp only
    split <;> split <;> infer_instance
  dsimp only
  split
  case h_5 => exact Walks.bind fun _ => Walks.bind fun _ => Walks.bind fun _ => Walks.bind fun _ => Walks.bind fun s => named s.result _ _
  all_goals exact Walks.bind fun _ => Walks.bind fun s => named s.result _ _

instance (arm : NodeId) : Walks (armBindType rec arm) := by
  unfold armBindType
  refine Walks.bind fun s => ?_
  split
  · refine Walks.bind fun _ => Walks.bind fun st => Walks.bind fun r => Walks.ite inferInstance ?_
    refine Walks.bind fun n => Walks.bind fun t => Walks.bind fun s => ?_
    dsimp only
    split <;> infer_instance
  · infer_instance

instance (id : SymbolId) : Walks (varTypeStep rec id) := by
  unfold varTypeStep
  refine Walks.bind fun sym => Walks.bind fun r => Walks.ite inferInstance ?_
  refine Walks.ite inferInstance (Walks.ite inferInstance (Walks.bind fun t => ?_))
  split <;> infer_instance

end

end TreeCompiler.Analysis
