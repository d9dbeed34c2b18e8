import TreeCompiler.Analysis.Instance
import TreeCompiler.Proofs.Agree.Declare

/-!
# Two runs in step: names and instances

An instance is the only thing that is added to what a generic has. Its key is new, because it was looked for before and
nothing in between enters another one; its symbol is new, because symbols are only added.

* `Agrees` : the functions that resolution calls back agree;
* `Idle` : a computation that has nothing to do with instances;
* `instanceOf_eq` : the steps of making an instance; `agreeFrom_newInstance` : those that enter it;
* `instanceOf_known` : the instance that was asked for is an instance of its generic, under the key of the arguments;
* `Agree` of `instantiate`, `pattern?` and `derive?`.
-/

namespace TreeCompiler

theorem Dialect.RespellsScopes.enterInstance {d : Dialect} {t t' : ScopeTable}
    (h : d.RespellsScopes t t') (gen : SymbolId) (key : String) (sym : Symbol) :
    (t'.enterInstance gen key sym).1 = (t.enterInstance gen key sym).1 ∧
      d.RespellsScopes (t.enterInstance gen key sym).2 (t'.enterInstance gen key sym).2 := by
  obtain ⟨hid, ha⟩ := h.addSymbol sym
  refine ⟨hid, ?_⟩
  unfold ScopeTable.enterInstance
  dsimp only
  rw [hid]
  exact ha.modifySymbol gen _

namespace Analysis

variable {g : Pace} {F : List NodeId} {α β : Type}

/-- What resolution calls back agrees. -/
class Agrees (g : Pace) (rec : Resolver) : Prop where
  resolve : ∀ (F : List NodeId) (id : NodeId), Agree g F (rec.resolve id) (rec.resolve id)
  typeExpr : ∀ (F : List NodeId) (id : NodeId), Agree g F (rec.typeExpr id) (rec.typeExpr id)
  varType : ∀ (F : List NodeId) (id : SymbolId), Agree g F (rec.varType id) (rec.varType id)

attribute [instance] Agrees.resolve Agrees.typeExpr Agrees.varType

theorem symbol_of_ok {id : SymbolId} {sym : Symbol} {s s' : Analysis} (h : symbol id s = .ok sym s') :
    s' = s ∧ s.result.scopes.symbol? id = some sym := by
  rw [symbol_apply] at h
  cases hsym : s.result.scopes.symbol? id <;> rw [hsym] at h <;> cases h
  exact ⟨rfl, rfl⟩

theorem symbol_bind_scopes (id : SymbolId) (f : Symbol → AnalysisM β) : (symbol id >>= f) = scopes >>= fun t =>
    (match t.symbol? id with
      | some sym => f sym
      | none => MonadExcept.throw AnalysisFailure.brokenReference) := by
  unfold symbol
  rw [bind_assoc]
  refine congrArg (scopes >>= ·) (funext fun t => ?_)
  cases t.symbol? id <;> rfl

theorem AgreeFrom.symbol_bind {s : Analysis} {v : View} {id : SymbolId} {f f' : Symbol → AnalysisM β}
    (h : ∀ sym, s.result.scopes.symbol? id = some sym → AgreeFrom g F s v (f sym) (f' sym)) :
    AgreeFrom g F s v (symbol id >>= f) (symbol id >>= f') := by
  rw [symbol_bind_scopes, symbol_bind_scopes]
  refine scopes_bind fun t ht => ?_
  rw [ht.symbol?]
  cases hsym : s.result.scopes.symbol? id with
  | none => exact .inst
  | some sym => exact h sym hsym

/-! ## Parts of making an instance -/

/-- A copy of the declaration without its type parameters. -/
def copyDecl (decl : NodeId) : AnalysisM NodeId := do
  let some (clone, copied) := (← tree).copy decl | throw .unbounded
  modifyResult fun r => { r with tree := copied.modify clone fun n => { n with params := [] } }
  return clone

theorem copyDecl_apply (decl : NodeId) (s : Analysis) : copyDecl decl s = (match s.result.tree.copy decl with
    | some (clone, copied) =>
      .ok clone { s with result := { s.result with tree := copied.modify clone fun n => { n with params := [] } } }
    | none => .error .unbounded s) := by
  have htree (f : Tree → AnalysisM NodeId) : (tree >>= f) s = f s.result.tree s := rfl
  unfold copyDecl
  rw [htree]
  cases s.result.tree.copy decl <;> rfl

/-- The key of the type arguments. -/
def keyFor (args : List TypeId) : AnalysisM String :=
  modifyGet fun s =>
    let (key, prints) := s.prints.keyOf s.result.types args
    (key, { s with prints })

/-- Copies the declaration of a generic and enters the copy as a new instance. -/
def newInstance (gen : SymbolId) (g : Symbol) (tpl : Template) (args : List TypeId) (key : String) :
    AnalysisM (NodeId × ScopeId × SymbolId) := do
  let clone ← copyDecl g.decl
  let ts ← templateScope g tpl.params args
  let inst ← withScopes (·.enterInstance gen key
    { name := g.name, kind := g.kind, attrs := g.attrs, scope := g.scope, decl := clone, span := g.span,
      type := TypeTable.pending, set := g.set, handle := g.handle, origin := gen, templateArgs := args })
  return (clone, ts, inst)

/-- Declares the copy and checks its where clause. -/
def openInstance (rec : Resolver) (kind : SymbolKind) (args : List TypeId) (clone : NodeId) (ts : ScopeId)
    (inst : SymbolId) : AnalysisM SymbolId := do
  outsideLoops <| withScope ts do
    setScope clone ts
    declareInstance kind clone inst args
  let clause := (← node clone).c
  if kind = .function && clause ≠ 0 && !(← anyParams args) then
    if !(← trying (whereHolds rec clause)) then
      modifyScopes fun tab => tab.modifySymbol inst fun s => { s with rejected := true }
  return inst

theorem instanceOf_eq (rec : Resolver) (gen : SymbolId) (args : List TypeId) : instanceOf rec gen args = (do
    let g ← symbol gen
    match g.template with
    | none => internal g.decl (.notGeneric (← symbolName gen))
    | some tpl =>
      let key ← keyFor args
      match tpl.instances.lookup key with
      | some inst => return inst
      | none =>
        let (clone, ts, inst) ← newInstance gen g tpl args key
        openInstance rec g.kind args clone ts inst) := by
  unfold instanceOf newInstance copyDecl openInstance
  refine congrArg (symbol gen >>= ·) (funext fun g => ?_)
  cases g.template with
  | none => rfl
  | some tpl =>
    refine congrArg (keyFor args >>= ·) (funext fun key => ?_)
    cases tpl.instances.lookup key with
    | some inst => rfl
    | none =>
      simp only [bind_assoc, pure_bind]
      refine congrArg (tree >>= ·) (funext fun t => ?_)
      cases t.copy g.decl with
      | none => rfl
      | some r =>
        simp only [bind_assoc, pure_bind]
        rfl

/-! ## Computations that have nothing to do with instances -/

class Idle (m : AnalysisM α) : Prop where
  idle : ∀ s, Aside s (after m s)

theorem Idle.of_ok {m : AnalysisM α} [h : Idle m] {a : α} {s s' : Analysis} (hm : m s = .ok a s') : Aside s s' := by
  have haside := h.idle s
  rwa [after, hm] at haside

namespace Idle

instance (a : α) : Idle (pure a) := ⟨.refl⟩

theorem seq {x : AnalysisM α} {f : α → AnalysisM β} (hx : Idle x) (hf : ∀ a, Idle (f a)) : Idle (x >>= f) := by
  refine ⟨fun s => ?_⟩
  have h := hx.idle s
  unfold after at h ⊢
  simp only [Bind.bind, EStateM.bind]
  cases hxs : x s with
  | error e s₁ =>
    rw [hxs] at h
    exact h
  | ok a s₁ =>
    rw [hxs] at h
    exact h.trans ((hf a).idle s₁)

theorem forIn {f : α → β → AnalysisM (ForInStep β)} (l : List α) (b : β) (h : ∀ a b, Idle (f a b)) : Idle (forIn l b f) := by
  induction l generalizing b with
  | nil => exact inferInstanceAs (Idle (pure b))
  | cons a l ih =>
    rw [List.forIn_cons]
    refine seq (h a b) fun r => ?_
    cases r with
    | done b => exact inferInstanceAs (Idle (pure b))
    | yield b => exact ih b

theorem stepScopes {f : ScopeTable → α × ScopeTable} (h : ∀ t : ScopeTable, t.SameInstances (f t).2) : Idle (withScopes f) :=
  ⟨fun s => .of_scopes (h s.result.scopes)⟩

/-- The names of the type parameters are bound to types. -/
instance (g : Symbol) (params : List String) (args : List TypeId) : Idle (templateScope g params args) := by
  unfold templateScope
  refine seq (stepScopes fun t => t.sameInstances_addScope _) fun ts => ?_
  refine seq (forIn _ _ fun (p, t) _ => ?_) fun _ => inferInstance
  refine seq (stepScopes fun t => t.sameInstances_intern p) fun name => ⟨fun s => ?_⟩
  change Aside s (after (match s.result.scopes.declare ts { name, kind := .type, span := g.span, type := t } with
    | .ok (_, scopes) => do
      modifyScopes fun _ => scopes
      pure (ForInStep.yield PUnit.unit)
    | .error _ => pure (ForInStep.yield PUnit.unit)) s)
  split
  · rename_i hdeclare
    exact .of_scopes (ScopeTable.sameInstances_declare rfl hdeclare)
  · exact .refl s

instance (decl : NodeId) : Idle (copyDecl decl) := by
  refine ⟨fun s => ?_⟩
  rw [after, copyDecl_apply]
  cases hcopy : s.result.tree.copy decl with
  | none => exact .refl s
  | some r =>
    have hext := (Tree.copy_copies hcopy).extends_modify fun n => { n with params := [] }
    exact ⟨rfl, List.Subset.refl _, hext.plain, rfl, rfl, .refl _⟩

end Idle

namespace Agree

instance (g' : Symbol) (params : List String) (args : List TypeId) :
    Agree g F (templateScope g' params args) (templateScope g' params args) := by
  unfold templateScope
  refine bind fun ts => seq (forIn _ _ fun (p, t) _ _ => ?_) fun _ => inferInstance
  refine bind fun name => ⟨fun s v => .scopes_bind fun tab htab => ?_⟩
  obtain ⟨e, he, he'⟩ | ⟨id, u, u', hu, hu', hrel⟩ := htab.declare ts { name, kind := .type, span := g'.span, type := t }
  · rw [he, he']
    exact .inst
  · rw [hu, hu']
    exact .bind (.setScopes (ScopeTable.sameInstances_declare rfl hu) fun _ => hrel) fun _ _ _ _ => .inst

/-! ## Names -/

instance (id : NodeId) (n : Node) (w : Spelling) [hs : g.Spells n w] :
    Agree g F (lookupName id n) (lookupName id (n.spelled w)) := by
  unfold lookupName
  refine bind fun q => scopes_bind fun t t' ht => ?_
  have hlookup : t'.lookupQualified? q w.path (n.spelled w).fromGlobal w.name =
      t.lookupQualified? q n.path n.fromGlobal n.name := ht.lookupQualified? q hs.path n.fromGlobal hs.name
  dsimp only
  rw [hlookup]
  split
  · exact seq (reportAs (by rfl) _) fun _ => inferInstance
  · refine ite (seq (reportAs ?_ _) fun _ => inferInstance) (ite (seq (reportWithAs (by rfl) _ _ _) fun _ => inferInstance)
      (ite (bind fun sym => seq (reportWithAs (by rfl) _ _ _) fun _ => inferInstance) inferInstance))
    split
    · rfl
    · split <;> rfl

section Resolver

variable {rec : Resolver} [Agrees g rec]

instance (n : Node) (w : Spelling) : Agree g F (typeArgsReady rec n) (typeArgsReady rec (n.spelled w)) := by
  unfold typeArgsReady
  infer_instance

instance (ids : List NodeId) : Agree g F (typeList? rec ids) (typeList? rec ids) := by
  induction ids with
  | nil => exact inferInstanceAs (Agree g F (pure _) (pure _))
  | cons id rest ih =>
    unfold typeList?
    infer_instance

instance (n : Node) (w : Spelling) : Agree g F (typeArgs? rec n) (typeArgs? rec (n.spelled w)) := by
  unfold typeArgs?
  infer_instance

instance (clause : NodeId) : Agree g F (whereHolds rec clause) (whereHolds rec clause) := by
  unfold whereHolds
  refine node_bind fun n w _ => seq (forIn _ _ fun c _ _ => ?_) fun r => ?_
  · exact bind fun t => inferInstance
  · dsimp only
    split <;> infer_instance

end Resolver

/-! ## The copy of a declaration -/

instance (args : List TypeId) : Agree g F (anyParams args) (anyParams args) := by
  unfold anyParams
  infer_instance

instance (decl : NodeId) : Agree g F (copyDecl decl) (copyDecl decl) := by
  refine ⟨fun s v => ?_⟩
  cases hcopy : s.result.tree.copy decl with
  | none =>
    have hfail : copyDecl decl s = .error .unbounded s := by rw [copyDecl_apply, hcopy]
    refine ⟨(Idle.idle s).later, fun ha => .inr ⟨v, by rw [after, hfail]; exact ha, ?_⟩⟩
    have hrel := ha.tree.copy decl
    generalize hcopy' : v.tree.copy decl = o at hrel
    rw [hcopy] at hrel
    cases hrel
    rw [hfail, copyDecl_apply, hcopy']
    rfl
  | some r =>
    let s₁ : Analysis := { s with result := { s.result with tree := r.2.modify r.1 fun n => { n with params := [] } } }
    have hdone : copyDecl decl s = .ok r.1 s₁ := by rw [copyDecl_apply, hcopy]
    have hext : s.result.tree.Extends s₁.result.tree := (Tree.copy_copies hcopy).extends_modify _
    refine ⟨(Idle.idle s).later, fun ha => .inr ?_⟩
    · have hrel := ha.tree.copy decl
      generalize hcopy' : v.tree.copy decl = o at hrel
      rw [hcopy] at hrel
      cases hrel with | @some _ r' hcopied =>
      have hsame : r'.1 = r.1 := (List.cons.inj hcopied.same).1
      let v₁ : View := { v with tree := r'.2.modify r'.1 fun n => { n with params := [] } }
      have hext' : v.tree.Extends v₁.tree := (Tree.copy_copies hcopy').extends_modify _
      have grown {c : NodeId} (hc : g.Written s.result.tree v.tree c) : g.Written s₁.result.tree v₁.tree c :=
        hc.mono (.of_extends hext) (.of_extends hext')
      have hrespells : g.Respells s₁.result.tree v₁.tree := by
        change g.Respells (r.2.modify r.1 _) (r'.2.modify r'.1 _)
        rw [hsame]
        exact hcopied.respells.modify r.1 (fun _ _ => rfl) (fun _ => ⟨rfl, rfl, rfl⟩) fun _ _ _ hc => .inl hc
      refine ⟨v₁, ?_, ?_⟩
      · rw [after, hdone]
        exact ⟨hrespells, ha.scopes, ha.sink, fun c hc => grown (ha.written c hc), fun arm m hm => grown (ha.arms arm m hm),
          ha.depth⟩
      · rw [hdone, copyDecl_apply, hcopy']
        exact congrArg (fun id => EStateM.Result.ok id (s₁.vary g v₁)) hsame

instance (kind : SymbolKind) (clone : NodeId) (inst : SymbolId) (args : List TypeId) :
    Agree g F (declareInstance kind clone inst args) (declareInstance kind clone inst args) := by
  have hfunc : Agree g F (modifyResult fun r => { r with funcs := r.funcs.insert clone inst })
      (modifyResult fun r => { r with funcs := r.funcs.insert clone inst }) := noteResult fun _ _ _ => rfl
  have hstorage (storage : Storage) : Agree g F (modifyScopes (·.modifySymbol inst fun s => { s with storage }))
      (modifyScopes (·.modifySymbol inst fun s => { s with storage })) := changeSymbol inst fun _ => rfl
  have hstatic (init : NodeId) : Agree g F
      (modifyResult fun r => { r with statics := r.statics ++ [{ symbol := inst, init }] })
      (modifyResult fun r => { r with statics := r.statics ++ [{ symbol := inst, init }] }) := noteResult fun _ _ _ => rfl
  have hvisit : Agree g F (modify fun s => { s with instances := s.instances.push clone })
      (modify fun s => { s with instances := s.instances.push clone }) :=
    note (fun _ _ => rfl) fun _ => ⟨rfl, rfl, rfl, rfl, rfl, rfl⟩
  unfold declareInstance
  refine node_bind fun n w _ => ?_
  split
  · infer_instance
  · exact bind fun storage => bind fun _ => bind fun _ => bind fun _ => inferInstance
  · infer_instance
  · infer_instance

/-! ## Entering an instance -/

instance (args : List TypeId) : Agree g F (keyFor args) (keyFor args) := by
  refine ⟨fun s v => .modifyGet ?_ fun ha => ⟨v, { ha with }, rfl⟩⟩
  have hgrows := Fingerprints.grows_keyOf (f := s.prints) s.result.types args
  refine ⟨rfl, List.Subset.refl _, fun _ h => h, hgrows, fun _ => List.prefix_refl _, fun hl => ?_⟩
  refine { hl with issues := Fingerprints.issues_keyOf hl.issues _ _, requests := fun r hr => ?_ }
  obtain ⟨key, hmem, hkeyed⟩ := hl.requests r hr
  exact ⟨key, hmem, hkeyed.mono hgrows⟩

end Agree

/-- A new instance under a key that no other has. -/
theorem later_enterInstance {s : Analysis} {gen : SymbolId} {key : String} {sym : Symbol} (hsym : sym.instances = [])
    (hgen : s.result.scopes.IsGeneric gen) (hkey : key ∉ (s.result.scopes.instancesOf gen).map (·.1)) :
    Later s { s with result := { s.result with scopes := (s.result.scopes.enterInstance gen key sym).2 } } := by
  have hinstances := ScopeTable.instancesOf_enterInstance hgen key hsym
  have hgrown (other : SymbolId) : s.result.scopes.instancesOf other <+:
      (s.result.scopes.enterInstance gen key sym).2.instancesOf other := by
    rw [hinstances]
    exact List.prefix_append ..
  refine ⟨rfl, List.Subset.refl _, fun _ h => h, .refl _, hgrown, fun hl => ⟨hl.issues, ?_, ?_, ?_, ?_⟩⟩
  · intro other
    change (((s.result.scopes.enterInstance gen key sym).2.instancesOf other).map (·.1)).Nodup
    rw [hinstances, List.map_append]
    split
    · subst other
      have hkeys := List.Nodup.concat hkey (hl.keys gen)
      rwa [List.concat_eq_append] at hkeys
    · simpa using hl.keys other
  · intro other
    change (((s.result.scopes.enterInstance gen key sym).2.instancesOf other).map (·.2)).Nodup
    rw [hinstances, List.map_append]
    split
    · subst other
      have hfresh : s.result.scopes.symbols.size + 1 ∉ (s.result.scopes.instancesOf gen).map (·.2) := by
        intro hmem
        obtain ⟨e, he, hlast⟩ := List.mem_map.1 hmem
        have hle := hl.known gen e he
        rw [hlast] at hle
        exact Nat.not_succ_le_self _ hle
      have hinsts := List.Nodup.concat hfresh (hl.insts gen)
      rwa [List.concat_eq_append] at hinsts
    · simpa using hl.insts other
  · intro other e he
    change e ∈ (s.result.scopes.enterInstance gen key sym).2.instancesOf other at he
    change e.2 ≤ (s.result.scopes.enterInstance gen key sym).2.symbols.size
    rw [ScopeTable.size_enterInstance]
    rw [hinstances] at he
    rcases List.mem_append.1 he with he | he
    · exact Nat.le_succ_of_le (hl.known other e he)
    · split at he
      · rw [List.mem_singleton.1 he]
      · cases he
  · intro r hr
    obtain ⟨k, hmem, hkeyed⟩ := hl.requests r hr
    exact ⟨k, (hgrown r.generic).subset hmem, hkeyed⟩

/-- The generic has no instance under the key yet. -/
structure Lacks (gen : SymbolId) (key : String) (s : Analysis) : Prop where
  generic : s.result.scopes.IsGeneric gen
  fresh : key ∉ (s.result.scopes.instancesOf gen).map (·.1)

theorem Lacks.aside {gen : SymbolId} {key : String} {s s' : Analysis} (h : Lacks gen key s) (ha : Aside s s') :
    Lacks gen key s' := by
  refine ⟨ha.tables.generic gen h.generic, ?_⟩
  rw [ha.tables.instances]
  exact h.fresh

theorem instancesOf_eq {s : Analysis} {gen : SymbolId} {g' : Symbol} {tpl : Template}
    (hg : s.result.scopes.symbol? gen = some g') (htpl : g'.template = some tpl) :
    s.result.scopes.instancesOf gen = tpl.instances := by
  simp [ScopeTable.instancesOf, hg, Symbol.instances, Symbol.instances?, htpl]

theorem lacks_of_lookup {s : Analysis} {gen : SymbolId} {g' : Symbol} {tpl : Template} {key : String}
    (hg : s.result.scopes.symbol? gen = some g') (htpl : g'.template = some tpl) (hkey : tpl.instances.lookup key = none) :
    Lacks gen key s := by
  refine ⟨⟨g', tpl, hg, htpl⟩, fun hmem => ?_⟩
  rw [instancesOf_eq hg htpl] at hmem
  obtain ⟨e, he, rfl⟩ := List.mem_map.1 hmem
  simpa using List.lookup_eq_none_iff.1 hkey e he

theorem agreeFrom_newInstance {s : Analysis} {v : View} {gen : SymbolId} {key : String} (h : Lacks gen key s) (g' : Symbol)
    (tpl : Template) (args : List TypeId) :
    AgreeFrom g F s v (newInstance gen g' tpl args key) (newInstance gen g' tpl args key) := by
  unfold newInstance
  refine .seq fun clone s₁ v₁ h₁ => .seq fun ts s₂ v₂ h₂ => .bind ?_ fun _ _ _ _ => .inst
  have hlacks := (h.aside (Idle.of_ok h₁)).aside (Idle.of_ok h₂)
  exact .stepScopes (later_enterInstance rfl hlacks.generic hlacks.fresh) fun t ht => ht.enterInstance gen key _

theorem newInstance_ok {s s' : Analysis} {gen : SymbolId} {key : String} (h : Lacks gen key s) {g' : Symbol} {tpl : Template}
    {args : List TypeId} {r : NodeId × ScopeId × SymbolId} (hr : newInstance gen g' tpl args key s = .ok r s') :
    (key, r.2.2) ∈ s'.result.scopes.instancesOf gen := by
  unfold newInstance at hr
  obtain ⟨clone, s₁, h₁, hr⟩ := bind_ok hr
  obtain ⟨ts, s₂, h₂, hr⟩ := bind_ok hr
  have hlacks := (h.aside (Idle.of_ok h₁)).aside (Idle.of_ok h₂)
  obtain ⟨inst, s₃, h₃, hr⟩ := bind_ok hr
  cases h₃
  cases hr
  change _ ∈ (ScopeTable.enterInstance _ _ _ _).2.instancesOf gen
  rw [ScopeTable.instancesOf_enterInstance hlacks.generic _ rfl, if_pos rfl]
  exact List.mem_append_right _ (List.mem_singleton_self _)

theorem keyFor_ok {args : List TypeId} {key : String} {s s' : Analysis} (h : keyFor args s = .ok key s') :
    s'.result = s.result ∧ s'.prints.Keyed args key := by
  cases h
  exact ⟨rfl, Fingerprints.keyed_keyOf s.result.types args⟩

section Resolver

variable {rec : Resolver} [Agrees g rec]

instance (kind : SymbolKind) (args : List TypeId) (clone : NodeId) (ts : ScopeId) (inst : SymbolId) :
    Agree g F (openInstance rec kind args clone ts inst) (openInstance rec kind args clone ts inst) := by
  have hreject : Agree g F (modifyScopes (·.modifySymbol inst fun s => { s with rejected := true }))
      (modifyScopes (·.modifySymbol inst fun s => { s with rejected := true })) := .changeSymbol inst fun _ => rfl
  unfold openInstance
  refine .bind fun _ => .node_bind fun n w _ => ?_
  infer_instance

instance (gen : SymbolId) (args : List TypeId) : Agree g F (instanceOf rec gen args) (instanceOf rec gen args) := by
  refine ⟨fun s v => ?_⟩
  rw [instanceOf_eq]
  refine .symbol_bind fun g' hg => ?_
  split
  · exact .inst
  · rename_i tpl htpl
    refine .seq fun key s₁ v₁ hkey => ?_
    split
    · exact .inst
    · rename_i hnone
      rw [← (keyFor_ok hkey).1] at hg
      exact .bind (agreeFrom_newInstance (lacks_of_lookup hg htpl hnone) ..) fun r _ _ _ => .inst

omit [Agrees g rec] in
theorem openInstance_ok {kind : SymbolKind} {args : List TypeId} {clone : NodeId} {ts : ScopeId} {inst out : SymbolId}
    {s s' : Analysis} (h : openInstance rec kind args clone ts inst s = .ok out s') : out = inst := by
  unfold openInstance at h
  obtain ⟨_, s₁, -, h₁⟩ := bind_ok h
  obtain ⟨n, s₂, -, h₂⟩ := bind_ok h₁
  obtain ⟨open_, s₃, -, h₃⟩ := bind_ok h₂
  split at h₃
  · obtain ⟨holds, s₄, -, h₄⟩ := bind_ok h₃
    split at h₄
    · obtain ⟨_, s₅, -, h₅⟩ := bind_ok h₄
      cases h₅
      rfl
    · cases h₄
      rfl
  · cases h₃
    rfl

include g in
theorem instanceOf_known {gen : SymbolId} {args : List TypeId} {inst : SymbolId} {s s' : Analysis}
    (h : instanceOf rec gen args s = .ok inst s') :
    ∃ key, (key, inst) ∈ s'.result.scopes.instancesOf gen ∧ s'.prints.Keyed args key := by
  rw [instanceOf_eq] at h
  obtain ⟨g', s₁, hg, hrest⟩ := bind_ok h
  obtain ⟨rfl, hsym⟩ := symbol_of_ok hg
  cases htpl : g'.template with
  | none =>
    rw [htpl] at hrest
    obtain ⟨name, s₂, -, hfail⟩ := bind_ok hrest
    cases hfail
  | some tpl =>
    rw [htpl] at hrest
    obtain ⟨key, s₂, hkey, hrest⟩ := bind_ok hrest
    obtain ⟨hresult, hkeyed⟩ := keyFor_ok hkey
    rw [← hresult] at hsym
    cases hfound : tpl.instances.lookup key with
    | some found =>
      rw [hfound] at hrest
      cases hrest
      obtain ⟨before, rest, hsplit, -⟩ := List.lookup_eq_some_iff.1 hfound
      refine ⟨key, ?_, hkeyed⟩
      rw [instancesOf_eq hsym htpl, hsplit]
      exact List.mem_append_right _ List.mem_cons_self
    | none =>
      rw [hfound] at hrest
      obtain ⟨r, s₃, hr, hopen⟩ := bind_ok hrest
      have hlacks := lacks_of_lookup hsym htpl hfound
      have hmade : Later s₂ s₃ := (agreeFrom_newInstance (g := g) (F := []) (v := s₂.view) hlacks g' tpl args).of_ok hr
      have hopened : Later s₃ s' := AgreeFrom.later_of_ok (g := g) (F := []) hopen
      have hinst := openInstance_ok hopen
      rw [hinst]
      exact ⟨key, (hopened.instances gen).subset (newInstance_ok hlacks hr),
        hkeyed.mono (hmade.prints.trans hopened.prints)⟩

instance (gen : SymbolId) (args : List TypeId) : Agree g F (instantiate rec gen args) (instantiate rec gen args) := by
  unfold instantiate
  refine ⟨fun s v => .seq fun inst s₁ v₁ hinst => .bind (.modify ?_ fun ha => ⟨v₁, { ha with }, rfl⟩) fun _ _ _ _ => .inst⟩
  have hknown := instanceOf_known (g := g) hinst
  refine ⟨rfl, List.Subset.refl _, fun _ h => h, .refl _, fun _ => List.prefix_refl _, fun hl => ?_⟩
  refine { hl with requests := fun r hr => ?_ }
  rcases List.mem_cons.1 hr with rfl | hr
  · exact hknown
  · exact hl.requests r hr

/-! ## Type arguments that are derived -/

instance (ts : ScopeId) (ps : List NodeId) : Agree g F (patternTypes rec ts ps) (patternTypes rec ts ps) := by
  induction ps with
  | nil => exact inferInstanceAs (Agree g F (pure _) (pure _))
  | cons p rest ih =>
    unfold patternTypes
    refine .node_bind fun n w _ => .ite (.bind fun t => inferInstance) (.tree_bind fun t t' ht => ?_)
    rw [ht.walk]
    dsimp only
    split <;> infer_instance

instance (gen : SymbolId) : Agree g F (pattern? rec gen) (pattern? rec gen) := by
  have hkeep (found : List TypeId) : Agree g F
      (modifyScopes (·.modifySymbol gen fun s =>
        { s with template := s.template.map fun tp => { tp with pattern := some found } }))
      (modifyScopes (·.modifySymbol gen fun s =>
        { s with template := s.template.map fun tp => { tp with pattern := some found } })) :=
    .changeSymbol gen fun s => by simp [Symbol.instances?, Function.comp_def]
  unfold pattern?
  refine .bind fun g' => ?_
  split
  · split
    · infer_instance
    · refine .bind fun holders => .bind fun ts => .node_bind fun n w _ => .bind fun r => ?_
      split <;> infer_instance
  · infer_instance

instance (gen : SymbolId) (actuals : List TypeId) : Agree g F (derive? rec gen actuals) (derive? rec gen actuals) := by
  have horigin {t t' : ScopeTable} (ht : g.RespellsScopes t t') : originOf t' = originOf t := by
    funext sym
    unfold originOf
    rw [ht.symbol?]
  unfold derive?
  refine .bind fun r => ?_
  split
  · refine .bind fun g' => ⟨fun s v => .table_bind fun t ht => ?_⟩
    dsimp only
    rw [horigin ht]
    exact .inst
  · infer_instance

end Resolver

end Analysis

end TreeCompiler
