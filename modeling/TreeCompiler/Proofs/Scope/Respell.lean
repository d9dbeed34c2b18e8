import Mathlib.Data.List.Forall2
import TreeCompiler.Proofs.Tree.Respell
import TreeCompiler.Scope.Lookup

/-!
# Scope tables in another spelling

Declaring and looking up go through the numbers of names, and canonically equivalent spellings have one number. A scope
keeps the spelling it was opened with and the paths of its imports as they are written, so tables of two spellings differ
there and nowhere else.

* `Scope.spelled`, `Dialect.SpellsImport` : a scope and an import in another spelling;
* `Dialect.RespellsScopes` : tables that differ in spelling only; `RespellsScopes.lookupQualified?` : lookups find the same
  in both;
* `RespellsScopes.declare` and the lemmas beside it : what an analysis does to both tables keeps it.
-/

namespace TreeCompiler

@[reducible] def Scope.spelled (s : Scope) (name : String) (imports : List Import) : Scope := { s with name, imports }

namespace Dialect

variable {d : Dialect}

def SpellsImport (d : Dialect) (u u' : Import) : Prop := ∃ path, u' = { u with path } ∧ List.Forall₂ d.Same u.path path

theorem eq_of_imports (hd : d.Strict) {us us' : List Import} (h : List.Forall₂ d.SpellsImport us us') : us' = us := by
  induction h with
  | nil => rfl
  | cons hu _ ih =>
    obtain ⟨path, rfl, hpath⟩ := hu
    rw [ih, eq_of_forall₂ hd hpath]

/-- The scopes `s` and `s'` differ in spelling only. -/
def SpellsScope (d : Dialect) (s s' : Scope) : Prop :=
  ∃ name imports, d.Same s.name name ∧ List.Forall₂ d.SpellsImport s.imports imports ∧ s' = s.spelled name imports

structure RespellsScopes (d : Dialect) (t t' : ScopeTable) : Prop where
  names : t'.names = t.names
  symbols : t'.symbols = t.symbols
  globals : t'.globals = t.globals
  scopes : List.Forall₂ d.SpellsScope t.scopes.toList t'.scopes.toList

namespace RespellsScopes

variable {t t' : ScopeTable}

theorem size (h : d.RespellsScopes t t') : t'.scopes.size = t.scopes.size := h.scopes.length_eq.symm

theorem symbol? (h : d.RespellsScopes t t') (id : SymbolId) : t'.symbol? id = t.symbol? id := by
  unfold ScopeTable.symbol?
  rw [h.symbols]

theorem symbolName (h : d.RespellsScopes t t') (id : SymbolId) : t'.symbolName id = t.symbolName id := by
  unfold ScopeTable.symbolName
  rw [h.symbol?, h.names]

/-- The scope of a number in both tables. -/
theorem scope?_cases (h : d.RespellsScopes t t') (id : ScopeId) : t.scope? id = none ∧ t'.scope? id = none ∨
    ∃ s s', t.scope? id = some s ∧ t'.scope? id = some s' ∧ d.SpellsScope s s' := by
  unfold ScopeTable.scope?
  split
  · exact .inl ⟨rfl, rfl⟩
  · rw [← Array.getElem?_toList, ← Array.getElem?_toList]
    have hlist := h.scopes
    generalize t.scopes.toList = l, t'.scopes.toList = l' at hlist
    generalize id - 1 = i
    induction hlist generalizing i with
    | nil => exact .inl ⟨rfl, rfl⟩
    | cons hs _ ih =>
      cases i with
      | zero => exact .inr ⟨_, _, rfl, rfl, hs⟩
      | succ i => exact ih i

/-- What is read from a scope besides its spelling. -/
theorem scope?_bind {α : Type} (h : d.RespellsScopes t t') (f : Scope → Option α)
    (hf : ∀ s name imports, f (Scope.spelled s name imports) = f s) (id : ScopeId) :
    (t'.scope? id).bind f = (t.scope? id).bind f := by
  obtain ⟨hn, hn'⟩ | ⟨s, s', hs, hs', name, imports, -, -, rfl⟩ := h.scope?_cases id
  · rw [hn, hn']
  · rw [hs, hs', Option.bind_some, Option.bind_some, hf]

theorem scope?_map {α : Type} (h : d.RespellsScopes t t') (f : Scope → α)
    (hf : ∀ s name imports, f (Scope.spelled s name imports) = f s) (id : ScopeId) :
    (t'.scope? id).map f = (t.scope? id).map f := by
  obtain ⟨hn, hn'⟩ | ⟨s, s', hs, hs', name, imports, -, -, rfl⟩ := h.scope?_cases id
  · rw [hn, hn']
  · rw [hs, hs', Option.map_some, Option.map_some, hf]

/-! ### Lookups -/

theorem nameId? (h : d.RespellsScopes t t') {x y : String} (hx : d.Same x y) : t'.nameId? y = t.nameId? x := by
  unfold ScopeTable.nameId?
  rw [h.names, d.normal hx]

theorem scopeKind (h : d.RespellsScopes t t') (id : ScopeId) : t'.scopeKind id = t.scopeKind id :=
  congrArg (·.getD ScopeKind.invalid) (h.scope?_map (·.kind) (fun _ _ _ => rfl) id)

theorem chain (h : d.RespellsScopes t t') (id : ScopeId) : t'.chain id = t.chain id := by
  have haux (fuel : Nat) (id : ScopeId) : t'.chainAux fuel id = t.chainAux fuel id := by
    induction fuel generalizing id with
    | zero => rfl
    | succ fuel ih =>
      unfold ScopeTable.chainAux
      have hparent := h.scope?_map (·.parent) (fun _ _ _ => rfl) id
      cases hs : t.scope? id <;> cases hs' : t'.scope? id <;> simp_all
  unfold ScopeTable.chain
  rw [haux, h.size]

theorem funcScope (h : d.RespellsScopes t t') (id : ScopeId) : t'.funcScope id = t.funcScope id := by
  unfold ScopeTable.funcScope
  rw [h.chain, funext h.scopeKind]

theorem isWithin (h : d.RespellsScopes t t') (id outer : ScopeId) : t'.isWithin id outer = t.isWithin id outer := by
  unfold ScopeTable.isWithin
  rw [h.chain]

theorem visible (h : d.RespellsScopes t t') (q : Query) (id : SymbolId) : t'.visible q id = t.visible q id := by
  unfold ScopeTable.visible
  rw [h.symbol?]

theorem accessible (h : d.RespellsScopes t t') (q : Query) (id : SymbolId) : t'.accessible q id = t.accessible q id := by
  unfold ScopeTable.accessible
  rw [h.symbol?]
  cases t.symbol? id with
  | none => rfl
  | some s => simp only [h.isWithin]

theorem boundIn? (h : d.RespellsScopes t t') (scope : ScopeId) (name : NameId) :
    t'.boundIn? scope name = t.boundIn? scope name :=
  h.scope?_bind (·.symbol? name) (fun _ _ _ => rfl) scope

theorem nameSpace? (h : d.RespellsScopes t t') (scope : ScopeId) (key : NameId) :
    (t'.scope? scope).bind (·.nameSpace? key) = (t.scope? scope).bind (·.nameSpace? key) :=
  h.scope?_bind (·.nameSpace? key) (fun _ _ _ => rfl) scope

theorem childNamespace? (h : d.RespellsScopes t t') (scope : ScopeId) {x y : String} (hx : d.Same x y) :
    t'.childNamespace? scope y = t.childNamespace? scope x := by
  unfold ScopeTable.childNamespace?
  rw [h.nameId? hx]
  cases t.nameId? x with
  | none => exact h.scope?_bind (fun _ => none) (fun _ _ _ => rfl) scope
  | some key => exact h.nameSpace? scope key

theorem descend? (h : d.RespellsScopes t t') {xs ys : List String} (hx : List.Forall₂ d.Same xs ys) (scope : ScopeId) :
    t'.descend? scope ys = t.descend? scope xs := by
  induction hx generalizing scope with
  | nil => rfl
  | cons hx _ ih =>
    unfold ScopeTable.descend?
    rw [h.childNamespace? scope hx, funext ih]

theorem namespaceOnChain? (h : d.RespellsScopes t t') {xs ys : List String} (hx : List.Forall₂ d.Same xs ys)
    (origin : ScopeId) : t'.namespaceOnChain? origin ys = t.namespaceOnChain? origin xs := by
  cases hx with
  | nil => rfl
  | cons hx hrest =>
    unfold ScopeTable.namespaceOnChain?
    dsimp only
    rw [h.chain, funext fun s => h.childNamespace? s hx, funext fun s => h.descend? hrest s]

theorem resolveImport? (h : d.RespellsScopes t t') {u u' : Import} (hu : d.SpellsImport u u') (owner : ScopeId) :
    t'.resolveImport? owner u' = t.resolveImport? owner u := by
  obtain ⟨path, rfl, hpath⟩ := hu
  unfold ScopeTable.resolveImport?
  rw [h.descend? hpath, h.namespaceOnChain? hpath]

theorem filterMap_imports (h : d.RespellsScopes t t') {us us' : List Import} (hu : List.Forall₂ d.SpellsImport us us')
    (owner : ScopeId) : us'.filterMap (t'.resolveImport? owner) = us.filterMap (t.resolveImport? owner) := by
  induction hu with
  | nil => rfl
  | cons hu _ ih => rw [List.filterMap_cons, List.filterMap_cons, h.resolveImport? hu, ih]

theorem importedScopes (h : d.RespellsScopes t t') (origin : ScopeId) :
    t'.importedScopes origin = t.importedScopes origin := by
  unfold ScopeTable.importedScopes
  rw [h.chain]
  refine congrArg (List.flatMap · (t.chain origin)) (funext fun s => ?_)
  obtain ⟨hn, hn'⟩ | ⟨sc, sc', hs, hs', name, imports, -, himports, rfl⟩ := h.scope?_cases s
  · rw [hn, hn']
    rfl
  · rw [hs, hs']
    exact h.filterMap_imports himports s

theorem resolveNamespace? (h : d.RespellsScopes t t') (origin : ScopeId) {xs ys : List String}
    (hx : List.Forall₂ d.Same xs ys) (fromGlobal : Bool) :
    t'.resolveNamespace? origin ys fromGlobal = t.resolveNamespace? origin xs fromGlobal := by
  unfold ScopeTable.resolveNamespace?
  rw [h.descend? hx, h.namespaceOnChain? hx, h.importedScopes, funext fun ns => h.descend? hx ns]

theorem found (h : d.RespellsScopes t t') (q : Query) (hits : List SymbolId) : t'.found q hits = t.found q hits := by
  unfold ScopeTable.found
  simp only [h.accessible]

theorem chainHit? (h : d.RespellsScopes t t') (q : Query) (name : NameId) : t'.chainHit? q name = t.chainHit? q name := by
  unfold ScopeTable.chainHit?
  simp only [h.chain, h.boundIn?, h.visible]

theorem importedHits (h : d.RespellsScopes t t') (q : Query) (name : NameId) :
    t'.importedHits q name = t.importedHits q name := by
  unfold ScopeTable.importedHits
  rw [h.importedScopes, funext fun s => h.boundIn? s name]

theorem lookup (h : d.RespellsScopes t t') (q : Query) {x y : String} (hx : d.Same x y) : t'.lookup q y = t.lookup q x := by
  unfold ScopeTable.lookup
  rw [h.nameId? hx]
  simp only [h.chainHit?, h.scopeKind, h.found, h.importedHits]

theorem lookupIn (h : d.RespellsScopes t t') (q : Query) (ns : ScopeId) {x y : String} (hx : d.Same x y) :
    t'.lookupIn q ns y = t.lookupIn q ns x := by
  unfold ScopeTable.lookupIn
  rw [h.nameId? hx, funext fun name => h.boundIn? ns name]
  simp only [h.found]

/-- A name behind a path means the same in both tables. -/
theorem lookupQualified? (h : d.RespellsScopes t t') (q : Query) {xs ys : List String} (hpath : List.Forall₂ d.Same xs ys)
    (fromGlobal : Bool) {x y : String} (hx : d.Same x y) :
    t'.lookupQualified? q ys fromGlobal y = t.lookupQualified? q xs fromGlobal x := by
  unfold ScopeTable.lookupQualified?
  cases hpath with
  | nil => simp only [h.lookupIn q _ hx, h.lookup q hx]
  | cons hp hrest => rw [h.resolveNamespace? q.origin (.cons hp hrest), funext fun ns => h.lookupIn q ns hx]

end RespellsScopes

/-! ### Changes -/

theorem forall₂_modify {α β : Type} {R : α → β → Prop} {l : List α} {l' : List β} (h : List.Forall₂ R l l') (i : Nat)
    {f : α → α} {f' : β → β} (hf : ∀ a b, R a b → R (f a) (f' b)) : List.Forall₂ R (l.modify i f) (l'.modify i f') := by
  induction h generalizing i with
  | nil => simp
  | cons hab hrest ih =>
    cases i with
    | zero => simpa using ⟨hf _ _ hab, hrest⟩
    | succ i => simpa using ⟨hab, ih i⟩

theorem spellsImports_refl (d : Dialect) (us : List Import) : List.Forall₂ d.SpellsImport us us :=
  List.forall₂_same.2 fun u _ => ⟨u.path, rfl, d.forall₂_refl u.path⟩

theorem spellsScope_refl (d : Dialect) (s : Scope) : d.SpellsScope s s :=
  ⟨s.name, s.imports, d.refl _, d.spellsImports_refl _, rfl⟩

theorem respellsScopes_refl (d : Dialect) (t : ScopeTable) : d.RespellsScopes t t :=
  ⟨rfl, rfl, rfl, List.forall₂_same.2 fun s _ => d.spellsScope_refl s⟩

/-- A scope that is changed in other parts. -/
theorem SpellsScope.congr {s s' : Scope} {f : Scope → Scope} (h : d.SpellsScope s s')
    (hf : ∀ s name imports, f (Scope.spelled s name imports) = (f s).spelled name imports) :
    d.SpellsScope (f s) (f s') := by
  obtain ⟨name, imports, hname, himports, rfl⟩ := h
  have hsame := hf s s.name s.imports
  refine ⟨name, imports, ?_, ?_, hf s name imports⟩
  · have hn : (f s).name = s.name := by
      have h := congrArg Scope.name hsame
      exact h
    rwa [hn]
  · have hi : (f s).imports = s.imports := by
      have h := congrArg Scope.imports hsame
      exact h
    rwa [hi]

namespace RespellsScopes

variable {t t' : ScopeTable}

theorem modifyScopeRel (h : d.RespellsScopes t t') (id : ScopeId) {f f' : Scope → Scope}
    (hf : ∀ s s', d.SpellsScope s s' → d.SpellsScope (f s) (f' s')) :
    d.RespellsScopes (t.modifyScope id f) (t'.modifyScope id f') := by
  unfold ScopeTable.modifyScope
  split
  · exact h
  · refine ⟨h.names, h.symbols, h.globals, ?_⟩
    rw [Array.toList_modify, Array.toList_modify]
    exact forall₂_modify h.scopes _ hf

theorem modifyScope (h : d.RespellsScopes t t') (id : ScopeId) {f : Scope → Scope}
    (hf : ∀ s name imports, f (Scope.spelled s name imports) = (f s).spelled name imports) :
    d.RespellsScopes (t.modifyScope id f) (t'.modifyScope id f) :=
  h.modifyScopeRel id fun _ _ hs => hs.congr hf

theorem modifySymbol (h : d.RespellsScopes t t') (id : SymbolId) (f : Symbol → Symbol) :
    d.RespellsScopes (t.modifySymbol id f) (t'.modifySymbol id f) := by
  unfold ScopeTable.modifySymbol
  split
  · exact h
  · exact ⟨h.names, congrArg (·.modify (id - 1) f) h.symbols, h.globals, h.scopes⟩

theorem intern (h : d.RespellsScopes t t') {x y : String} (hx : d.Same x y) :
    (t'.intern y).1 = (t.intern x).1 ∧ d.RespellsScopes (t.intern x).2 (t'.intern y).2 := by
  have hnames : t'.names.intern y = t.names.intern x := by
    unfold NameTable.intern
    rw [h.names, d.normal hx]
  unfold ScopeTable.intern
  rw [hnames]
  exact ⟨rfl, rfl, h.symbols, h.globals, h.scopes⟩

theorem addScope (h : d.RespellsScopes t t') {s s' : Scope} (hs : d.SpellsScope s s') :
    (t'.addScope s').1 = (t.addScope s).1 ∧ d.RespellsScopes (t.addScope s).2 (t'.addScope s').2 := by
  refine ⟨congrArg (· + 1) h.size, h.names, h.symbols, h.globals, ?_⟩
  simp only [ScopeTable.addScope, Array.toList_push]
  exact List.rel_append h.scopes (.cons hs .nil)

theorem addSymbol (h : d.RespellsScopes t t') (s : Symbol) :
    (t'.addSymbol s).1 = (t.addSymbol s).1 ∧ d.RespellsScopes (t.addSymbol s).2 (t'.addSymbol s).2 := by
  refine ⟨congrArg (·.size + 1) h.symbols, h.names, congrArg (·.push s) h.symbols, h.globals, h.scopes⟩

theorem openNamespace (h : d.RespellsScopes t t') (parent : ScopeId) {x y : String} (hx : d.Same x y) (span : Span) :
    (t'.openNamespace parent y span).1 = (t.openNamespace parent x span).1 ∧
      d.RespellsScopes (t.openNamespace parent x span).2 (t'.openNamespace parent y span).2 := by
  obtain ⟨hkey, hi⟩ := h.intern hx
  unfold ScopeTable.openNamespace
  dsimp only
  rw [hkey, hi.nameSpace?]
  cases ((t.intern x).2.scope? parent).bind (·.nameSpace? (t.intern x).1) with
  | some id => exact ⟨rfl, hi⟩
  | none =>
    have hs : d.SpellsScope { kind := .nameSpace, parent, name := x, span }
        { kind := .nameSpace, parent, name := y, span } :=
      ⟨y, [], hx, .nil, rfl⟩
    obtain ⟨hid, ha⟩ := hi.addScope hs
    refine ⟨hid, ?_⟩
    dsimp only
    rw [hid]
    exact ha.modifyScope _ fun _ _ _ => rfl

theorem allocGlobal (h : d.RespellsScopes t t') :
    t'.allocGlobal.1 = t.allocGlobal.1 ∧ d.RespellsScopes t.allocGlobal.2 t'.allocGlobal.2 := by
  unfold ScopeTable.allocGlobal
  rw [h.globals]
  exact ⟨rfl, h.names, h.symbols, rfl, h.scopes⟩

/-- The outcomes of a step that may be refused. -/
def Outcome {α ε : Type} (d : Dialect) (r r' : Except ε (α × ScopeTable)) : Prop :=
  (∃ e, r = .error e ∧ r' = .error e) ∨ ∃ a u u', r = .ok (a, u) ∧ r' = .ok (a, u') ∧ d.RespellsScopes u u'

theorem declare (h : d.RespellsScopes t t') (scope : ScopeId) (sym : Symbol) :
    Outcome d (t.declare scope sym) (t'.declare scope sym) := by
  unfold ScopeTable.declare
  have hbound := h.scope?_bind (·.symbol? sym.name) (fun _ _ _ => rfl) scope
  rw [hbound]
  cases (t.scope? scope).bind (·.symbol? sym.name) with
  | some prev => exact .inl ⟨prev, rfl, rfl⟩
  | none =>
    obtain ⟨hid, ha⟩ := h.addSymbol { sym with scope }
    dsimp only
    rw [hid]
    exact .inr ⟨_, _, _, rfl, rfl, ha.modifyScope scope fun _ _ _ => rfl⟩

theorem declareCandidate (h : d.RespellsScopes t t') (scope : ScopeId) (cand : Symbol) :
    Outcome d (t.declareCandidate scope cand) (t'.declareCandidate scope cand) := by
  have hfinish {u u' : ScopeTable} (hu : d.RespellsScopes u u') (set : SymbolId) :
      Outcome (ε := SymbolId) d
        (.ok ((u.addSymbol { cand with scope, set }).1, (u.addSymbol { cand with scope, set }).2.modifySymbol set fun s =>
          { s with overloads := s.overloads ++ [(u.addSymbol { cand with scope, set }).1] }))
        (.ok ((u'.addSymbol { cand with scope, set }).1, (u'.addSymbol { cand with scope, set }).2.modifySymbol set fun s =>
          { s with overloads := s.overloads ++ [(u'.addSymbol { cand with scope, set }).1] })) := by
    obtain ⟨hid, ha⟩ := hu.addSymbol { cand with scope, set }
    rw [hid]
    exact .inr ⟨_, _, _, rfl, rfl, ha.modifySymbol set _⟩
  unfold ScopeTable.declareCandidate
  have hbound := h.scope?_bind (·.symbol? cand.name) (fun _ _ _ => rfl) scope
  dsimp only
  rw [hbound]
  cases (t.scope? scope).bind (·.symbol? cand.name) with
  | some set =>
    dsimp only
    rw [h.symbol?]
    split
    · exact hfinish h set
    · exact .inl ⟨set, rfl, rfl⟩
  | none =>
    obtain ⟨e, he, he'⟩ | ⟨set, u, u', hu, hu', hrel⟩ :=
      h.declare scope { name := cand.name, kind := .overloads, span := cand.span, attrs := cand.attrs }
    · dsimp only
      rw [he, he']
      exact .inl ⟨e, rfl, rfl⟩
    · dsimp only
      rw [hu, hu']
      exact hfinish hrel set

theorem allocLocal? (h : d.RespellsScopes t t') (id : ScopeId) :
    t.allocLocal? id = none ∧ t'.allocLocal? id = none ∨
      ∃ a u u', t.allocLocal? id = some (a, u) ∧ t'.allocLocal? id = some (a, u') ∧ d.RespellsScopes u u' := by
  unfold ScopeTable.allocLocal?
  dsimp only
  rw [h.funcScope]
  obtain ⟨hn, hn'⟩ | ⟨s, s', hs, hs', name, imports, -, -, rfl⟩ := h.scope?_cases (t.funcScope id)
  · rw [hn, hn']
    exact .inl ⟨rfl, rfl⟩
  · rw [hs, hs']
    exact .inr ⟨_, _, _, rfl, rfl, h.modifyScope _ fun _ _ _ => rfl⟩

theorem enterBlock (h : d.RespellsScopes t t') (id : ScopeId) : d.RespellsScopes (t.enterBlock id) (t'.enterBlock id) := by
  unfold ScopeTable.enterBlock
  rw [h.funcScope]
  obtain ⟨hn, hn'⟩ | ⟨s, s', hs, hs', name, imports, -, -, rfl⟩ := h.scope?_cases (t.funcScope id)
  · rw [hn, hn']
    exact h
  · rw [hs, hs']
    exact h.modifyScope id fun _ _ _ => rfl

theorem leaveBlock (h : d.RespellsScopes t t') (id : ScopeId) : d.RespellsScopes (t.leaveBlock id) (t'.leaveBlock id) := by
  unfold ScopeTable.leaveBlock
  dsimp only
  rw [h.funcScope, h.scope?_map (·.stackBase) (fun _ _ _ => rfl)]
  exact h.modifyScope _ fun _ _ _ => rfl

theorem capture (h : d.RespellsScopes t t') (fn : ScopeId) (outer : SymbolId) :
    (t'.capture fn outer).1 = (t.capture fn outer).1 ∧ d.RespellsScopes (t.capture fn outer).2 (t'.capture fn outer).2 := by
  unfold ScopeTable.capture
  rw [h.symbol?]
  obtain ⟨hn, hn'⟩ | ⟨s, s', hs, hs', name, imports, -, -, rfl⟩ := h.scope?_cases fn
  · rw [hn, hn']
    exact ⟨rfl, h⟩
  · rw [hs, hs']
    cases t.symbol? outer with
    | none => exact ⟨rfl, h⟩
    | some src =>
      dsimp only
      cases s.captures.lookup outer with
      | some id => exact ⟨rfl, h⟩
      | none =>
        obtain ⟨hid, ha⟩ := h.addSymbol
          { name := src.name, kind := .var, attrs := src.attrs, scope := fn, decl := src.decl, span := src.span,
            type := src.type, storage := .captured s.captures.length, origin := outer }
        dsimp only
        refine ⟨hid, ?_⟩
        rw [hid]
        exact ha.modifyScope fn fun _ _ _ => rfl

end RespellsScopes

theorem RespellsScopes.eq_of_strict (hd : d.Strict) {t t' : ScopeTable} (h : d.RespellsScopes t t') : t' = t := by
  have hscopes : t'.scopes.toList = t.scopes.toList := by
    have hlist := h.scopes
    generalize t.scopes.toList = l, t'.scopes.toList = l' at hlist
    induction hlist with
    | nil => rfl
    | cons hs _ ih =>
      obtain ⟨name, imports, hname, himports, rfl⟩ := hs
      rw [ih, Scope.spelled, ← hd _ _ hname, eq_of_imports hd himports]
  have hnames := h.names
  have hsymbols := h.symbols
  have hglobals := h.globals
  have hscopes := Array.toList_inj.1 hscopes
  cases t
  cases t'
  simp_all

end Dialect

end TreeCompiler
