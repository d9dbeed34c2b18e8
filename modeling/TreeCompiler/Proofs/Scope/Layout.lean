import TreeCompiler.Proofs.Scope.Growth

/-!
# Where variables are kept

* `Fits` : a global slot was given out, and other storage of a variable lies inside the frame of the function around its
  scope: a local in one of the slots counted by `maxStack`, an argument at the position of a parameter, a captured copy in the
  capture list;
* `Laid` : all storage of a scope table fits, and functions, their scopes and their declarations refer to each other;
* `Deferred` : the variables that the program initializes before its first statement;
* `KeepsBut` : a change that keeps a table laid and defers one variable at most; `keeps_addScope` … `keeps_capture` : every
  change that a table undergoes is one.
-/

namespace TreeCompiler

namespace ScopeTable

/-- How many parameters a function declares. -/
def paramCount (tab : ScopeTable) (tree : Tree) (fn : SymbolId) : Nat :=
  (((tab.symbol? fn).bind fun s => tree.get? s.decl).map (·.list.length)).getD 0

inductive Fits (tree : Tree) (tab : ScopeTable) (scope : ScopeId) : Storage → Prop
  | none : Fits tree tab scope .none
  | global {slot : Nat} (h : slot < tab.globals) : Fits tree tab scope (.global slot)
  | slot {off : Int} {sc : Scope} (h : tab.scope? (tab.funcScope scope) = some sc) (hle : off ≤ 0)
      (hlt : -off < sc.maxStack) : Fits tree tab scope (.frame off)
  | arg {i : Nat} {sc : Scope} (h : tab.scope? (tab.funcScope scope) = some sc) (hi : i < tab.paramCount tree sc.func) :
      Fits tree tab scope (.frame (Storage.argOffset i))
  | captured {i : Nat} {sc : Scope} (h : tab.scope? scope = some sc) (hk : sc.kind = .function)
      (hi : i < sc.captures.length) : Fits tree tab scope (.captured i)

structure Laid (tree : Tree) (tab : ScopeTable) : Prop where
  ordered : tab.Ordered
  spaces : ∀ id sc, tab.scope? id = some sc → ∀ p ∈ sc.namespaces, p.2 ≤ tab.scopes.size
  places : ∀ id sym, tab.symbol? id = some sym → sym.scope ≤ tab.scopes.size
  decls : ∀ id sym, tab.symbol? id = some sym → sym.kind = .function →
    ∃ n, tree.get? sym.decl = some n ∧ n.kind = .func
  funcs : ∀ id sc, tab.scope? id = some sc → sc.kind = .function →
    ∃ sym, tab.symbol? sc.func = some sym ∧ sym.kind = .function
  bodies : ∀ id sym, tab.symbol? id = some sym → sym.body ≠ 0 →
    ∃ sc, tab.scope? sym.body = some sc ∧ sc.kind = .function ∧ sc.func = id
  fits : ∀ id sym, tab.symbol? id = some sym → Fits tree tab sym.scope sym.storage

variable {tree tree' : Tree} {tab tab' : ScopeTable}

/-! ## Storage that fits keeps fitting -/

theorem paramCount_grows (h : Laid tree tab) (ht : tree.Grows tree') (hg : tab.Grows tab') {id : ScopeId} {sc : Scope}
    (hs : tab.scope? id = some sc) (hk : sc.kind = .function) :
    tab'.paramCount tree' sc.func = tab.paramCount tree sc.func := by
  obtain ⟨sym, hsym, hfn⟩ := h.funcs id sc hs hk
  obtain ⟨n, hn, hnk⟩ := h.decls _ sym hsym hfn
  obtain ⟨sym', hsym', g⟩ := hg.symbols _ sym hsym
  obtain ⟨n', hn', gn⟩ := ht _ n hn
  simp [paramCount, hsym, hsym', g.decl, hn, hn', gn.params hnk]

theorem Fits.grows {scope : ScopeId} {st : Storage} (hf : Fits tree tab scope st) (h : Laid tree tab)
    (ht : tree.Grows tree') (hg : tab.Grows tab') : Fits tree' tab' scope st := by
  have hfs : ∀ sc, tab.scope? (tab.funcScope scope) = some sc →
      sc.kind = .function ∧ ∃ sc', tab'.scope? (tab'.funcScope scope) = some sc' ∧ sc.Grows sc' := by
    intro sc hs
    have h0 : tab.funcScope scope ≠ 0 := fun e => by rw [e] at hs; cases hs
    obtain ⟨sc₁, hs₁, hk⟩ := funcScope_scope? h0
    rw [hs] at hs₁
    cases hs₁
    obtain ⟨inner, hin⟩ := scope?_of_funcScope h0
    rw [funcScope_grows h.ordered hg (scope?_lt hin).2]
    exact ⟨hk, hg.scopes _ sc hs⟩
  cases hf with
  | none => exact .none
  | global h => exact .global (Nat.lt_of_lt_of_le h hg.globals)
  | slot hs hle hlt =>
    obtain ⟨_, sc', hs', g⟩ := hfs _ hs
    have := g.maxStack
    exact .slot hs' hle (by omega)
  | arg hs hi =>
    obtain ⟨hk, sc', hs', g⟩ := hfs _ hs
    refine .arg hs' ?_
    rw [g.func, paramCount_grows h ht hg hs hk]
    exact hi
  | captured hs hk hi =>
    obtain ⟨sc', hs', g⟩ := hg.scopes _ _ hs
    exact .captured hs' (g.kind.trans hk) (Nat.lt_of_lt_of_le hi g.captures)

theorem Laid.edit (h : Laid tree tab) (ht : tree.Grows tree') : Laid tree' tab := by
  refine ⟨h.ordered, h.spaces, h.places, fun id sym hs hk => ?_, h.funcs, h.bodies, fun id sym hs => (h.fits id sym hs).grows h ht (.refl _)⟩
  obtain ⟨n, hn, hnk⟩ := h.decls id sym hs hk
  obtain ⟨n', hn', g⟩ := ht _ n hn
  exact ⟨n', hn', g.func hnk⟩

/-! ## What a change has to show -/

/-- A symbol that a table may take in. -/
structure Admits (tree : Tree) (tab : ScopeTable) (id : SymbolId) (sym : Symbol) : Prop where
  place : sym.scope ≤ tab.scopes.size
  decl : sym.kind = .function → ∃ n, tree.get? sym.decl = some n ∧ n.kind = .func
  body : sym.body ≠ 0 → ∃ sc, tab.scope? sym.body = some sc ∧ sc.kind = .function ∧ sc.func = id
  fits : Fits tree tab sym.scope sym.storage

/-- A scope that a table may take in. -/
structure Opens (tab : ScopeTable) (id : Nat) (sc : Scope) : Prop where
  parent : id > sc.parent
  func : sc.kind = .function → ∃ sym, tab.symbol? sc.func = some sym ∧ sym.kind = .function
  spaces : ∀ p ∈ sc.namespaces, p.2 ≤ tab.scopes.size

/-- A table that grows stays laid when its new scopes and its new or changed symbols are in order. -/
theorem Laid.of_grows (h : Laid tree tab) (hg : tab.Grows tab')
    (scopes : ∀ (id : Nat) sc', tab'.scope? id = some sc' →
      (∃ sc, tab.scope? id = some sc ∧ sc'.namespaces = sc.namespaces) ∨ Opens tab' id sc')
    (symbols : ∀ (id : Nat) sym', tab'.symbol? id = some sym' →
      (∃ sym, tab.symbol? id = some sym ∧ sym'.body = sym.body ∧ sym'.storage = sym.storage) ∨
      Admits tree tab' id sym') : Laid tree tab' := by
  refine ⟨fun id sc' hs' => ?_, fun id sc' hs' => ?_, fun id sym' hs' => ?_, fun id sym' hs' hk => ?_, fun id sc' hs' hk => ?_,
    fun id sym' hs' hb => ?_, fun id sym' hs' => ?_⟩
  · rcases scopes id sc' hs' with ⟨sc, hs, _⟩ | ho
    · obtain ⟨sc₁, hs₁, g⟩ := hg.scopes id sc hs
      rw [hs'] at hs₁
      cases hs₁
      rw [g.parent]
      exact h.ordered id sc hs
    · exact ho.parent
  · rcases scopes id sc' hs' with ⟨sc, hs, hn⟩ | ho
    · intro p hp
      exact Nat.le_trans (h.spaces id sc hs p (hn ▸ hp)) (grows_size hg)
    · exact ho.spaces
  · rcases symbols id sym' hs' with ⟨sym, hs, _, _⟩ | ha
    · obtain ⟨sym₁, hs₁, g⟩ := hg.symbols id sym hs
      rw [hs'] at hs₁
      cases hs₁
      rw [g.scope]
      exact Nat.le_trans (h.places id sym hs) (grows_size hg)
    · exact ha.place
  · rcases symbols id sym' hs' with ⟨sym, hs, _, _⟩ | ha
    · obtain ⟨sym₁, hs₁, g⟩ := hg.symbols id sym hs
      rw [hs'] at hs₁
      cases hs₁
      rw [g.decl]
      exact h.decls id sym hs (g.kind ▸ hk)
    · exact ha.decl hk
  · rcases scopes id sc' hs' with ⟨sc, hs, _⟩ | ho
    · obtain ⟨sc₁, hs₁, g⟩ := hg.scopes id sc hs
      rw [hs'] at hs₁
      cases hs₁
      obtain ⟨sym, hsym, hfn⟩ := h.funcs id sc hs (g.kind ▸ hk)
      obtain ⟨sym', hsym', g'⟩ := hg.symbols _ sym hsym
      exact ⟨sym', g.func ▸ hsym', g'.kind.trans hfn⟩
    · exact ho.func hk
  · rcases symbols id sym' hs' with ⟨sym, hs, hbody, _⟩ | ha
    · rw [hbody] at hb ⊢
      obtain ⟨sc, hsc, hk, hf⟩ := h.bodies id sym hs hb
      obtain ⟨sc', hsc', g⟩ := hg.scopes _ sc hsc
      exact ⟨sc', hsc', g.kind.trans hk, g.func.trans hf⟩
    · exact ha.body hb
  · rcases symbols id sym' hs' with ⟨sym, hs, _, hst⟩ | ha
    · obtain ⟨sym₁, hs₁, g⟩ := hg.symbols id sym hs
      rw [hs'] at hs₁
      cases hs₁
      rw [hst, g.scope]
      exact (h.fits id sym hs).grows h (.refl _) hg
    · exact ha.fits

/-! ## Variables that are initialized early -/

/-- A static variable of a function, or an instance of a generic variable. -/
def Deferred (tab : ScopeTable) (sym : Symbol) : Prop :=
  sym.kind = .var ∧ (∃ slot, sym.storage = .global slot) ∧
    (sym.origin ≠ 0 ∨ sym.attrs.has .static = true ∧ tab.funcScope sym.scope ≠ 0)

/-- The function around a scope is the same in a later table. -/
theorem deferred_iff {sym : Symbol} (h : Laid tree tab) (hg : tab.Grows tab') (hp : sym.scope ≤ tab.scopes.size) :
    Deferred tab' sym ↔ Deferred tab sym := by
  unfold Deferred
  rw [funcScope_grows h.ordered hg hp]

/-- Whether a variable is deferred does not change once it has its storage. -/
theorem deferred_grows (h : Laid tree tab) (hg : tab.Grows tab') {id : SymbolId} {sym sym' : Symbol}
    (hs : tab.symbol? id = some sym) (hs' : tab'.symbol? id = some sym') (hst : sym'.storage = sym.storage) :
    Deferred tab' sym' ↔ Deferred tab sym := by
  obtain ⟨sym₁, hs₁, g⟩ := hg.symbols id sym hs
  rw [hs'] at hs₁
  cases hs₁
  rw [← deferred_iff h hg (h.places id sym hs)]
  unfold Deferred
  rw [g.kind, hst, g.origin, g.attrs, g.scope]

theorem Deferred.storage_ne {sym : Symbol} (h : Deferred tab sym) : sym.storage ≠ .none := by
  obtain ⟨-, ⟨slot, hslot⟩, -⟩ := h
  rw [hslot]
  exact Storage.noConfusion

theorem Deferred.grows (h : Laid tree tab) (hg : tab.Grows tab') {id : SymbolId} {sym : Symbol}
    (hs : tab.symbol? id = some sym) (hd : Deferred tab sym) : ∃ sym', tab'.symbol? id = some sym' ∧ Deferred tab' sym' := by
  obtain ⟨sym', hs', g⟩ := hg.symbols id sym hs
  exact ⟨sym', hs', (deferred_grows h hg hs hs' (g.storage hd.storage_ne)).2 hd⟩

/-- Apart from `x`, no variable becomes deferred. -/
def Steady (x : SymbolId) (tab tab' : ScopeTable) : Prop :=
  ∀ (id : SymbolId) sym', tab'.symbol? id = some sym' → Deferred tab' sym' →
    id = x ∨ ∃ sym, tab.symbol? id = some sym ∧ Deferred tab sym

/-- A change of a laid table that keeps it laid and defers no variable apart from `x`. -/
structure KeepsBut (x : SymbolId) (tree : Tree) (tab tab' : ScopeTable) : Prop where
  grows : tab.Grows tab'
  laid : Laid tree tab → Laid tree tab'
  steady : Laid tree tab → Steady x tab tab'

/-- No symbol has the number 0. -/
abbrev Keeps (tree : Tree) (tab tab' : ScopeTable) : Prop := KeepsBut 0 tree tab tab'

namespace KeepsBut

variable {x : SymbolId}

theorem refl (tree : Tree) (tab : ScopeTable) : Keeps tree tab tab :=
  ⟨.refl tab, id, fun _ _ sym h hd => .inr ⟨sym, h, hd⟩⟩

theorem trans {a b c : ScopeTable} (h₁ : KeepsBut x tree a b) (h₂ : KeepsBut x tree b c) : KeepsBut x tree a c := by
  refine ⟨h₁.grows.trans h₂.grows, fun h => h₂.laid (h₁.laid h), fun h id sym'' hs hd => ?_⟩
  rcases h₂.steady (h₁.laid h) id sym'' hs hd with rfl | ⟨sym', hs', hd'⟩
  · exact .inl rfl
  · exact h₁.steady h id sym' hs' hd'

theorem but (h : Keeps tree tab tab') (x : SymbolId) : KeepsBut x tree tab tab' := by
  refine ⟨h.grows, h.laid, fun hl id sym' hs hd => ?_⟩
  rcases h.steady hl id sym' hs hd with rfl | hold
  · cases hs
  · exact .inr hold

/-- A change after which `x` is not deferred defers none. -/
theorem keeps (h : KeepsBut x tree tab tab')
    (hx : Laid tree tab → ∀ sym', tab'.symbol? x = some sym' → ¬Deferred tab' sym') : Keeps tree tab tab' := by
  refine ⟨h.grows, h.laid, fun hl id sym' hs hd => .inr ?_⟩
  rcases h.steady hl id sym' hs hd with rfl | hold
  · exact absurd hd (hx hl sym' hs)
  · exact hold

/-- The symbols apart from `x` were there with the storage they have. -/
theorem of_grows (hg : tab.Grows tab') (hl : Laid tree tab → Laid tree tab')
    (symbols : ∀ (id : Nat) sym', tab'.symbol? id = some sym' →
      id = x ∨ ∃ sym, tab.symbol? id = some sym ∧ sym'.storage = sym.storage) : KeepsBut x tree tab tab' := by
  refine ⟨hg, hl, fun h id sym' hs hd => ?_⟩
  refine (symbols id sym' hs).imp_right ?_
  rintro ⟨sym, hold, hst⟩
  exact ⟨sym, hold, (deferred_grows h hg hold hs hst).1 hd⟩

end KeepsBut

/-! ## Changes -/

/-- Names have no part in the layout, and there may be more global slots than are used. -/
theorem keeps_of_eq (hsc : tab'.scopes = tab.scopes) (hsym : tab'.symbols = tab.symbols)
    (hglobals : tab.globals ≤ tab'.globals) : Keeps tree tab tab' := by
  have hs : ∀ id, tab'.scope? id = tab.scope? id := fun id => by simp [scope?, hsc]
  have hy : ∀ id, tab'.symbol? id = tab.symbol? id := fun id => by simp [symbol?, hsym]
  have hg : tab.Grows tab' :=
    ⟨fun id sc h => ⟨sc, (hs id).trans h, .refl sc⟩, fun id sym h => ⟨sym, (hy id).trans h, .refl sym⟩, hglobals⟩
  refine .of_grows hg (fun h => h.of_grows hg (fun id sc' hc => .inl ⟨sc', (hs id).symm.trans hc, rfl⟩) fun id sym' hc =>
    .inl ⟨sym', (hy id).symm.trans hc, rfl, rfl⟩) fun id sym' hc => .inr ⟨sym', (hy id).symm.trans hc, rfl⟩

theorem keeps_intern (s : String) : Keeps tree tab (tab.intern s).2 := keeps_of_eq rfl rfl (Nat.le_refl _)

theorem keeps_allocGlobal : Keeps tree tab tab.allocGlobal.2 := keeps_of_eq rfl rfl (Nat.le_succ _)

theorem keeps_addScope {s : Scope} (hn : s.namespaces = []) (hp : Laid tree tab → s.parent ≤ tab.scopes.size)
    (hf : Laid tree tab → s.kind = .function → ∃ sym, tab.symbol? s.func = some sym ∧ sym.kind = .function) :
    Keeps tree tab (tab.addScope s).2 := by
  refine .of_grows (grows_addScope tab s) (fun h => h.of_grows (grows_addScope tab s) (fun id sc' hs => ?_) fun id sym' hs => ?_)
    fun id sym' hs => .inr ⟨sym', hs, rfl⟩
  · rw [scope?_addScope] at hs
    split at hs
    · rename_i e
      cases hs
      exact .inr ⟨by rw [e]; exact Nat.lt_succ_of_le (hp h), hf h, by rw [hn]; nofun⟩
    · exact .inl ⟨sc', hs, rfl⟩
  · exact .inl ⟨sym', hs, rfl, rfl⟩

theorem keepsBut_addSymbol {s : Symbol} (hb : s.body = 0) (hp : Laid tree tab → s.scope ≤ tab.scopes.size)
    (hd : Laid tree tab → s.kind = .function → ∃ n, tree.get? s.decl = some n ∧ n.kind = .func)
    (hf : Laid tree tab → Fits tree tab s.scope s.storage) :
    KeepsBut (tab.addSymbol s).1 tree tab (tab.addSymbol s).2 := by
  refine .of_grows (grows_addSymbol tab s) (fun h => h.of_grows (grows_addSymbol tab s) (fun id sc' hs => .inl ⟨sc', hs, rfl⟩)
    fun id sym' hs => ?_) fun id sym' hs => ?_
  · rw [symbol?_addSymbol] at hs
    split at hs
    · cases hs
      exact .inr ⟨hp h, hd h, fun hne => absurd hb hne, (hf h).grows h (.refl _) (grows_addSymbol tab s)⟩
    · exact .inl ⟨sym', hs, rfl, rfl⟩
  · rw [symbol?_addSymbol] at hs
    split at hs
    · exact .inl ‹_›
    · exact .inr ⟨sym', hs, rfl⟩

theorem keeps_addSymbol {s : Symbol} (hb : s.body = 0) (hp : Laid tree tab → s.scope ≤ tab.scopes.size)
    (hd : Laid tree tab → s.kind = .function → ∃ n, tree.get? s.decl = some n ∧ n.kind = .func)
    (hf : Laid tree tab → Fits tree tab s.scope s.storage) (hq : ¬Deferred tab s) :
    Keeps tree tab (tab.addSymbol s).2 := by
  refine (keepsBut_addSymbol hb hp hd hf).keeps fun h sym' hs => ?_
  rw [symbol?_addSymbol_self] at hs
  cases hs
  exact fun hdef => hq ((deferred_iff h (grows_addSymbol tab s) (hp h)).1 hdef)

theorem not_deferred_of_storage {sym : Symbol} (h : sym.storage = .none) : ¬Deferred tab sym :=
  fun hd => hd.storage_ne h

/-- A variable that was neither copied nor declared with attributes. -/
theorem not_deferred_of_attrs {sym : Symbol} (ho : sym.origin = 0) (ha : sym.attrs = {}) : ¬Deferred tab sym := by
  rintro ⟨-, -, h | ⟨h, -⟩⟩
  · exact h ho
  · rw [ha] at h
    exact absurd h (by decide)

theorem keeps_modifyScope {id : Nat} {f : Scope → Scope}
    (hf : ∀ sc : Scope, sc.Grows (f sc) ∧ (f sc).namespaces = sc.namespaces) :
    Keeps tree tab (tab.modifyScope id f) := by
  have hg : tab.Grows (tab.modifyScope id f) := grows_modifyScope fun sc _ => (hf sc).1
  refine .of_grows hg (fun h => h.of_grows hg (fun k sc' hs => .inl ?_) fun k sym' hs => .inl ⟨sym', by simpa using hs, rfl, rfl⟩)
    fun k sym' hs => .inr ⟨sym', by simpa using hs, rfl⟩
  rw [scope?_modifyScope] at hs
  split at hs
  · obtain ⟨sc, hold, rfl⟩ := Option.map_eq_some_iff.1 hs
    exact ⟨sc, hold, (hf sc).2⟩
  · exact ⟨sc', hs, rfl⟩

theorem keeps_addNamespace {id ns : Nat} {key : NameId} (hns : ns ≤ tab.scopes.size) :
    Keeps tree tab (tab.modifyScope id fun s => { s with namespaces := s.namespaces ++ [(key, ns)] }) := by
  have hg : tab.Grows (tab.modifyScope id fun s => { s with namespaces := s.namespaces ++ [(key, ns)] }) :=
    grows_modifyScope fun sc _ => ⟨rfl, rfl, rfl, Nat.le_refl _, Nat.le_refl _⟩
  refine .of_grows hg (fun h => h.of_grows hg (fun k sc' hs => ?_) fun k sym' hs => .inl ⟨sym', by simpa using hs, rfl, rfl⟩)
    fun k sym' hs => .inr ⟨sym', by simpa using hs, rfl⟩
  rw [scope?_modifyScope] at hs
  split at hs
  · obtain ⟨sc, hold, rfl⟩ := Option.map_eq_some_iff.1 hs
    refine .inr ⟨h.ordered k sc hold, fun hk => ?_, fun p hp => ?_⟩
    · obtain ⟨sym, hsym, hfn⟩ := h.funcs k sc hold hk
      exact ⟨sym, by simpa using hsym, hfn⟩
    · rcases List.mem_append.1 hp with hp | hp
      · exact Nat.le_trans (h.spaces k sc hold p hp) (grows_size hg)
      · cases List.mem_singleton.1 hp
        exact Nat.le_trans hns (grows_size hg)
  · exact .inl ⟨sc', hs, rfl⟩

/-- A change of one symbol that neither moves it nor its storage. -/
theorem keeps_modifySymbol {id : Nat} {f : Symbol → Symbol}
    (hf : ∀ s : Symbol, s.Grows (f s) ∧ (f s).body = s.body ∧ (f s).storage = s.storage) :
    Keeps tree tab (tab.modifySymbol id f) := by
  have hg : tab.Grows (tab.modifySymbol id f) := grows_modifySymbol fun sym _ => (hf sym).1
  have hold (k : Nat) (sym' : Symbol) (hs : (tab.modifySymbol id f).symbol? k = some sym') :
      ∃ sym, tab.symbol? k = some sym ∧ sym'.body = sym.body ∧ sym'.storage = sym.storage := by
    rw [symbol?_modifySymbol] at hs
    split at hs
    · obtain ⟨sym, hsym, rfl⟩ := Option.map_eq_some_iff.1 hs
      exact ⟨sym, hsym, (hf sym).2.1, (hf sym).2.2⟩
    · exact ⟨sym', hs, rfl, rfl⟩
  refine .of_grows hg (fun h => h.of_grows hg (fun k sc' hs => .inl ⟨sc', by simpa using hs, rfl⟩) fun k sym' hs =>
    .inl (hold k sym' hs)) fun k sym' hs => .inr ?_
  obtain ⟨sym, hsym, -, hst⟩ := hold k sym' hs
  exact ⟨sym, hsym, hst⟩

/-- A symbol without storage gets a global slot. -/
theorem keepsBut_setGlobal {id slot : Nat} (hslot : slot < tab.globals) (hnone : ∀ sym, tab.symbol? id = some sym → sym.storage = .none) :
    KeepsBut id tree tab (tab.modifySymbol id fun s => { s with storage := .global slot }) := by
  have hg : tab.Grows (tab.modifySymbol id fun s => { s with storage := .global slot }) :=
    grows_modifySymbol fun sym hsym => ⟨rfl, rfl, rfl, rfl, rfl, fun h => absurd (hnone sym hsym) h⟩
  refine .of_grows hg (fun h => h.of_grows hg (fun k sc' hs => .inl ⟨sc', by simpa using hs, rfl⟩) fun k sym' hs => ?_)
    fun k sym' hs => ?_
  · rw [symbol?_modifySymbol] at hs
    split at hs
    · obtain ⟨sym, hsym, rfl⟩ := Option.map_eq_some_iff.1 hs
      refine .inr ⟨Nat.le_trans (h.places k sym hsym) (grows_size hg), h.decls k sym hsym, fun hb => ?_, .global (by simpa using hslot)⟩
      obtain ⟨sc, hsc, hk⟩ := h.bodies k sym hsym hb
      exact ⟨sc, by simpa using hsc, hk⟩
    · exact .inl ⟨sym', hs, rfl, rfl⟩
  · rw [symbol?_modifySymbol] at hs
    split at hs
    · exact .inl ‹_›
    · exact .inr ⟨sym', hs, rfl⟩

theorem keeps_setBody {fn fs : Nat} {sc : Scope} (hs : tab.scope? fs = some sc) (hk : sc.kind = .function)
    (hf : sc.func = fn) : Keeps tree tab (tab.modifySymbol fn fun s => { s with body := fs }) := by
  have hg : tab.Grows (tab.modifySymbol fn fun s => { s with body := fs }) :=
    grows_modifySymbol fun sym _ => ⟨rfl, rfl, rfl, rfl, rfl, fun _ => rfl⟩
  refine .of_grows hg (fun h => h.of_grows hg (fun k sc' hs => .inl ⟨sc', by simpa using hs, rfl⟩) fun k sym' hsym => ?_)
    fun k sym' hsym => .inr ?_
  · rw [symbol?_modifySymbol] at hsym
    split at hsym
    · rename_i e
      obtain ⟨sym, hold, rfl⟩ := Option.map_eq_some_iff.1 hsym
      exact .inr ⟨Nat.le_trans (h.places k sym hold) (grows_size hg), h.decls k sym hold,
        fun _ => ⟨sc, by simpa using hs, hk, hf.trans e.symm⟩, (h.fits k sym hold).grows h (.refl _) hg⟩
    · exact .inl ⟨sym', hsym, rfl, rfl⟩
  · rw [symbol?_modifySymbol] at hsym
    split at hsym
    · obtain ⟨sym, hold, rfl⟩ := Option.map_eq_some_iff.1 hsym
      exact ⟨sym, hold, rfl⟩
    · exact ⟨sym', hsym, rfl⟩

/-- A symbol that was bound is in the table, in the scope it was bound in. -/
theorem symbol?_declare {scope : ScopeId} {sym : Symbol} {r : SymbolId × ScopeTable} (hr : tab.declare scope sym = .ok r) :
    r.2.symbol? r.1 = some { sym with scope } ∧ tab.symbol? r.1 = none := by
  unfold declare at hr
  split at hr
  · cases hr
  · cases hr
    exact ⟨(symbol?_modifyScope ..).trans (symbol?_addSymbol_self ..), symbol?_fresh tab { sym with scope }⟩

theorem keepsBut_declare {scope : ScopeId} {sym : Symbol} {r : SymbolId × ScopeTable} (hr : tab.declare scope sym = .ok r)
    (hb : sym.body = 0) (hp : Laid tree tab → scope ≤ tab.scopes.size)
    (hd : Laid tree tab → sym.kind = .function → ∃ n, tree.get? sym.decl = some n ∧ n.kind = .func)
    (hf : Laid tree tab → Fits tree tab scope sym.storage) : KeepsBut r.1 tree tab r.2 := by
  unfold declare at hr
  split at hr
  · cases hr
  · cases hr
    refine (keepsBut_addSymbol (s := { sym with scope }) hb hp hd hf).trans (.but (keeps_modifyScope ?_) _)
    exact fun _ => ⟨⟨rfl, rfl, rfl, Nat.le_refl _, Nat.le_refl _⟩, rfl⟩

theorem keeps_declare {scope : ScopeId} {sym : Symbol} {r : SymbolId × ScopeTable} (hr : tab.declare scope sym = .ok r)
    (hb : sym.body = 0) (hp : Laid tree tab → scope ≤ tab.scopes.size)
    (hd : Laid tree tab → sym.kind = .function → ∃ n, tree.get? sym.decl = some n ∧ n.kind = .func)
    (hf : Laid tree tab → Fits tree tab scope sym.storage) (hq : ¬Deferred tab { sym with scope }) : Keeps tree tab r.2 := by
  have hk : KeepsBut r.1 tree tab r.2 := keepsBut_declare hr hb hp hd hf
  refine hk.keeps fun h sym' hs => ?_
  rw [(symbol?_declare hr).1] at hs
  cases hs
  exact fun hdef => hq ((deferred_iff h hk.grows (hp h)).1 hdef)

theorem keeps_declareCandidate {scope : ScopeId} {sym : Symbol} {r : SymbolId × ScopeTable}
    (hr : tab.declareCandidate scope sym = .ok r) (hb : sym.body = 0) (hst : sym.storage = .none)
    (hp : scope ≤ tab.scopes.size)
    (hd : sym.kind = .function → ∃ n, tree.get? sym.decl = some n ∧ n.kind = .func) : Keeps tree tab r.2 := by
  have finish : ∀ (t : ScopeTable) (set : SymbolId), scope ≤ t.scopes.size → Keeps tree t
      ((t.addSymbol { sym with scope, set }).2.modifySymbol set fun s =>
        { s with overloads := s.overloads ++ [(t.addSymbol { sym with scope, set }).1] }) := fun t set hp =>
    (keeps_addSymbol (s := { sym with scope, set }) hb (fun _ => hp) (fun _ => hd) (fun _ => by rw [hst]; exact .none)
      (not_deferred_of_storage hst)).trans (keeps_modifySymbol fun _ => ⟨⟨rfl, rfl, rfl, rfl, rfl, fun _ => rfl⟩, rfl, rfl⟩)
  unfold declareCandidate at hr
  simp only at hr
  split at hr
  · split at hr
    · cases hr
      exact finish tab _ hp
    · cases hr
  · split at hr
    · rename_i set t hdecl
      cases hr
      have hk : Keeps tree tab t :=
        keeps_declare hdecl rfl (fun _ => hp) (fun _ h => by cases h) (fun _ => .none) (not_deferred_of_storage rfl)
      exact hk.trans (finish t set (Nat.le_trans hp (grows_size hk.1)))
    · cases hr

theorem symbols_modifyScope (tab : ScopeTable) (id : ScopeId) (f : Scope → Scope) :
    (tab.modifyScope id f).symbols = tab.symbols := by
  unfold modifyScope
  split <;> rfl

/-- A function that is entered gets a new number. -/
theorem symbol?_declareCandidate {scope : ScopeId} {sym : Symbol} {r : SymbolId × ScopeTable}
    (hr : tab.declareCandidate scope sym = .ok r) :
    tab.symbol? r.1 = none ∧ ∃ sym', r.2.symbol? r.1 = some sym' ∧ sym'.kind = sym.kind ∧ sym'.decl = sym.decl := by
  have finish (t : ScopeTable) (set : SymbolId) (ht : tab.symbols.size ≤ t.symbols.size) :
      let added := t.addSymbol { sym with scope, set }
      tab.symbol? added.1 = none ∧ ∃ sym', (added.2.modifySymbol set fun s =>
        { s with overloads := s.overloads ++ [added.1] }).symbol? added.1 = some sym' ∧ sym'.kind = sym.kind ∧
          sym'.decl = sym.decl := by
    intro added
    refine ⟨?_, ?_⟩
    · cases hs : tab.symbol? added.1 with
      | none => rfl
      | some s => exact absurd (Nat.le_trans (symbol?_lt hs).2 ht) (Nat.not_succ_le_self _)
    · rw [symbol?_modifySymbol, symbol?_addSymbol_self]
      split
      · exact ⟨_, rfl, rfl, rfl⟩
      · exact ⟨_, rfl, rfl, rfl⟩
  unfold declareCandidate at hr
  simp only at hr
  split at hr
  · split at hr
    · cases hr
      exact finish tab _ (Nat.le_refl _)
    · cases hr
  · split at hr
    · rename_i set t hdecl
      cases hr
      refine finish t set ?_
      unfold declare at hdecl
      split at hdecl
      · cases hdecl
      · cases hdecl
        rw [symbols_modifyScope]
        exact Nat.le_of_lt (by simp)
    · cases hr

theorem keeps_allocLocal {scope : ScopeId} {r : Storage × ScopeTable} (hr : tab.allocLocal? scope = some r) :
    Keeps tree tab r.2 := by
  obtain ⟨s, hs, rfl⟩ := Option.map_eq_some_iff.1 hr
  exact keeps_modifyScope fun _ => ⟨⟨rfl, rfl, rfl, Nat.le_max_left .., Nat.le_refl _⟩, rfl⟩

/-- The slot that is given out lies in the frame as it is afterwards. -/
theorem fits_allocLocal {scope : ScopeId} {r : Storage × ScopeTable} (h : tab.Ordered)
    (hr : tab.allocLocal? scope = some r) : Fits tree r.2 scope r.1 := by
  obtain ⟨s, hs, rfl⟩ := Option.map_eq_some_iff.1 hr
  have h0 : tab.funcScope scope ≠ 0 := fun e => by rw [e] at hs; cases hs
  obtain ⟨inner, hin⟩ := scope?_of_funcScope h0
  have hkeep : Keeps tree tab _ := keeps_allocLocal hr
  have hg := hkeep.1
  refine @Fits.slot _ _ _ _ { s with stackTop := s.stackTop + 1, maxStack := max s.maxStack (s.stackTop + 1) } ?_ (by omega) ?_
  · rw [funcScope_grows h hg (scope?_lt hin).2]
    rw [scope?_modifyScope, if_pos rfl, hs]
    rfl
  · simp only [Int.neg_neg]
    omega

theorem keeps_enterBlock (id : ScopeId) : Keeps tree tab (tab.enterBlock id) := by
  unfold enterBlock
  split
  · exact keeps_modifyScope fun _ => ⟨⟨rfl, rfl, rfl, Nat.le_refl _, Nat.le_refl _⟩, rfl⟩
  · exact KeepsBut.refl ..

theorem keeps_leaveBlock (id : ScopeId) : Keeps tree tab (tab.leaveBlock id) :=
  keeps_modifyScope fun _ => ⟨⟨rfl, rfl, rfl, Nat.le_refl _, Nat.le_refl _⟩, rfl⟩

theorem keeps_openNamespace {parent : ScopeId} (hp : parent ≤ tab.scopes.size) (name : String) (span : Span) :
    Keeps tree tab (tab.openNamespace parent name span).2 := by
  unfold openNamespace
  simp only
  split
  · exact keeps_intern name
  · refine ((keeps_intern name).trans (keeps_addScope rfl (fun _ => hp) fun _ h => by cases h)).trans
      (keeps_addNamespace ?_)
    simp [addScope]

theorem openNamespace_le {parent : ScopeId} (h : Laid tree tab) (name : String) (span : Span) :
    (tab.openNamespace parent name span).1 ≤ (tab.openNamespace parent name span).2.scopes.size := by
  unfold openNamespace
  simp only
  split
  · rename_i ns hns
    obtain ⟨sc, hsc, hns⟩ := Option.bind_eq_some_iff.1 hns
    obtain ⟨l₁, l₂, hl, _⟩ := List.lookup_eq_some_iff.1 hns
    exact h.spaces parent sc hsc _ (hl ▸ List.mem_append_right l₁ (List.mem_cons_self ..))
  · unfold modifyScope
    split <;> simp [addScope]

/-- The captured copy takes the next place of the capture list. -/
theorem keeps_capture {fn : ScopeId} {sc : Scope} (hs : tab.scope? fn = some sc) (hk : sc.kind = .function)
    (outer : SymbolId) : Keeps tree tab (tab.capture fn outer).2 := by
  unfold capture
  split
  · rename_i f src hfn hsrc
    rw [hs] at hfn
    cases hfn
    split
    · exact .refl ..
    · -- the list grows first, so that the copy has its place when it is entered
      let copy : Symbol :=
        { name := src.name, kind := .var, attrs := src.attrs, scope := fn, decl := src.decl, span := src.span,
          type := src.type, storage := .captured sc.captures.length, origin := outer }
      let grow : Scope → Scope := fun s => { s with captures := s.captures ++ [(outer, tab.symbols.size + 1)] }
      have hgrow : ∀ s : Scope, s.Grows (grow s) ∧ (grow s).namespaces = s.namespaces :=
        fun s => ⟨⟨rfl, rfl, rfl, Nat.le_refl _, by simp [grow]⟩, rfl⟩
      have hswap : ((tab.addSymbol copy).2.modifyScope fn grow) = ((tab.modifyScope fn grow).addSymbol copy).2 := by
        unfold modifyScope addSymbol
        split <;> rfl
      change Keeps tree tab ((tab.addSymbol copy).2.modifyScope fn grow)
      rw [hswap]
      have hg : Keeps tree tab (tab.modifyScope fn grow) := keeps_modifyScope hgrow
      refine hg.trans (keeps_addSymbol rfl (fun _ => Nat.le_trans (scope?_lt hs).2 (grows_size hg.1))
        (fun _ h => by cases h) (fun _ => ?_) ?_)
      · refine @Fits.captured _ _ _ _ (grow sc) ?_ hk (by simp [grow])
        rw [scope?_modifyScope, if_pos rfl, hs]
        rfl
      · rintro ⟨-, ⟨slot, hslot⟩, -⟩
        cases hslot
  · exact .refl ..

end ScopeTable

end TreeCompiler
