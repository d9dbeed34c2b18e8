import TreeCompiler.Proofs.Analysis.Returns

/-!
# Names and their symbols

A scope lists its names with the numbers of symbols. `Named` says that the table has these symbols, so a clash of names
can be reported at the symbol that has the name; every change of the declaration pass keeps that.
-/

namespace TreeCompiler.ScopeTable

/-- Every name of a scope is bound to a symbol of the table. -/
def Named (tab : ScopeTable) : Prop :=
  ∀ (id : Nat) sc, tab.scope? id = some sc → ∀ p ∈ sc.names, ∃ sym, tab.symbol? p.2 = some sym

namespace Named

variable {tab tab' : ScopeTable}

/-- A name that is taken is taken by a symbol. -/
theorem bound (h : Named tab) {scope : ScopeId} {name : NameId} {prev : SymbolId}
    (hp : (tab.scope? scope).bind (·.symbol? name) = some prev) : ∃ sym, tab.symbol? prev = some sym := by
  obtain ⟨sc, hsc, hname⟩ := Option.bind_eq_some_iff.1 hp
  obtain ⟨l₁, l₂, hl, -⟩ := List.lookup_eq_some_iff.1 hname
  exact h scope sc hsc (name, prev) (hl ▸ List.mem_append_right l₁ (List.mem_cons_self ..))

/-- The names of a later table are those of the table before, or names of new symbols. -/
theorem of_grows (h : Named tab) (hg : tab.Grows tab')
    (hnames : ∀ (id : Nat) sc', tab'.scope? id = some sc' → ∀ p ∈ sc'.names,
      (∃ sc, tab.scope? id = some sc ∧ p ∈ sc.names) ∨ ∃ sym, tab'.symbol? p.2 = some sym) : Named tab' := by
  intro id sc' hsc' p hp
  rcases hnames id sc' hsc' p hp with ⟨sc, hsc, hold⟩ | hnew
  · obtain ⟨sym, hsym⟩ := h id sc hsc p hold
    obtain ⟨sym', hsym', -⟩ := hg.symbols p.2 sym hsym
    exact ⟨sym', hsym'⟩
  · exact hnew

theorem addScope (h : Named tab) {s : Scope} (hs : s.names = []) : Named (tab.addScope s).2 := by
  refine h.of_grows (grows_addScope tab s) fun id sc' hsc' p hp => .inl ?_
  rw [scope?_addScope] at hsc'
  split at hsc'
  · cases hsc'
    rw [hs] at hp
    cases hp
  · exact ⟨sc', hsc', hp⟩

theorem addSymbol (h : Named tab) (s : Symbol) : Named (tab.addSymbol s).2 :=
  h.of_grows (grows_addSymbol tab s) fun _ sc' hsc' _ hp => .inl ⟨sc', hsc', hp⟩

/-- A change of a scope that leaves its names alone. -/
theorem modifyScope (h : Named tab) {id : ScopeId} {f : Scope → Scope} (hf : ∀ sc, (f sc).names = sc.names) :
    Named (tab.modifyScope id f) := by
  intro k sc' hsc' p hp
  rw [symbol?_modifyScope]
  rw [scope?_modifyScope] at hsc'
  split at hsc'
  · obtain ⟨sc, hsc, rfl⟩ := Option.map_eq_some_iff.1 hsc'
    exact h k sc hsc p (hf sc ▸ hp)
  · exact h k sc' hsc' p hp

theorem modifySymbol (h : Named tab) (id : SymbolId) (f : Symbol → Symbol) : Named (tab.modifySymbol id f) := by
  intro k sc' hsc' p hp
  rw [scope?_modifySymbol] at hsc'
  obtain ⟨sym, hsym⟩ := h k sc' hsc' p hp
  rw [symbol?_modifySymbol, hsym]
  split
  · exact ⟨_, rfl⟩
  · exact ⟨_, rfl⟩

/-! ## Binding -/

theorem declare (h : Named tab) {scope : ScopeId} {sym : Symbol} {r : SymbolId × ScopeTable}
    (hr : tab.declare scope sym = .ok r) : Named r.2 := by
  unfold ScopeTable.declare at hr
  split at hr
  · cases hr
  · cases hr
    have hadd : Named (tab.addSymbol { sym with scope }).2 := h.addSymbol _
    intro k sc' hsc' p hp
    rw [symbol?_modifyScope]
    rw [scope?_modifyScope] at hsc'
    split at hsc'
    · obtain ⟨sc, hsc, rfl⟩ := Option.map_eq_some_iff.1 hsc'
      rcases List.mem_append.1 hp with hp | hp
      · exact hadd k sc hsc p hp
      · cases List.mem_singleton.1 hp
        exact ⟨_, symbol?_addSymbol_self ..⟩
    · exact hadd k sc' hsc' p hp

theorem declare_error (h : Named tab) {scope : ScopeId} {sym : Symbol} {prev : SymbolId}
    (hr : tab.declare scope sym = .error prev) : ∃ p, tab.symbol? prev = some p := by
  unfold ScopeTable.declare at hr
  split at hr
  · rename_i hname
    cases hr
    exact h.bound hname
  · cases hr

/-- A candidate joins the overload set of its name. -/
theorem declareCandidate (h : Named tab) {scope : ScopeId} {sym : Symbol} {r : SymbolId × ScopeTable}
    (hr : tab.declareCandidate scope sym = .ok r) : Named r.2 := by
  unfold ScopeTable.declareCandidate at hr
  simp only at hr
  split at hr
  · split at hr
    · cases hr
      exact (h.addSymbol _).modifySymbol _ _
    · cases hr
  · split at hr
    · rename_i set t hdecl
      cases hr
      have hset : Named t := h.declare hdecl
      exact (hset.addSymbol _).modifySymbol _ _
    · cases hr

theorem declareCandidate_error (h : Named tab) {scope : ScopeId} {sym : Symbol} {prev : SymbolId}
    (hr : tab.declareCandidate scope sym = .error prev) : ∃ p, tab.symbol? prev = some p := by
  unfold ScopeTable.declareCandidate at hr
  simp only at hr
  split at hr
  · rename_i set hname
    split at hr
    · cases hr
    · cases hr
      exact h.bound hname
  · split at hr
    · cases hr
    · rename_i prev' hdecl
      cases hr
      exact h.declare_error hdecl

/-! ## Scopes and frames -/

theorem openNamespace (h : Named tab) (parent : ScopeId) (name : String) (span : Span) :
    Named (tab.openNamespace parent name span).2 := by
  unfold ScopeTable.openNamespace
  simp only
  split
  · exact h
  · have hname : Named (tab.intern name).2 := h
    exact (hname.addScope rfl).modifyScope fun _ => rfl

theorem allocLocal? (h : Named tab) {scope : ScopeId} {r : Storage × ScopeTable}
    (hr : tab.allocLocal? scope = some r) : Named r.2 := by
  obtain ⟨sc, -, rfl⟩ := Option.map_eq_some_iff.1 hr
  exact h.modifyScope fun _ => rfl

theorem enterBlock (h : Named tab) (id : ScopeId) : Named (tab.enterBlock id) := by
  unfold ScopeTable.enterBlock
  split
  · exact h.modifyScope fun _ => rfl
  · exact h

theorem leaveBlock (h : Named tab) (id : ScopeId) : Named (tab.leaveBlock id) := h.modifyScope fun _ => rfl

theorem empty : Named {} := by
  intro id sc hsc p hp
  obtain ⟨h0, hle⟩ := scope?_lt hsc
  have hid : id = 1 := Nat.le_antisymm hle h0
  subst hid
  cases hsc
  cases hp

/-- The names of the built-in types are bound one after the other. -/
theorem declareBuiltins (h : Named tab) : Named (Analysis.declareBuiltins tab) := by
  unfold Analysis.declareBuiltins
  generalize [("int", TypeTable.int), ("real", TypeTable.real), ("bool", TypeTable.bool), ("string", TypeTable.string),
    ("handle", TypeTable.handle), ("dynamic", TypeTable.dynamic), ("void", TypeTable.void)] = builtins
  induction builtins generalizing tab with
  | nil => exact h
  | cons b builtins ih =>
    refine ih ?_
    dsimp only
    split
    · rename_i id t hdecl
      have hname : Named (tab.intern b.1).2 := h
      exact hname.declare hdecl
    · exact h

end Named

end TreeCompiler.ScopeTable
