import TreeCompiler.Scope.Table

/-!
# Tables that only grow

* `Tree.Grows` : nodes are only added; a node keeps its kind, except that an operator may become a call, and a function
  keeps the number of its parameters;
* `ScopeTable.Grows` : scopes, symbols and global slots are only added. A scope keeps its place and its function, a symbol its scope,
  declaration and attributes, and its storage once it has one; frames and capture lists do not shrink;
* `funcScope_grows` : the function around a scope is the same in every later table.
-/

namespace TreeCompiler

/-! ## Trees -/

/-- What an edit may do to a node. -/
structure Node.Grows (n n' : Node) : Prop where
  kind : n'.kind = n.kind ∨ (n.kind = .binary ∨ n.kind = .unary) ∧ n'.kind = .call
  params : n.kind = .func → n'.list.length = n.list.length

namespace Node.Grows

theorem refl (n : Node) : n.Grows n := ⟨.inl rfl, fun _ => rfl⟩

theorem of_same {n n' : Node} (hk : n'.kind = n.kind) (hl : n'.list = n.list) : n.Grows n' :=
  ⟨.inl hk, fun _ => by rw [hl]⟩

theorem func {n n' : Node} (h : n.Grows n') (hk : n.kind = .func) : n'.kind = .func := by
  rcases h.kind with h | ⟨h | h, _⟩
  · rw [h, hk]
  · rw [hk] at h; cases h
  · rw [hk] at h; cases h

theorem trans {a b c : Node} (h₁ : a.Grows b) (h₂ : b.Grows c) : a.Grows c := by
  refine ⟨?_, fun hk => (h₂.params (h₁.func hk)).trans (h₁.params hk)⟩
  rcases h₁.kind with h | ⟨h, hc⟩
  · rcases h₂.kind with h' | ⟨h', hc⟩
    · exact .inl (h'.trans h)
    · rw [h] at h'
      exact .inr ⟨h', hc⟩
  · rcases h₂.kind with h' | ⟨h' | h', _⟩
    · exact .inr ⟨h, h'.trans hc⟩
    · rw [hc] at h'; cases h'
    · rw [hc] at h'; cases h'

end Node.Grows

namespace Tree

def Grows (t t' : Tree) : Prop := ∀ id n, t.get? id = some n → ∃ n', t'.get? id = some n' ∧ n.Grows n'

theorem Grows.refl (t : Tree) : t.Grows t := fun _ n h => ⟨n, h, .refl n⟩

theorem Grows.trans {a b c : Tree} (h₁ : a.Grows b) (h₂ : b.Grows c) : a.Grows c := by
  intro id n h
  obtain ⟨n₁, h, g⟩ := h₁ id n h
  obtain ⟨n₂, h, g'⟩ := h₂ id n₁ h
  exact ⟨n₂, h, g.trans g'⟩

theorem get?_push (t : Tree) (n : Node) (id : Nat) :
    (t.push n).2.get? id = if id = t.size + 1 then some n else t.get? id := by
  unfold push get? size
  by_cases h : id = 0
  · simp [h]
  · simp only [h, if_false, Array.getElem?_push]
    have : id - 1 = t.nodes.size ↔ id = t.nodes.size + 1 := by omega
    simp [this]

theorem get?_modify (t : Tree) (id : Nat) (f : Node → Node) (k : Nat) :
    (t.modify id f).get? k = if k = id then (t.get? k).map f else t.get? k := by
  unfold modify get?
  by_cases h0 : id = 0
  · by_cases hk : k = 0 <;> simp [h0, hk]
  · by_cases hk : k = 0
    · simp [hk]
    · simp only [h0, hk, if_false, Array.getElem?_modify]
      have : id - 1 = k - 1 ↔ k = id := by omega
      simp only [this]

/-- Nodes are only added. -/
def Extends (t t' : Tree) : Prop := ∀ id n, t.get? id = some n → t'.get? id = some n

theorem Extends.refl (t : Tree) : t.Extends t := fun _ _ h => h

theorem Extends.trans {a b c : Tree} (h₁ : a.Extends b) (h₂ : b.Extends c) : a.Extends c :=
  fun id n h => h₂ id n (h₁ id n h)

theorem extends_push (t : Tree) (n : Node) : t.Extends (t.push n).2 := by
  intro id m h
  rw [get?_push, if_neg, h]
  rintro rfl
  simp [get?, size] at h

theorem Extends.get?_size {t t' : Tree} (h : t.Extends t') : t.get? (t'.size + 1) = none := by
  cases hn : t.get? (t'.size + 1) with
  | none => rfl
  | some n =>
    have hlast := h _ n hn
    simp [get?, size] at hlast

/-- The copy of a subtree leaves the nodes alone that are there; its root is new and has the kind of what was copied. -/
def CopiesInto (t : Tree) (id id' : NodeId) (t' : Tree) : Prop :=
  t.Extends t' ∧ t.get? id' = none ∧ ∀ n, t.get? id = some n → ∃ n', t'.get? id' = some n' ∧ n'.kind = n.kind

/-- The root of a copy may be edited. -/
theorem CopiesInto.extends_modify {t t' : Tree} {id id' : NodeId} (h : t.CopiesInto id id' t') (f : Node → Node) :
    t.Extends (t'.modify id' f) := by
  intro k n hk
  rw [get?_modify, if_neg, h.1 k n hk]
  rintro rfl
  rw [h.2.1] at hk
  cases hk

theorem copyListWith_extends {copy : Tree → NodeId → Option (NodeId × Tree)}
    (hc : ∀ t id r, copy t id = some r → t.Extends r.2) (ids : List NodeId) :
    ∀ t r, copyListWith copy t ids = some r → t.Extends r.2 := by
  induction ids with
  | nil =>
    intro t r h
    cases h
    exact .refl t
  | cons id rest ih =>
    intro t r h
    simp only [copyListWith, Option.bind_eq_bind, Option.bind_eq_some_iff] at h
    obtain ⟨⟨i, t₁⟩, h₁, ⟨is, t₂⟩, h₂, h⟩ := h
    have g := (hc t id _ h₁).trans (ih t₁ _ h₂)
    cases h
    exact g

theorem copyAux_copies (fuel : Nat) : ∀ t id r, copyAux fuel t id = some r → t.CopiesInto id r.1 r.2 := by
  induction fuel with
  | zero => intro t id r h; cases h
  | succ fuel ih =>
    intro t id r h
    unfold copyAux at h
    split at h
    · rename_i hn
      cases h
      exact ⟨.refl t, rfl, fun n h => by rw [hn] at h; cases h⟩
    · rename_i n hn
      have grows : ∀ t id r, copyAux fuel t id = some r → t.Extends r.2 := fun t id r h => (ih t id r h).1
      simp only [Option.bind_eq_bind, Option.bind_eq_some_iff] at h
      obtain ⟨⟨a, t₁⟩, h₁, ⟨b, t₂⟩, h₂, ⟨c, t₃⟩, h₃, ⟨d, t₄⟩, h₄, ⟨as, t₅⟩, h₅, ⟨ls, t₆⟩, h₆, h⟩ := h
      have g₆ : t.Extends t₆ := ((((((grows _ _ _ h₁).trans (grows _ _ _ h₂)).trans (grows _ _ _ h₃)).trans
        (grows _ _ _ h₄)).trans (copyListWith_extends grows _ _ _ h₅)).trans (copyListWith_extends grows _ _ _ h₆))
      cases h
      refine ⟨g₆.trans (extends_push _ _), g₆.get?_size, fun m hm => ?_⟩
      rw [hn] at hm
      cases hm
      exact ⟨_, (get?_push ..).trans (if_pos rfl), rfl⟩

theorem copy_copies {t : Tree} {id : NodeId} {r : NodeId × Tree} (h : t.copy id = some r) :
    t.CopiesInto id r.1 r.2 := copyAux_copies _ _ _ _ h

end Tree

/-! ## Scopes and symbols -/

structure Scope.Grows (s s' : Scope) : Prop where
  kind : s'.kind = s.kind
  parent : s'.parent = s.parent
  func : s'.func = s.func
  maxStack : s.maxStack ≤ s'.maxStack
  captures : s.captures.length ≤ s'.captures.length

theorem Scope.Grows.refl (s : Scope) : s.Grows s := ⟨rfl, rfl, rfl, Nat.le_refl _, Nat.le_refl _⟩

theorem Scope.Grows.trans {a b c : Scope} (h₁ : a.Grows b) (h₂ : b.Grows c) : a.Grows c :=
  ⟨h₂.kind.trans h₁.kind, h₂.parent.trans h₁.parent, h₂.func.trans h₁.func, Nat.le_trans h₁.maxStack h₂.maxStack,
    Nat.le_trans h₁.captures h₂.captures⟩

structure Symbol.Grows (s s' : Symbol) : Prop where
  kind : s'.kind = s.kind
  scope : s'.scope = s.scope
  decl : s'.decl = s.decl
  attrs : s'.attrs = s.attrs
  origin : s'.origin = s.origin
  storage : s.storage ≠ .none → s'.storage = s.storage

theorem Symbol.Grows.refl (s : Symbol) : s.Grows s := ⟨rfl, rfl, rfl, rfl, rfl, fun _ => rfl⟩

theorem Symbol.Grows.trans {a b c : Symbol} (h₁ : a.Grows b) (h₂ : b.Grows c) : a.Grows c := by
  refine ⟨h₂.kind.trans h₁.kind, h₂.scope.trans h₁.scope, h₂.decl.trans h₁.decl, h₂.attrs.trans h₁.attrs,
    h₂.origin.trans h₁.origin, fun h => ?_⟩
  have hst := h₁.storage h
  exact (h₂.storage (hst ▸ h)).trans hst

namespace ScopeTable

structure Grows (t t' : ScopeTable) : Prop where
  scopes : ∀ (id : Nat) sc, t.scope? id = some sc → ∃ sc', t'.scope? id = some sc' ∧ sc.Grows sc'
  symbols : ∀ (id : Nat) sym, t.symbol? id = some sym → ∃ sym', t'.symbol? id = some sym' ∧ sym.Grows sym'
  globals : t.globals ≤ t'.globals

theorem Grows.refl (t : ScopeTable) : t.Grows t :=
  ⟨fun _ sc h => ⟨sc, h, .refl sc⟩, fun _ sym h => ⟨sym, h, .refl sym⟩, Nat.le_refl _⟩

theorem Grows.trans {a b c : ScopeTable} (h₁ : a.Grows b) (h₂ : b.Grows c) : a.Grows c := by
  constructor
  · intro id sc h
    obtain ⟨sc₁, h, g⟩ := h₁.scopes id sc h
    obtain ⟨sc₂, h, g'⟩ := h₂.scopes id sc₁ h
    exact ⟨sc₂, h, g.trans g'⟩
  · intro id sym h
    obtain ⟨sym₁, h, g⟩ := h₁.symbols id sym h
    obtain ⟨sym₂, h, g'⟩ := h₂.symbols id sym₁ h
    exact ⟨sym₂, h, g.trans g'⟩
  · exact Nat.le_trans h₁.globals h₂.globals

/-! ### Reading a table after a change -/

theorem scope?_addScope (t : ScopeTable) (s : Scope) (id : Nat) :
    (t.addScope s).2.scope? id = if id = t.scopes.size + 1 then some s else t.scope? id := by
  unfold addScope scope?
  by_cases h : id = 0
  · simp [h]
  · simp only [h, if_false, Array.getElem?_push]
    have : id - 1 = t.scopes.size ↔ id = t.scopes.size + 1 := by omega
    simp [this]

theorem symbol?_addSymbol (t : ScopeTable) (s : Symbol) (id : Nat) :
    (t.addSymbol s).2.symbol? id = if id = t.symbols.size + 1 then some s else t.symbol? id := by
  unfold addSymbol symbol?
  by_cases h : id = 0
  · simp [h]
  · simp only [h, if_false, Array.getElem?_push]
    have : id - 1 = t.symbols.size ↔ id = t.symbols.size + 1 := by omega
    simp [this]

theorem scope?_modifyScope (t : ScopeTable) (id : Nat) (f : Scope → Scope) (k : Nat) :
    (t.modifyScope id f).scope? k = if k = id then (t.scope? k).map f else t.scope? k := by
  unfold modifyScope scope?
  by_cases h0 : id = 0
  · by_cases hk : k = 0 <;> simp [h0, hk]
  · by_cases hk : k = 0
    · simp [hk]
    · simp only [h0, hk, if_false, Array.getElem?_modify]
      have : id - 1 = k - 1 ↔ k = id := by omega
      simp only [this]

theorem symbol?_modifySymbol (t : ScopeTable) (id : Nat) (f : Symbol → Symbol) (k : Nat) :
    (t.modifySymbol id f).symbol? k = if k = id then (t.symbol? k).map f else t.symbol? k := by
  unfold modifySymbol symbol?
  by_cases h0 : id = 0
  · by_cases hk : k = 0 <;> simp [h0, hk]
  · by_cases hk : k = 0
    · simp [hk]
    · simp only [h0, hk, if_false, Array.getElem?_modify]
      have : id - 1 = k - 1 ↔ k = id := by omega
      simp only [this]

@[simp] theorem symbol?_addScope (t : ScopeTable) (s : Scope) (id : Nat) :
    (t.addScope s).2.symbol? id = t.symbol? id := rfl

@[simp] theorem scope?_addSymbol (t : ScopeTable) (s : Symbol) (id : Nat) :
    (t.addSymbol s).2.scope? id = t.scope? id := rfl

@[simp] theorem symbol?_modifyScope (t : ScopeTable) (id : Nat) (f : Scope → Scope) (k : Nat) :
    (t.modifyScope id f).symbol? k = t.symbol? k := by
  unfold modifyScope
  split <;> rfl

@[simp] theorem scope?_modifySymbol (t : ScopeTable) (id : Nat) (f : Symbol → Symbol) (k : Nat) :
    (t.modifySymbol id f).scope? k = t.scope? k := by
  unfold modifySymbol
  split <;> rfl

@[simp] theorem globals_modifyScope (t : ScopeTable) (id : Nat) (f : Scope → Scope) :
    (t.modifyScope id f).globals = t.globals := by
  unfold modifyScope
  split <;> rfl

@[simp] theorem globals_modifySymbol (t : ScopeTable) (id : Nat) (f : Symbol → Symbol) :
    (t.modifySymbol id f).globals = t.globals := by
  unfold modifySymbol
  split <;> rfl

theorem scope?_lt {t : ScopeTable} {id : Nat} {sc : Scope} (h : t.scope? id = some sc) :
    0 < id ∧ id ≤ t.scopes.size := by
  by_cases h0 : id = 0
  · simp [scope?, h0] at h
  · simp only [scope?, h0, if_false] at h
    have := (Array.getElem?_eq_some_iff.1 h).1
    omega

theorem symbol?_lt {t : ScopeTable} {id : Nat} {sym : Symbol} (h : t.symbol? id = some sym) :
    0 < id ∧ id ≤ t.symbols.size := by
  by_cases h0 : id = 0
  · simp [symbol?, h0] at h
  · simp only [symbol?, h0, if_false] at h
    have := (Array.getElem?_eq_some_iff.1 h).1
    omega

/-- A new symbol has its number and no symbol had it. -/
theorem symbol?_addSymbol_self (t : ScopeTable) (s : Symbol) : (t.addSymbol s).2.symbol? (t.addSymbol s).1 = some s :=
  (symbol?_addSymbol ..).trans (if_pos rfl)

theorem symbol?_fresh (t : ScopeTable) (s : Symbol) : t.symbol? (t.addSymbol s).1 = none := by
  cases hs : t.symbol? (t.addSymbol s).1 with
  | none => rfl
  | some sym => exact absurd (symbol?_lt hs).2 (Nat.not_succ_le_self _)

theorem exists_scope? {t : ScopeTable} {id : Nat} (h0 : 0 < id) (h : id ≤ t.scopes.size) :
    ∃ sc, t.scope? id = some sc := by
  have hlt : id - 1 < t.scopes.size := by omega
  exact ⟨t.scopes[id - 1], by simp [scope?, Nat.ne_of_gt h0]⟩

/-! ### Growth of each change -/

theorem grows_addScope (t : ScopeTable) (s : Scope) : t.Grows (t.addScope s).2 := by
  refine ⟨fun id sc h => ⟨sc, ?_, .refl sc⟩, fun id sym h => ⟨sym, h, .refl sym⟩, Nat.le_refl _⟩
  have := (scope?_lt h).2
  rw [scope?_addScope, if_neg (by omega), h]

theorem grows_addSymbol (t : ScopeTable) (s : Symbol) : t.Grows (t.addSymbol s).2 := by
  refine ⟨fun id sc h => ⟨sc, h, .refl sc⟩, fun id sym h => ⟨sym, ?_, .refl sym⟩, Nat.le_refl _⟩
  have := (symbol?_lt h).2
  rw [symbol?_addSymbol, if_neg (by omega), h]

theorem grows_modifyScope {t : ScopeTable} {id : Nat} {f : Scope → Scope}
    (hf : ∀ sc, t.scope? id = some sc → sc.Grows (f sc)) : t.Grows (t.modifyScope id f) := by
  refine ⟨fun k sc h => ?_, fun k sym h => ⟨sym, by simpa using h, .refl sym⟩, by simp⟩
  rw [scope?_modifyScope]
  by_cases e : k = id
  · subst e
    exact ⟨f sc, by simp [h], hf sc h⟩
  · exact ⟨sc, by simp [e, h], .refl sc⟩

theorem grows_modifySymbol {t : ScopeTable} {id : Nat} {f : Symbol → Symbol}
    (hf : ∀ sym, t.symbol? id = some sym → sym.Grows (f sym)) : t.Grows (t.modifySymbol id f) := by
  refine ⟨fun k sc h => ⟨sc, by simpa using h, .refl sc⟩, fun k sym h => ?_, by simp⟩
  rw [symbol?_modifySymbol]
  by_cases e : k = id
  · subst e
    exact ⟨f sym, by simp [h], hf sym h⟩
  · exact ⟨sym, by simp [e, h], .refl sym⟩

/-! ### The function around a scope -/

/-- A scope is younger than the one around it, so its chain ends. -/
def Ordered (t : ScopeTable) : Prop := ∀ (id : Nat) sc, t.scope? id = some sc → id > sc.parent

theorem mem_chainAux {t : ScopeTable} {fuel : Nat} {id k : Nat} (h : k ∈ t.chainAux fuel id) :
    ∃ sc, t.scope? k = some sc := by
  induction fuel generalizing id with
  | zero => cases h
  | succ fuel ih =>
    unfold chainAux at h
    split at h
    · cases h
    · rename_i sc hs
      rcases List.mem_cons.1 h with rfl | h
      · exact ⟨sc, hs⟩
      · exact ih h

theorem chainAux_grows {t t' : ScopeTable} (ho : t.Ordered) (hg : t.Grows t') :
    ∀ id : Nat, id ≤ t.scopes.size → ∀ fuel fuel', id < fuel → id < fuel' → t'.chainAux fuel' id = t.chainAux fuel id := by
  intro id
  induction id using Nat.strongRecOn with
  | _ id ih =>
    intro hle fuel fuel' hf hf'
    obtain ⟨fuel, rfl⟩ : ∃ k, fuel = k + 1 := ⟨fuel - 1, by omega⟩
    obtain ⟨fuel', rfl⟩ : ∃ k, fuel' = k + 1 := ⟨fuel' - 1, by omega⟩
    by_cases h0 : id = 0
    · subst h0
      rfl
    · obtain ⟨sc, hs⟩ := exists_scope? (t := t) (Nat.pos_of_ne_zero h0) hle
      obtain ⟨sc', hs', g⟩ := hg.scopes id sc hs
      have hlt := ho id sc hs
      unfold chainAux
      simp only [hs, hs', g.parent]
      rw [ih sc.parent hlt (by omega) fuel fuel' (by omega) (by omega)]

theorem grows_size {t t' : ScopeTable} (hg : t.Grows t') : t.scopes.size ≤ t'.scopes.size := by
  rcases Nat.eq_zero_or_pos t.scopes.size with h | h
  · omega
  · obtain ⟨sc, hs⟩ := exists_scope? (t := t) h (Nat.le_refl _)
    obtain ⟨sc', hs', _⟩ := hg.scopes _ _ hs
    exact (scope?_lt hs').2

theorem scopeKind_grows {t t' : ScopeTable} (hg : t.Grows t') {id : Nat} {sc : Scope} (h : t.scope? id = some sc) :
    t'.scopeKind id = t.scopeKind id := by
  obtain ⟨sc', hs', g⟩ := hg.scopes id sc h
  simp [scopeKind, h, hs', g.kind]

theorem find?_congr {α : Type} {p q : α → Bool} {l : List α} (h : ∀ a ∈ l, p a = q a) : l.find? p = l.find? q := by
  induction l with
  | nil => rfl
  | cons a l ih =>
    simp only [List.find?_cons, h a (List.mem_cons_self ..)]
    rw [ih fun b hb => h b (List.mem_cons_of_mem _ hb)]

theorem funcScope_grows {t t' : ScopeTable} (ho : t.Ordered) (hg : t.Grows t') {id : Nat}
    (h : id ≤ t.scopes.size) : t'.funcScope id = t.funcScope id := by
  have hs := grows_size hg
  have hchain : t'.chain id = t.chain id := chainAux_grows ho hg id h _ _ (by omega) (by omega)
  have hkind : ∀ k ∈ t.chain id, t'.scopeKind k = t.scopeKind k := fun k hk => by
    obtain ⟨sc, hk⟩ := mem_chainAux hk
    exact scopeKind_grows hg hk
  unfold funcScope
  rw [hchain, find?_congr (q := fun s => t.scopeKind s = .function || t.scopeKind s = .nameSpace)
    fun k hk => by rw [hkind k hk]]
  split
  · rename_i k hk
    rw [hkind k (List.mem_of_find?_eq_some hk)]
  · rfl

/-- What `funcScope` finds is a function scope. -/
theorem funcScope_scope? {t : ScopeTable} {id : Nat} (h : t.funcScope id ≠ 0) :
    ∃ sc, t.scope? (t.funcScope id) = some sc ∧ sc.kind = .function := by
  unfold funcScope at h ⊢
  split at h
  · rename_i k hk
    obtain ⟨sc, hs⟩ := mem_chainAux (List.mem_of_find?_eq_some hk)
    split at h
    · rename_i hf
      refine ⟨sc, by simp [hf, hs], ?_⟩
      simpa [scopeKind, hs] using hf
    · exact absurd rfl h
  · exact absurd rfl h

/-- A function scope is around itself. -/
theorem funcScope_self {t : ScopeTable} {id : Nat} {sc : Scope} (h : t.scope? id = some sc)
    (hk : sc.kind = .function) : t.funcScope id = id := by
  have hc : t.chain id = id :: t.chainAux t.scopes.size sc.parent := by
    rw [chain, chainAux, h]
  have hkind : t.scopeKind id = .function := by simp [scopeKind, h, hk]
  unfold funcScope
  rw [hc]
  simp [hkind]

theorem scope?_of_funcScope {t : ScopeTable} {id : Nat} (h : t.funcScope id ≠ 0) :
    ∃ sc, t.scope? id = some sc := by
  unfold funcScope chain chainAux at h
  split at h
  · rename_i k hk
    split at hk
    · cases hk
    · rename_i sc hs
      exact ⟨sc, hs⟩
  · exact absurd rfl h

end ScopeTable

end TreeCompiler
