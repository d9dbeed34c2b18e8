import TreeCompiler.Proofs.Scope.Growth

/-!
# The instances of generics in a scope table

The instances that were made of a generic stand in its template, with the keys of their arguments. Declaring a name and
binding its storage leave all of them alone; only entering an instance adds to them.

* `ScopeTable.instancesOf` : the instances of a symbol, none when it is no generic;
* `ScopeTable.SameInstances` : tables with the same instances; the lemmas `sameInstances_…` name the changes that keep them;
* `ScopeTable.instancesOf_enterInstance` : the instances after one more was entered.
-/

namespace TreeCompiler

/-- The instances of a generic. -/
def Symbol.instances? (s : Symbol) : Option (List (String × SymbolId)) := s.template.map (·.instances)

def Symbol.instances (s : Symbol) : List (String × SymbolId) := s.instances?.getD []

namespace ScopeTable

def instancesOf (t : ScopeTable) (gen : SymbolId) : List (String × SymbolId) :=
  ((t.symbol? gen).map (·.instances)).getD []

def IsGeneric (t : ScopeTable) (gen : SymbolId) : Prop := ∃ g tpl, t.symbol? gen = some g ∧ g.template = some tpl

/-- Symbols are only added, generics stay generic, and each of them has the instances that it had. -/
structure SameInstances (t t' : ScopeTable) : Prop where
  size : t.symbols.size ≤ t'.symbols.size
  generic : ∀ gen, t.IsGeneric gen → t'.IsGeneric gen
  instances : ∀ gen, t'.instancesOf gen = t.instancesOf gen

variable {t t' : ScopeTable}

namespace SameInstances

theorem refl (t : ScopeTable) : t.SameInstances t := ⟨Nat.le_refl _, fun _ h => h, fun _ => rfl⟩

theorem trans {a b c : ScopeTable} (h₁ : a.SameInstances b) (h₂ : b.SameInstances c) : a.SameInstances c :=
  ⟨Nat.le_trans h₁.size h₂.size, fun gen h => h₂.generic gen (h₁.generic gen h),
    fun gen => (h₂.instances gen).trans (h₁.instances gen)⟩

theorem of_symbols (h : t'.symbols = t.symbols) : t.SameInstances t' := by
  have hsymbol (gen : SymbolId) : t'.symbol? gen = t.symbol? gen := by
    unfold symbol?
    rw [h]
  refine ⟨Nat.le_of_eq (by rw [h]), fun gen hgen => ?_, fun gen => ?_⟩
  · unfold IsGeneric
    rw [hsymbol]
    exact hgen
  · unfold instancesOf
    rw [hsymbol]

end SameInstances

theorem sameInstances_addSymbol (t : ScopeTable) {s : Symbol} (h : s.instances = []) :
    t.SameInstances (t.addSymbol s).2 := by
  have hnew : t.symbol? (t.symbols.size + 1) = none := by simp [symbol?]
  refine ⟨by simp [addSymbol], fun gen hgen => ?_, fun gen => ?_⟩
  · obtain ⟨g, tpl, hg, htpl⟩ := hgen
    refine ⟨g, tpl, ?_, htpl⟩
    rw [symbol?_addSymbol, if_neg, hg]
    rintro rfl
    cases hnew.symm.trans hg
  · unfold instancesOf
    rw [symbol?_addSymbol]
    split
    · subst gen
      rw [hnew]
      simp [h]
    · rfl

theorem instancesOf_modifySymbol (t : ScopeTable) (id : SymbolId) (f : Symbol → Symbol) (gen : SymbolId) :
    (t.modifySymbol id f).instancesOf gen =
      if gen = id then ((t.symbol? gen).map fun s => (f s).instances).getD [] else t.instancesOf gen := by
  unfold instancesOf
  rw [symbol?_modifySymbol]
  split
  · rw [Option.map_map]
    rfl
  · rfl

theorem sameInstances_modifySymbol (t : ScopeTable) (id : SymbolId) {f : Symbol → Symbol}
    (h : ∀ s, (f s).instances? = s.instances?) : t.SameInstances (t.modifySymbol id f) := by
  refine ⟨?_, fun gen hgen => ?_, fun gen => ?_⟩
  · unfold modifySymbol
    split <;> simp
  · obtain ⟨g, tpl, hg, htpl⟩ := hgen
    have hf : (f g).instances? = some tpl.instances := by rw [h, Symbol.instances?, htpl, Option.map_some]
    obtain ⟨tpl', htpl', -⟩ := Option.map_eq_some_iff.1 hf
    unfold IsGeneric
    rw [symbol?_modifySymbol, hg]
    split
    · exact ⟨f g, tpl', rfl, htpl'⟩
    · exact ⟨g, tpl, rfl, htpl⟩
  · rw [instancesOf_modifySymbol]
    split
    · simp only [Symbol.instances, h]
      rfl
    · rfl

theorem sameInstances_modifyScope (t : ScopeTable) (id : ScopeId) (f : Scope → Scope) :
    t.SameInstances (t.modifyScope id f) := by
  refine .of_symbols ?_
  unfold modifyScope
  split <;> rfl

theorem sameInstances_intern (t : ScopeTable) (s : String) : t.SameInstances (t.intern s).2 := .of_symbols rfl

theorem sameInstances_addScope (t : ScopeTable) (s : Scope) : t.SameInstances (t.addScope s).2 := .of_symbols rfl

theorem sameInstances_openNamespace (t : ScopeTable) (parent : ScopeId) (name : String) (span : Span) :
    t.SameInstances (t.openNamespace parent name span).2 := by
  unfold openNamespace
  dsimp only
  split
  · exact t.sameInstances_intern name
  · exact ((t.sameInstances_intern name).trans (sameInstances_addScope _ _)).trans (sameInstances_modifyScope ..)

theorem sameInstances_allocGlobal (t : ScopeTable) : t.SameInstances t.allocGlobal.2 := .of_symbols rfl

theorem sameInstances_declare {scope : ScopeId} {s : Symbol} {r : SymbolId × ScopeTable} (hs : s.instances = [])
    (h : t.declare scope s = .ok r) : t.SameInstances r.2 := by
  unfold declare at h
  split at h
  · cases h
  · cases h
    exact (t.sameInstances_addSymbol (s := { s with scope }) hs).trans (sameInstances_modifyScope ..)

theorem sameInstances_declareCandidate {scope : ScopeId} {cand : Symbol} {r : SymbolId × ScopeTable}
    (hs : cand.instances = []) (h : t.declareCandidate scope cand = .ok r) : t.SameInstances r.2 := by
  have hfinish (u : ScopeTable) (set id : SymbolId) :
      u.SameInstances ((u.addSymbol { cand with scope, set }).2.modifySymbol set fun s =>
        { s with overloads := s.overloads ++ [id] }) :=
    (u.sameInstances_addSymbol (s := { cand with scope, set }) hs).trans (sameInstances_modifySymbol _ _ fun _ => rfl)
  unfold declareCandidate at h
  dsimp only at h
  split at h
  · split at h
    · cases h
      exact hfinish t _ _
    · cases h
  · split at h
    · rename_i hdeclare
      cases h
      exact (sameInstances_declare rfl hdeclare).trans (hfinish _ _ _)
    · cases h

theorem sameInstances_allocLocal? {id : ScopeId} {r : Storage × ScopeTable} (h : t.allocLocal? id = some r) :
    t.SameInstances r.2 := by
  unfold allocLocal? at h
  obtain ⟨s, -, rfl⟩ := Option.map_eq_some_iff.1 h
  exact sameInstances_modifyScope ..

theorem sameInstances_enterBlock (t : ScopeTable) (id : ScopeId) : t.SameInstances (t.enterBlock id) := by
  unfold enterBlock
  split
  · exact sameInstances_modifyScope ..
  · exact .refl t

theorem sameInstances_leaveBlock (t : ScopeTable) (id : ScopeId) : t.SameInstances (t.leaveBlock id) :=
  sameInstances_modifyScope ..

theorem sameInstances_capture (t : ScopeTable) (fn : ScopeId) (outer : SymbolId) :
    t.SameInstances (t.capture fn outer).2 := by
  unfold capture
  split
  · split
    · exact .refl t
    · exact (t.sameInstances_addSymbol rfl).trans (sameInstances_modifyScope ..)
  · exact .refl t

/-- Adds a symbol and enters it as an instance of a generic. -/
def enterInstance (t : ScopeTable) (gen : SymbolId) (key : String) (s : Symbol) : SymbolId × ScopeTable :=
  let (inst, t) := t.addSymbol s
  (inst, t.modifySymbol gen fun s =>
    { s with template := s.template.map fun tp => { tp with instances := tp.instances ++ [(key, inst)] } })

theorem size_enterInstance (t : ScopeTable) (gen : SymbolId) (key : String) (s : Symbol) :
    (t.enterInstance gen key s).2.symbols.size = t.symbols.size + 1 := by
  unfold enterInstance modifySymbol
  dsimp only
  split <;> simp [addSymbol]

/-- The new instance stands behind the others of its generic. -/
theorem instancesOf_enterInstance {t : ScopeTable} {gen : SymbolId} (hgen : t.IsGeneric gen) (key : String) {s : Symbol}
    (hs : s.instances = []) (other : SymbolId) : (t.enterInstance gen key s).2.instancesOf other =
      t.instancesOf other ++ if other = gen then [(key, t.symbols.size + 1)] else [] := by
  have hadd := t.sameInstances_addSymbol hs
  obtain ⟨g, tpl, hg, htpl⟩ := hadd.generic gen hgen
  refine (instancesOf_modifySymbol (t.addSymbol s).2 gen _ other).trans ?_
  rw [← hadd.instances other]
  split
  · subst other
    simp [instancesOf, hg, Symbol.instances, Symbol.instances?, htpl]
  · rw [List.append_nil]

end ScopeTable

end TreeCompiler
