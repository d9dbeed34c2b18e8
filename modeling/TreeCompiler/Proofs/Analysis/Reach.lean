import TreeCompiler.Proofs.Analysis.Step
import TreeCompiler.Proofs.Tree.Formed

/-!
# Steps that give nodes their scopes

Resolution looks up names from the scope that a node was declared in. What follows is the calculus for the pass that gives
these scopes.

* `Analysis.Covered` : the children of a node have a scope; a declaration counts when it is no template and its name was
  not taken;
* `Analysis.Ready D` : the nodes of `D` are under declaration; `Analysis.Passes but` : no scope is lost and no node is left
  uncovered, apart from those of `but`;
* `Analysis.Covers D but l m` : the computation `m` keeps both, does not fail, and gives the nodes of `l` a scope;
* `Analysis.Quiet m` : the computation succeeds and comes to no node. Quiet computations are found by instance.
-/

namespace TreeCompiler

namespace Analysis

open ScopeTable (Named)

variable {α β : Type}

/-! ## Nodes and their scopes -/

def Reached (s : Analysis) (id : NodeId) : Prop := s.nodeScope.contains id = true

/-- The name of the declaration was not taken. -/
def Declared (s : Analysis) (id : NodeId) : Prop :=
  s.result.decls.contains id = true ∨ s.result.funcs.contains id = true

/-- The children of a node have a scope; those of a template or of a refused declaration need none. -/
def Covered (t : Tree) (s : Analysis) (id : NodeId) : Prop :=
  ∀ n, t.get? id = some n → (n.kind ∈ namingKinds → n.isGeneric = false ∧ s.Declared id) →
    ∀ c ∈ n.slots, c ≠ 0 → s.Reached c

/-- A node that the pass has come to and left too early. -/
def Open (t : Tree) (s : Analysis) (id : NodeId) : Prop := (s.Reached id ∨ s.Declared id) ∧ ¬Covered t s id

theorem Covered.mono {t : Tree} {s s' : Analysis} {id : NodeId} (hs : ∀ x, s.Reached x → s'.Reached x)
    (hd : s'.Declared id → s.Declared id) (h : Covered t s id) : Covered t s' id :=
  fun n hn hk c hc h0 => hs c (h n hn (fun hkind => ⟨(hk hkind).1, hd (hk hkind).2⟩) c hc h0)

/-- The nodes of `D` are under declaration, and nothing but types was added to the tree. -/
structure Ready (t : Tree) (D : List NodeId) (s : Analysis) : Prop where
  tree : t.Retyped s.result.tree
  named : s.result.scopes.Named
  declaring : ∀ id, s.declaring.contains id = true ↔ id ∈ D
  reached : ∀ id ∈ D, s.Reached id

/-- No scope is lost, and no node is left open apart from those of `but`. -/
structure Passes (t : Tree) (but : List NodeId) (s s' : Analysis) : Prop where
  reached : ∀ id, s.Reached id → s'.Reached id
  opened : ∀ id, id ∉ but → Open t s' id → Open t s id

namespace Passes

variable {t : Tree} {but but' : List NodeId}

theorem refl (t : Tree) (but : List NodeId) (s : Analysis) : Passes t but s s := ⟨fun _ h => h, fun _ _ h => h⟩

theorem trans {a b c : Analysis} (h₁ : Passes t but a b) (h₂ : Passes t but b c) : Passes t but a c :=
  ⟨fun id h => h₂.reached id (h₁.reached id h), fun id hb h => h₁.opened id hb (h₂.opened id hb h)⟩

theorem weaken {s s' : Analysis} (h : Passes t but s s') (hb : ∀ id ∈ but, id ∈ but') : Passes t but' s s' :=
  ⟨h.reached, fun id hid ho => h.opened id (fun hmem => hid (hb id hmem)) ho⟩

end Passes

/-! ## Computations that cover -/

def CoversFrom (t : Tree) (D but : List NodeId) (s : Analysis) (l : List NodeId) (m : AnalysisM α) : Prop :=
  Ready t D s → ∃ a s', m s = .ok a s' ∧ Ready t D s' ∧ Passes t but s s' ∧ ∀ c ∈ l, c ≠ 0 → s'.Reached c

def Covers (t : Tree) (D but : List NodeId) (l : List NodeId) (m : AnalysisM α) : Prop := ∀ s, CoversFrom t D but s l m

theorem bind_apply {x : AnalysisM α} {f : α → AnalysisM β} {a : α} {s s' : Analysis} (h : x s = .ok a s') :
    (x >>= f) s = f a s' := by
  simp only [Bind.bind, EStateM.bind, h]

namespace CoversFrom

variable {t : Tree} {D but but' : List NodeId} {s : Analysis} {l l' : List NodeId}

theorem pure (a : α) : CoversFrom t D but s [] (pure a) :=
  fun h => ⟨a, s, rfl, h, .refl t but s, fun _ hc => by cases hc⟩

/-- Nothing stands in the slot. -/
theorem empty {c : NodeId} (h0 : c = 0) (a : α) : CoversFrom t D but s [c] (Pure.pure a) :=
  fun h => ⟨a, s, rfl, h, .refl t but s, fun _ hx hne => absurd ((List.mem_singleton.1 hx).trans h0) hne⟩

theorem append {x : AnalysisM α} {f : α → AnalysisM β} (hx : CoversFrom t D but s l x)
    (hf : ∀ a s', x s = .ok a s' → CoversFrom t D but s' l' (f a)) : CoversFrom t D but s (l ++ l') (x >>= f) := by
  intro h
  obtain ⟨a, s₁, h₁, hr₁, hp₁, hl₁⟩ := hx h
  obtain ⟨b, s₂, h₂, hr₂, hp₂, hl₂⟩ := hf a s₁ h₁ hr₁
  refine ⟨b, s₂, (bind_apply h₁).trans h₂, hr₂, hp₁.trans hp₂, fun c hc h0 => ?_⟩
  rcases List.mem_append.1 hc with hc | hc
  · exact hp₂.reached c (hl₁ c hc h0)
  · exact hl₂ c hc h0

/-- The first part comes to one node. -/
theorem cons {c : NodeId} {x : AnalysisM α} {f : α → AnalysisM β} (hx : CoversFrom t D but s [c] x)
    (hf : ∀ a s', x s = .ok a s' → CoversFrom t D but s' l (f a)) : CoversFrom t D but s (c :: l) (x >>= f) :=
  append hx hf

/-- The first part comes to no node. -/
theorem skip {x : AnalysisM α} {f : α → AnalysisM β} (hx : CoversFrom t D but s [] x)
    (hf : ∀ a s', x s = .ok a s' → CoversFrom t D but s' l (f a)) : CoversFrom t D but s l (x >>= f) := append hx hf

theorem get_bind {f : Analysis → AnalysisM β} (h : CoversFrom t D but s l (f s)) : CoversFrom t D but s l (get >>= f) := h

theorem of_ready {m : AnalysisM α} (h : Ready t D s → CoversFrom t D but s l m) : CoversFrom t D but s l m :=
  fun hr => h hr hr

theorem mono {m : AnalysisM α} (h : CoversFrom t D but s l m) (hl : ∀ c ∈ l', c ≠ 0 → c ∈ l) :
    CoversFrom t D but s l' m := by
  intro hr
  obtain ⟨a, s', hm, hr', hp, hs⟩ := h hr
  exact ⟨a, s', hm, hr', hp, fun c hc h0 => hs c (hl c hc h0) h0⟩

theorem weaken {m : AnalysisM α} (h : CoversFrom t D but s l m) (hb : ∀ id ∈ but, id ∈ but') :
    CoversFrom t D but' s l m := by
  intro hr
  obtain ⟨a, s', hm, hr', hp, hs⟩ := h hr
  exact ⟨a, s', hm, hr', hp.weaken hb, hs⟩

theorem ite {c : Prop} [Decidable c] {x y : AnalysisM α} (hx : c → CoversFrom t D but s l x)
    (hy : ¬c → CoversFrom t D but s l y) : CoversFrom t D but s l (if c then x else y) := by
  split
  · exact hx ‹_›
  · exact hy ‹_›

/-- A node may be left open until the pass has come to all of its children. -/
theorem close {p : NodeId} {n : Node} {m : AnalysisM α} (hn : t.get? p = some n) (h : CoversFrom t D (p :: but) s l m)
    (hl : (n.kind ∈ namingKinds → n.isGeneric = false) → ∀ c ∈ n.slots, c ∈ l) : CoversFrom t D but s l m := by
  intro hr
  obtain ⟨a, s', hm, hr', hp, hs⟩ := h hr
  refine ⟨a, s', hm, hr', ⟨hp.reached, fun id hid ho => ?_⟩, hs⟩
  by_cases hx : id = p
  · subst hx
    refine absurd (fun n' hn' hk c hc h0 => ?_) ho.2
    cases hn.symm.trans hn'
    exact hs c (hl (fun hkind => (hk hkind).1) c hc) h0
  · exact hp.opened id (by simp [hx, hid]) ho

/-- A node and then its children. -/
theorem part {p : NodeId} {n : Node} {m : AnalysisM α} (hn : t.get? p = some n)
    (h : CoversFrom t D (p :: but) s (p :: n.slots) m) : CoversFrom t D but s [p] m :=
  (h.close hn fun _ _ hc => List.mem_cons_of_mem _ hc).mono fun _ hc _ =>
    List.mem_singleton.1 hc ▸ List.mem_cons_self ..

/-- The children of a declaration, unless it is generic. -/
theorem enter {id : NodeId} {n : Node} {x : AnalysisM α} {f : α → AnalysisM β} (hn : t.get? id = some n)
    (hk : n.kind ∈ namingKinds) (hx : CoversFrom t D (id :: but) s [] x)
    (hgeneric : n.isGeneric = true → ∀ a s', CoversFrom t D (id :: but) s' [] (f a))
    (hplain : n.isGeneric = false → ∀ a s', CoversFrom t D (id :: but) s' n.slots (f a)) :
    CoversFrom t D but s [] (x >>= f) := by
  cases hgen : n.isGeneric with
  | true =>
    refine close hn (hx.skip fun a s' _ => hgeneric hgen a s') fun h => ?_
    rw [h hk] at hgen
    cases hgen
  | false => exact (close hn (hx.skip fun a s' _ => hplain hgen a s') fun _ _ hc => hc).mono fun _ hc => by cases hc

/-- The node is in the tree, with the type it may have got. -/
theorem node_bind {id : NodeId} {n : Node} {f : Node → AnalysisM β} (hn : t.get? id = some n)
    (h : ∀ n', n.Retyped n' → CoversFrom t D but s l (f n')) : CoversFrom t D but s l (node id >>= f) := by
  intro hr
  obtain ⟨n', hn', htyped⟩ := hr.tree.nodes id n hn
  have hnode : node id s = .ok n' s := by
    rw [node_apply, hn']
    rfl
  obtain ⟨a, s', hm, rest⟩ := h n' htyped hr
  exact ⟨a, s', (bind_apply hnode).trans hm, rest⟩

end CoversFrom

/-! ## Computations that come to no node -/

/-- Scopes of nodes and declarations stay as they are. -/
structure Rests (s s' : Analysis) : Prop where
  tree : ∀ t : Tree, t.Retyped s.result.tree → t.Retyped s'.result.tree
  named : s.result.scopes.Named → s'.result.scopes.Named
  decls : s'.result.decls = s.result.decls
  funcs : s'.result.funcs = s.result.funcs
  nodeScope : s'.nodeScope = s.nodeScope
  declaring : s'.declaring = s.declaring

namespace Rests

theorem refl (s : Analysis) : Rests s s := ⟨fun _ h => h, fun h => h, rfl, rfl, rfl, rfl⟩

theorem trans {a b c : Analysis} (h₁ : Rests a b) (h₂ : Rests b c) : Rests a c :=
  ⟨fun t h => h₂.tree t (h₁.tree t h), fun h => h₂.named (h₁.named h), h₂.decls.trans h₁.decls, h₂.funcs.trans h₁.funcs,
    h₂.nodeScope.trans h₁.nodeScope, h₂.declaring.trans h₁.declaring⟩

variable {t : Tree} {D : List NodeId} {s s' : Analysis}

theorem reached (h : Rests s s') (id : NodeId) : s'.Reached id ↔ s.Reached id := by
  unfold Reached
  rw [h.nodeScope]

theorem declared (h : Rests s s') (id : NodeId) : s'.Declared id ↔ s.Declared id := by
  unfold Declared
  rw [h.decls, h.funcs]

theorem ready (h : Rests s s') (hr : Ready t D s) : Ready t D s' :=
  ⟨h.tree t hr.tree, h.named hr.named, fun id => h.declaring ▸ hr.declaring id,
    fun id hid => (h.reached id).2 (hr.reached id hid)⟩

theorem passes (h : Rests s s') (but : List NodeId) : Passes t but s s' :=
  ⟨fun id => (h.reached id).2, fun id _ ho => ⟨ho.1.imp (h.reached id).1 (h.declared id).1,
    fun hc => ho.2 (hc.mono (fun x => (h.reached x).2) (h.declared id).1)⟩⟩

end Rests

theorem CoversFrom.of_rests {t : Tree} {D but : List NodeId} {s s' : Analysis} {m : AnalysisM α} {a : α}
    (hm : m s = .ok a s') (h : Rests s s') : CoversFrom t D but s [] m :=
  fun hr => ⟨a, s', hm, h.ready hr, h.passes but, fun _ hc => by cases hc⟩

/-- The computation succeeds and comes to no node. -/
class Quiet (m : AnalysisM α) : Prop where
  quiet : ∀ s, s.result.scopes.Named → ∃ a s', m s = .ok a s' ∧ Rests s s'

namespace Quiet

theorem coversFrom {t : Tree} {D but : List NodeId} {s : Analysis} (m : AnalysisM α) [h : Quiet m] :
    CoversFrom t D but s [] m := by
  refine .of_ready fun hr => ?_
  obtain ⟨a, s', hm, hrest⟩ := h.quiet s hr.named
  exact .of_rests hm hrest

theorem seq {x : AnalysisM α} {f : α → AnalysisM β} (hx : Quiet x) (hf : ∀ a, Quiet (f a)) : Quiet (x >>= f) := by
  refine ⟨fun s hs => ?_⟩
  obtain ⟨a, s₁, h₁, r₁⟩ := hx.quiet s hs
  obtain ⟨b, s₂, h₂, r₂⟩ := (hf a).quiet s₁ (r₁.named hs)
  exact ⟨b, s₂, (bind_apply h₁).trans h₂, r₁.trans r₂⟩

/-- The first part is found by instance. -/
theorem bind {x : AnalysisM α} {f : α → AnalysisM β} [hx : Quiet x] (hf : ∀ a, Quiet (f a)) : Quiet (x >>= f) :=
  seq hx hf

instance {x : AnalysisM α} {f : α → AnalysisM β} [hx : Quiet x] [hf : ∀ a, Quiet (f a)] : Quiet (x >>= f) := seq hx hf

instance (a : α) : Quiet (pure a : AnalysisM α) := ⟨fun s _ => ⟨a, s, rfl, .refl s⟩⟩

instance : Quiet (get : AnalysisM Analysis) := ⟨fun s _ => ⟨s, s, rfl, .refl s⟩⟩

instance {c : Prop} [Decidable c] {x y : AnalysisM α} [Quiet x] [Quiet y] : Quiet (if c then x else y) := by
  split <;> infer_instance

theorem of_modify {f : Analysis → Analysis} (h : ∀ s, Rests s (f s)) : Quiet (modify f) :=
  ⟨fun s _ => ⟨⟨⟩, f s, rfl, h s⟩⟩

theorem of_modifyGet {f : Analysis → α × Analysis} (h : ∀ s, Rests s (f s).2) : Quiet (modifyGet f) :=
  ⟨fun s _ => ⟨(f s).1, (f s).2, rfl, h s⟩⟩

theorem of_modifyScopes {f : ScopeTable → ScopeTable} (h : ∀ tab : ScopeTable, tab.Named → (f tab).Named) :
    Quiet (modifyScopes f) :=
  of_modify fun s => ⟨fun _ ht => ht, h s.result.scopes, rfl, rfl, rfl, rfl⟩

theorem of_withScopes {f : ScopeTable → α × ScopeTable} (h : ∀ tab : ScopeTable, tab.Named → (f tab).2.Named) :
    Quiet (withScopes f) :=
  of_modifyGet fun s => ⟨fun _ ht => ht, h s.result.scopes, rfl, rfl, rfl, rfl⟩

/-- A change of what is noted besides the result. -/
theorem note {f : Analysis → Analysis}
    (h : ∀ s, (f s).result = s.result ∧ (f s).nodeScope = s.nodeScope ∧ (f s).declaring = s.declaring) :
    Quiet (modify f) := by
  refine of_modify fun s => ?_
  obtain ⟨hresult, hscope, hdecl⟩ := h s
  exact ⟨fun _ ht => hresult ▸ ht, fun hn => hresult ▸ hn, by rw [hresult], by rw [hresult], hscope, hdecl⟩

/-- A change of the results that are not looked at here. -/
theorem noteResult {f : AnalysisResult → AnalysisResult}
    (h : ∀ r, (f r).tree = r.tree ∧ (f r).scopes = r.scopes ∧ (f r).decls = r.decls ∧ (f r).funcs = r.funcs) :
    Quiet (modifyResult f) := by
  refine of_modify fun s => ?_
  obtain ⟨htree, hscopes, hdecls, hfuncs⟩ := h s.result
  exact ⟨fun _ ht => htree.symm ▸ ht, fun hn => hscopes.symm ▸ hn, hdecls, hfuncs, rfl, rfl⟩

instance : Quiet tree := by unfold tree; infer_instance

instance : Quiet types := by unfold types; infer_instance

instance : Quiet scopes := by unfold scopes; infer_instance

instance (id : NodeId) : Quiet (spanOf id) := by unfold spanOf; infer_instance

instance (id : NodeId) : Quiet (seqOf id) := by unfold seqOf; infer_instance

instance (t : TypeId) : Quiet (isResolved t) := by unfold isResolved; infer_instance

instance (text : String) : Quiet (internName text) := of_withScopes fun _ h => h

instance (p : Problem) (span : Span) (notes : List Note) : Quiet (reportWith p span notes) :=
  note fun _ => ⟨rfl, rfl, rfl⟩

instance (p : Problem) (span : Span) : Quiet (report p span) := by unfold report; infer_instance

instance (id : NodeId) (t : TypeId) (c : Node → Bool) :
    Quiet (modifyNode id fun n => { n with valueType := t, completed := c n }) :=
  of_modify fun _ => ⟨fun _ ht => ht.modify id fun n => ⟨t, c n, rfl⟩, fun h => h, rfl, rfl, rfl, rfl⟩

instance : Quiet inFunction := by unfold inFunction; infer_instance

instance (n : Node) : Quiet (loadNative n) := by
  unfold loadNative
  refine bind fun s => ?_
  split
  · infer_instance
  · infer_instance
  · split <;> infer_instance

instance (n : Node) : Quiet (checkLoopControl n) := by unfold checkLoopControl; infer_instance

instance (n : Node) : Quiet (declareImport n) := by
  unfold declareImport
  exact bind fun _ => of_modifyScopes fun _ h => h.modifyScope fun _ => rfl

instance (static : Bool) : Quiet (newStorage static) := by
  have hglobal : Quiet (withScopes (·.allocGlobal)) := of_withScopes fun _ h => h
  refine ⟨fun s hs => ?_⟩
  have happly : newStorage static s = (match if static then none else s.result.scopes.allocLocal? s.scope with
    | some (storage, scopes) => modifyScopes (fun _ => scopes) >>= fun _ => pure storage
    | none => withScopes (·.allocGlobal) : AnalysisM Storage) s := rfl
  rw [happly]
  cases halloc : (if static then none else s.result.scopes.allocLocal? s.scope) with
  | none => exact hglobal.quiet s hs
  | some r =>
    have hlocal : s.result.scopes.allocLocal? s.scope = some r := by
      split at halloc
      · cases halloc
      · exact halloc
    exact ⟨r.1, _, rfl, fun _ ht => ht, fun _ => hs.allocLocal? hlocal, rfl, rfl, rfl, rfl⟩

end Quiet

/-! ## Changes at one node -/

/-- The scopes and declarations of other nodes stay as they are. -/
structure Touches (p : NodeId) (s s' : Analysis) : Prop where
  tree : s'.result.tree = s.result.tree
  named : s.result.scopes.Named → s'.result.scopes.Named
  declaring : s'.declaring = s.declaring
  kept : s.Reached p → s'.Reached p
  reached : ∀ id ≠ p, s'.Reached id ↔ s.Reached id
  declared : ∀ id ≠ p, s'.Declared id ↔ s.Declared id

namespace Touches

variable {t : Tree} {D but : List NodeId} {p : NodeId} {s s' : Analysis}

theorem mono (h : Touches p s s') (id : NodeId) (hid : s.Reached id) : s'.Reached id := by
  by_cases hp : id = p
  · subst hp
    exact h.kept hid
  · exact (h.reached id hp).2 hid

theorem ready (h : Touches p s s') (hr : Ready t D s) : Ready t D s' :=
  ⟨h.tree ▸ hr.tree, h.named hr.named, fun id => h.declaring ▸ hr.declaring id, fun id hid => h.mono id (hr.reached id hid)⟩

theorem passes (h : Touches p s s') (hp : p ∈ but) : Passes t but s s' := by
  refine ⟨h.mono, fun id hid ho => ?_⟩
  have hne : id ≠ p := fun he => hid (he ▸ hp)
  exact ⟨ho.1.imp (h.reached id hne).1 (h.declared id hne).1, fun hc => ho.2 (hc.mono h.mono (h.declared id hne).1)⟩

/-- The node gets a scope. -/
theorem of_place {fs : ScopeId} (hresult : s'.result = s.result) (hd : s'.declaring = s.declaring)
    (hscope : s'.nodeScope = s.nodeScope.insert p fs) : Touches p s s' := by
  have hreached : ∀ id, s'.Reached id ↔ id = p ∨ s.Reached id := fun id => by
    unfold Reached
    rw [hscope]
    exact IdMap.contains_insert s.nodeScope p id fs
  refine ⟨by rw [hresult], fun h => hresult ▸ h, hd, fun _ => (hreached p).2 (.inl rfl),
    fun id hne => (hreached id).trans (or_iff_right hne), fun id _ => ?_⟩
  unfold Declared
  rw [hresult]

/-- The declaration gets a symbol. -/
theorem of_decl (sym : SymbolId) :
    Touches p s { s with result := { s.result with decls := s.result.decls.insert p sym } } :=
  ⟨rfl, fun h => h, rfl, fun h => h, fun _ _ => .rfl,
    fun id hne => or_congr_left ((IdMap.contains_insert s.result.decls p id sym).trans (or_iff_right hne))⟩

/-- The function gets a symbol. -/
theorem of_func (sym : SymbolId) {scopes : ScopeTable} (h : s.result.scopes.Named → scopes.Named) :
    Touches p s { s with result := { s.result with scopes, funcs := s.result.funcs.insert p sym } } :=
  ⟨rfl, h, rfl, fun h => h, fun _ _ => .rfl,
    fun id hne => or_congr_right ((IdMap.contains_insert s.result.funcs p id sym).trans (or_iff_right hne))⟩

end Touches

namespace CoversFrom

variable {t : Tree} {D but : List NodeId} {s : Analysis} {l : List NodeId}

theorem touch {m : AnalysisM α} {p : NodeId} {a : α} {s' : Analysis} (hp : p ∈ but) (hm : m s = .ok a s')
    (h : Touches p s s') : CoversFrom t D but s [] m :=
  fun hr => ⟨a, s', hm, h.ready hr, h.passes hp, fun _ hc => by cases hc⟩

theorem setDecl {p : NodeId} (hp : p ∈ but) (sym : SymbolId) : CoversFrom t D but s [] (setDecl p sym) :=
  touch hp rfl (.of_decl sym)

/-- A declaration is left open only once its name is bound. -/
theorem setScope {p : NodeId} (hp : p ∈ but ∨ ∃ n, t.get? p = some n ∧ n.kind ∈ namingKinds) (fs : ScopeId) :
    CoversFrom t D but s [p] (setScope p fs) := by
  let s' : Analysis :=
    { s with nodeScope := s.nodeScope.insert p fs, nodeSeq := s.nodeSeq.insert p (s.seq + 1), seq := s.seq + 1 }
  have h : Touches p s s' := .of_place rfl rfl rfl
  refine fun hr => ⟨⟨⟩, s', rfl, h.ready hr, ⟨h.mono, fun id hid ho => ?_⟩, fun c hc _ => ?_⟩
  · by_cases hne : id = p
    · subst hne
      obtain ⟨n, hn, hk⟩ := hp.resolve_left hid
      have hnot : ¬Covered t s id := fun hc => ho.2 (hc.mono h.mono fun hd => hd)
      refine ⟨.inr ?_, hnot⟩
      by_contra hd
      refine hnot fun n' hn' hk' => ?_
      cases hn.symm.trans hn'
      exact absurd (hk' hk).2 hd
    · exact (h.passes (List.mem_singleton.2 rfl)).opened id (mt List.mem_singleton.1 hne) ho
  · cases List.mem_singleton.1 hc
    exact (IdMap.contains_insert s.nodeScope p p fs).2 (.inl rfl)

end CoversFrom

/-! ## Control structures -/

namespace CoversFrom

variable {t : Tree} {D but : List NodeId} {s : Analysis} {l : List NodeId}

/-- The last part comes to no node. -/
theorem leave {x : AnalysisM α} {f : α → AnalysisM β} (hx : CoversFrom t D but s l x)
    (hf : ∀ a s', CoversFrom t D but s' [] (f a)) : CoversFrom t D but s l (x >>= f) :=
  (hx.append fun a s' _ => hf a s').mono fun _ hc _ => List.mem_append_left _ hc

theorem last {x : AnalysisM α} {f : α → AnalysisM β} (hx : CoversFrom t D but s l x) (hf : ∀ a, Quiet (f a)) :
    CoversFrom t D but s l (x >>= f) := hx.leave fun a _ => (hf a).coversFrom

/-- The first part is found by instance. -/
theorem bind {x : AnalysisM α} {f : α → AnalysisM β} [Quiet x]
    (hf : ∀ a s', x s = .ok a s' → CoversFrom t D but s' l (f a)) : CoversFrom t D but s l (x >>= f) := skip (Quiet.coversFrom x) hf

end CoversFrom

namespace Covers

variable {t : Tree} {D but : List NodeId} {l : List NodeId}

theorem forM {f : α → AnalysisM PUnit} {g : α → NodeId} (xs : List α) (h : ∀ x ∈ xs, Covers t D but [g x] (f x)) :
    Covers t D but (xs.map g) (xs.forM f) := by
  induction xs with
  | nil => exact fun s => .pure _
  | cons x xs ih =>
    exact fun s => .cons (h x (List.mem_cons_self ..) s) fun _ s' _ => ih (fun y hy => h y (List.mem_cons_of_mem _ hy)) s'

theorem forIn {f : α → PUnit → AnalysisM (ForInStep PUnit)} {g : α → NodeId} (xs : List α)
    (h : ∀ x ∈ xs, ∃ m : AnalysisM Unit, f x ⟨⟩ = (m >>= fun _ => pure (.yield ⟨⟩)) ∧ Covers t D but [g x] m) :
    Covers t D but (xs.map g) (forIn xs ⟨⟩ f) := by
  induction xs with
  | nil => exact fun s => .pure _
  | cons x xs ih =>
    obtain ⟨m, hm, hc⟩ := h x (List.mem_cons_self ..)
    rw [List.forIn_cons, hm, bind_assoc]
    exact fun s => .cons (hc s) fun _ s' _ => ih (fun y hy => h y (List.mem_cons_of_mem _ hy)) s'

/-- Parts that are numbered. -/
theorem parts {f : NodeId → Nat → AnalysisM Unit} (cs : List NodeId) (h : ∀ c ∈ cs, ∀ i, Covers t D but [c] (f c i)) :
    Covers t D but cs (ForIn.forIn cs.zipIdx PUnit.unit fun x _ => do
      f x.1 x.2
      pure (ForInStep.yield PUnit.unit)) := by
  have hzip := @forIn _ t D but (fun x _ => do f x.1 x.2; pure (ForInStep.yield PUnit.unit)) Prod.fst cs.zipIdx fun x hx =>
    ⟨f x.1 x.2, rfl, h x.1 (List.fst_mem_of_mem_zipIdx hx) x.2⟩
  rwa [List.zipIdx_map_fst] at hzip

theorem withScope {step : AnalysisM Unit} (h : Covers t D but l step) (scope : ScopeId) :
    Covers t D but l (withScope scope step) := by
  have enter (scope : ScopeId) : Quiet (modify fun s => { s with scope }) := Quiet.note fun _ => ⟨rfl, rfl, rfl⟩
  exact fun s => .get_bind (.bind fun _ s' _ => (h s').last fun _ => inferInstance)

theorem inBlock {step : AnalysisM Unit} (h : Covers t D but l step) (id : NodeId) : Covers t D but l (inBlock id step) := by
  have opens (kind : ScopeKind) (parent : ScopeId) (span : Span) : Quiet (withScopes (·.addScope { kind, parent, span })) :=
    Quiet.of_withScopes fun _ ht => ht.addScope rfl
  have enter (block : ScopeId) : Quiet (modifyScopes (·.enterBlock block)) :=
    Quiet.of_modifyScopes fun _ ht => ht.enterBlock block
  have leave (block : ScopeId) : Quiet (modifyScopes (·.leaveBlock block)) :=
    Quiet.of_modifyScopes fun _ ht => ht.leaveBlock block
  unfold Analysis.inBlock
  exact fun s => .bind fun span s₁ _ => .bind fun _ s₂ _ => .bind fun block s₃ _ => .bind fun _ s₄ _ =>
    (h.withScope block s₄).last fun _ => inferInstance

theorem inLoop {step : AnalysisM Unit} (h : Covers t D but l step) (label : String) : Covers t D but l (inLoop label step) := by
  have leave : Quiet (modify fun s => { s with loops := s.loops.tail }) := Quiet.note fun _ => ⟨rfl, rfl, rfl⟩
  have enter : Quiet (modify fun s => { s with loops := label :: s.loops }) := Quiet.note fun _ => ⟨rfl, rfl, rfl⟩
  exact fun s => .bind fun _ s' _ => (h s').last fun _ => leave

theorem outsideLoops {step : AnalysisM Unit} (h : Covers t D but l step) : Covers t D but l (outsideLoops step) := by
  have enter (loops : List String) : Quiet (modify fun s => { s with loops }) := Quiet.note fun _ => ⟨rfl, rfl, rfl⟩
  exact fun s => .get_bind (.bind fun _ s' _ => (h s').last fun _ => enter _)

end Covers

/-! ## Binding -/

section Binding

variable {t : Tree} {D but : List NodeId} {l : List NodeId}

theorem reportRedeclared_covers {s : Analysis} {name : String} {span : Span} {prev : SymbolId}
    (h : ∃ sym, s.result.scopes.symbol? prev = some sym) : CoversFrom t D but s [] (reportRedeclared name span prev) := by
  obtain ⟨sym, hsym⟩ := h
  intro hr
  have hcovers : CoversFrom t D but s [] (reportWith (.redeclared name) span
      (if sym.span = span then [] else [{ span := sym.span, text := "previous declaration here" }])) := Quiet.coversFrom _
  obtain ⟨u, s', hreport, rest⟩ := hcovers hr
  exact ⟨u, s', (bind_apply (symbol_ok hsym)).trans hreport, rest⟩

theorem bindIn_apply (scope : ScopeId) (sym : Symbol) (s : Analysis) :
    bindIn scope sym s = (match s.result.scopes.declare scope sym with
    | .ok (id, scopes) => modifyScopes (fun _ => scopes) >>= fun _ => pure (.ok id)
    | .error prev => pure (.error prev) : AnalysisM (Except SymbolId SymbolId)) s := rfl

/-- A name is bound, or it is taken by a symbol of the table. -/
theorem bindIn_covers {s : Analysis} {scope : ScopeId} {sym : Symbol} {f : Except SymbolId SymbolId → AnalysisM β}
    (hok : ∀ id, Covers t D but l (f (.ok id)))
    (herr : ∀ prev s, (∃ p, s.result.scopes.symbol? prev = some p) → CoversFrom t D but s l (f (.error prev))) :
    CoversFrom t D but s l (bindIn scope sym >>= f) := by
  intro hr
  have happly := bindIn_apply scope sym s
  cases hdecl : s.result.scopes.declare scope sym with
  | error prev =>
    rw [hdecl] at happly
    obtain ⟨b, s', hm, rest⟩ := herr prev s (hr.named.declare_error hdecl) hr
    exact ⟨b, s', (bind_apply happly).trans hm, rest⟩
  | ok r =>
    rw [hdecl] at happly
    have hrest : Rests s { s with result := { s.result with scopes := r.2 } } :=
      ⟨fun _ ht => ht, fun hn => hn.declare hdecl, rfl, rfl, rfl, rfl⟩
    obtain ⟨b, s', hm, hr', hp, hs⟩ := hok r.1 _ (hrest.ready hr)
    exact ⟨b, s', (bind_apply happly).trans hm, hr', (hrest.passes but).trans hp, hs⟩

theorem bindSymbol_covers {s : Analysis} {sym : Symbol} {f : Except SymbolId SymbolId → AnalysisM β}
    (hok : ∀ id, Covers t D but l (f (.ok id)))
    (herr : ∀ prev s, (∃ p, s.result.scopes.symbol? prev = some p) → CoversFrom t D but s l (f (.error prev))) :
    CoversFrom t D but s l (bindSymbol sym >>= f) := by
  unfold bindSymbol
  rw [bind_assoc]
  exact .get_bind (bindIn_covers hok herr)

theorem declareLocal_covers (owner : NodeId) (name : String) : Covers t D but [] (declareLocal owner name) := by
  intro s
  unfold declareLocal
  refine .bind fun _ s₁ _ => .bind fun _ s₂ _ => .bind fun _ s₃ _ => .bind fun _ s₄ _ => .ite (fun _ => ?_) fun _ => ?_
  all_goals
    refine .bind fun _ s₅ _ => bindSymbol_covers (fun id s => .pure _) fun prev s hprev => ?_
    exact (reportRedeclared_covers hprev).last fun _ => inferInstance

end Binding

end Analysis

end TreeCompiler
