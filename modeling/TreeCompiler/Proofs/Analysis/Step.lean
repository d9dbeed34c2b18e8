import TreeCompiler.Analysis.State
import TreeCompiler.Proofs.Scope.Layout
import TreeCompiler.Proofs.Tree.Refine
import TreeCompiler.Proofs.Types.Growth

/-!
# What an analysis can do to its state

* `Step` : one change of the state. Reports and buffers are changes of their own, and a buffer is committed only when it
  holds no error; edits refine the tree, the scope table grows and stays laid, and types are only added. The default values
  of a struct type and the variables that are initialized early are noted by changes of their own;
* `Steps` : any number of changes; `Sound` : the invariant they keep;
* `WalksFrom s m`, `Walks m` : the computation `m`, started in the sound state `s` or in any sound state, makes only such
  changes, whether it succeeds or fails. Computations that walk are closed under the control structures of the monad.
-/

namespace TreeCompiler

/-! ## Default values -/

/-- The node `f` declares a field and its default value. -/
def Tree.DeclaresField (t : Tree) (f : NodeId) (part : TyField × NodeId) : Prop :=
  ∃ n, t.get? f = some n ∧ n.name = part.1.name ∧ (n.kind ∉ operationKinds → t.Same n.b part.2)

theorem Tree.Refines.declaresField {t t' : Tree} (h : t.Refines t') {f : NodeId} {part : TyField × NodeId}
    (hf : t.DeclaresField f part) : t'.DeclaresField f part := by
  obtain ⟨n, hn, hname, hsame⟩ := hf
  obtain ⟨n', hn', g⟩ := h.nodes f n hn
  refine ⟨n', hn', g.name.trans hname, fun hk => ?_⟩
  have hkind := g.kind_eq' hk
  exact (h.slots f n n' hn hn' (hkind ▸ hk)).2.trans (h.same (hsame (hkind ▸ hk)))

namespace AnalysisResult

/-- A struct type of the tree has the structure `t` and declares the default values `ds`. -/
def WritesDefaults (r : AnalysisResult) (t : TypeId) (ds : List NodeId) : Prop :=
  ∃ e n parts, r.tree.get? e = some n ∧ n.kind = .typeStruct ∧ List.Forall₂ r.tree.DeclaresField n.list parts ∧
    r.types.find? { shape := .struct (parts.map (·.1)) } = some t ∧ ds = parts.map (·.2)

/-- The type `t` is another type with a new name, and `ds` are the default values of its structure. -/
def InheritsDefaults (r : AnalysisResult) (t : TypeId) (ds : List NodeId) : Prop :=
  ∃ base ty sym name args, sym ≠ 0 ∧ r.types.lookup? base = some ty ∧
    (ty.kind ≠ .invalid → r.types.find? { ty with sym, name, args } = some t) ∧
    (r.types.underlying? base).bind r.fieldDefaults.get? = some ds

end AnalysisResult

/-! ## What is known of functions -/

/-- What is known of a function is about one node, and its return statements are only added. -/
structure FuncInfo.Grows (i i' : FuncInfo) : Prop where
  node : i'.node = i.node
  returns : i.returns <+: i'.returns

namespace FuncInfo.Grows

theorem refl (i : FuncInfo) : i.Grows i := ⟨rfl, List.prefix_refl _⟩

theorem trans {a b c : FuncInfo} (h₁ : a.Grows b) (h₂ : b.Grows c) : a.Grows c :=
  ⟨h₂.node.trans h₁.node, h₁.returns.trans h₂.returns⟩

end FuncInfo.Grows

namespace Analysis

open ScopeTable (Laid Keeps KeepsBut Deferred)

/-! ## Functions -/

/-- The function `fn` is declared by the function node `id`. -/
def Declares (fn id : Nat) (s : Analysis) : Prop :=
  ∃ sym, s.result.scopes.symbol? fn = some sym ∧ sym.kind = .function ∧ sym.decl = id

/-- What can come to be known of the function `fn`. Only a function with a return statement or a declared result can have
another result than void. -/
inductive Learns (s : Analysis) (fn : SymbolId) : FuncInfo → Prop
  | body {id : NodeId} (h : Declares fn id s) (new : s.funcs.get? fn = none) : Learns s fn { node := id }
  | returns {info : FuncInfo} {r : NodeId} {n : Node} (h : s.funcs.get? fn = some info)
      (hr : s.result.tree.get? r = some n) (hk : n.kind = .returnStmt) :
      Learns s fn { info with returns := info.returns ++ [r] }
  | params {info : FuncInfo} (h : s.funcs.get? fn = some info) (params : List TypeId) (variadic : Bool) :
      Learns s fn { info with params, variadic, signed := true }
  | result {info : FuncInfo} (h : s.funcs.get? fn = some info) (t : TypeId)
      (ht : ∀ n, s.result.tree.get? info.node = some n → n.a = 0 → info.returns = [] → t = TypeTable.void) :
      Learns s fn { info with result := t }

/-! ## Steps -/

structure Sound (s : Analysis) : Prop where
  laid : Laid s.result.tree s.result.scopes
  scope : s.scope ≤ s.result.scopes.scopes.size
  infos : ∀ fn info, s.funcs.get? fn = some info → Declares fn info.node s

/-- What has steps of its own. -/
structure Kept (s s' : Analysis) : Prop where
  types : s'.result.types = s.result.types
  defaults : s'.result.fieldDefaults = s.result.fieldDefaults
  statics : s'.result.statics = s.result.statics
  funcs : s'.funcs = s.funcs

inductive Step : Analysis → Analysis → Prop
  | report (s : Analysis) (d : Diagnostic) : Step s { s with sink := s.sink.report d }
  | openBuffer (s : Analysis) : Step s { s with sink := s.sink.openBuffer }
  | commit (s : Analysis) (h : s.sink.heldErrors = false) : Step s { s with sink := s.sink.commit }
  | discard (s : Analysis) : Step s { s with sink := s.sink.discard }
  | enter (s : Analysis) (scope : ScopeId) (h : scope ≤ s.result.scopes.scopes.size) : Step s { s with scope }
  | edit {s s' : Analysis} (sink : s'.sink = s.sink) (scope : s'.scope = s.scope)
      (scopes : s'.result.scopes = s.result.scopes) (kept : Kept s s')
      (h : s.result.tree.Refines s'.result.tree) : Step s s'
  | arrange {s s' : Analysis} (sink : s'.sink = s.sink) (scope : s'.scope = s.scope)
      (tree : s'.result.tree = s.result.tree) (kept : Kept s s')
      (h : Keeps s.result.tree s.result.scopes s'.result.scopes) : Step s s'
  | intern (s : Analysis) (types : TypeTable) (h : s.result.types.Grows types) :
      Step s { s with result := { s.result with types } }
  | default (s : Analysis) (t : TypeId) (ds : List NodeId)
      (h : s.result.fieldDefaults.get? t = none ∧ s.result.WritesDefaults t ds ∨ s.result.InheritsDefaults t ds) :
      Step s { s with result := { s.result with fieldDefaults := s.result.fieldDefaults.insert t ds } }
  | defer {s s' : Analysis} (st : StaticInit) (sink : s'.sink = s.sink) (scope : s'.scope = s.scope)
      (tree : s'.result.tree = s.result.tree) (types : s'.result.types = s.result.types)
      (defaults : s'.result.fieldDefaults = s.result.fieldDefaults) (funcs : s'.funcs = s.funcs)
      (statics : s'.result.statics = s.result.statics ++ [st])
      (h : KeepsBut st.symbol s.result.tree s.result.scopes s'.result.scopes)
      (fresh : ∀ sym, s.result.scopes.symbol? st.symbol = some sym → ¬Deferred s.result.scopes sym)
      (of : ∃ sym n, s'.result.scopes.symbol? st.symbol = some sym ∧ Deferred s'.result.scopes sym ∧
        s.result.tree.get? sym.decl = some n ∧ n.b = st.init) : Step s s'
  | learn {s s' : Analysis} (fn : SymbolId) (info : FuncInfo) (sink : s'.sink = s.sink) (scope : s'.scope = s.scope)
      (result : s'.result = s.result) (funcs : s'.funcs = s.funcs.insert fn info) (h : Learns s fn info) : Step s s'

abbrev Steps : Analysis → Analysis → Prop := Relation.ReflTransGen Step

theorem Step.refines {s s' : Analysis} (h : Step s s') : s.result.tree.Refines s'.result.tree := by
  cases h with
  | edit _ _ _ _ h => exact h
  | arrange _ _ tree _ _ => rw [tree]; exact .refl _
  | defer _ _ _ tree _ _ _ _ _ _ _ => rw [tree]; exact .refl _
  | learn _ _ _ _ result _ _ => rw [result]; exact .refl _
  | _ => exact .refl _

theorem Step.tables {s s' : Analysis} (h : Step s s') : s.result.scopes.Grows s'.result.scopes := by
  cases h with
  | edit _ _ scopes _ _ => rw [scopes]; exact .refl _
  | arrange _ _ _ _ h => exact h.grows
  | defer _ _ _ _ _ _ _ _ h _ _ => exact h.grows
  | learn _ _ _ _ result _ _ => rw [result]; exact .refl _
  | _ => exact .refl _

theorem Step.types {s s' : Analysis} (h : Step s s') : s.result.types.Grows s'.result.types := by
  cases h with
  | edit _ _ _ kept _ => rw [kept.types]; exact .refl _
  | arrange _ _ _ kept _ => rw [kept.types]; exact .refl _
  | intern types h => exact h
  | defer _ _ _ _ types _ _ _ _ _ _ => rw [types]; exact .refl _
  | learn _ _ _ _ result _ _ => rw [result]; exact .refl _
  | _ => exact .refl _

theorem Declares.mono {fn id : Nat} {s s' : Analysis} (hg : s.result.scopes.Grows s'.result.scopes)
    (h : Declares fn id s) : Declares fn id s' := by
  obtain ⟨sym, hsym, hk, hd⟩ := h
  obtain ⟨sym', hsym', g⟩ := hg.symbols fn sym hsym
  exact ⟨sym', hsym', g.kind.trans hk, g.decl.trans hd⟩

/-- Nothing is known of a function that is not in the table. -/
theorem Sound.unknown {s : Analysis} {fn : SymbolId} (hs : Sound s) (h : s.result.scopes.symbol? fn = none) :
    s.funcs.get? fn = none := by
  cases hi : s.funcs.get? fn with
  | none => rfl
  | some info =>
    obtain ⟨sym, hsym, -⟩ := hs.infos fn info hi
    cases h.symm.trans hsym

theorem Learns.declares {s : Analysis} {fn : SymbolId} {info : FuncInfo} (h : Learns s fn info) (hs : Sound s) :
    Declares fn info.node s := by
  cases h with
  | body h _ => exact h
  | @returns info _ _ h _ _ => exact hs.infos fn info h
  | @params info h _ _ => exact hs.infos fn info h
  | @result info h _ _ => exact hs.infos fn info h

theorem Step.infos {s s' : Analysis} (h : Step s s') (hs : Sound s) :
    ∀ fn info, s'.funcs.get? fn = some info → Declares fn info.node s' := by
  have same (funcs : s'.funcs = s.funcs) (fn : SymbolId) (info : FuncInfo) (hi : s'.funcs.get? fn = some info) :
      Declares fn info.node s' := (hs.infos fn info (funcs ▸ hi)).mono h.tables
  cases id h with
  | edit _ _ _ kept _ => exact same kept.funcs
  | arrange _ _ _ kept _ => exact same kept.funcs
  | defer _ _ _ _ _ _ funcs _ _ _ _ => exact same funcs
  | learn fn info _ _ _ funcs hl =>
    intro fn' info' hi
    rw [funcs, IdMap.get?_insert] at hi
    split at hi
    · subst fn'
      cases hi
      exact (hl.declares hs).mono h.tables
    · exact (hs.infos fn' info' hi).mono h.tables
  | _ => exact same rfl

theorem Learns.grows {s : Analysis} {fn : SymbolId} {info info' : FuncInfo} (h : Learns s fn info')
    (hi : s.funcs.get? fn = some info) : info.Grows info' := by
  cases h with
  | body _ new => cases new.symm.trans hi
  | returns h _ _ =>
    cases h.symm.trans hi
    exact ⟨rfl, List.prefix_append ..⟩
  | params h _ _ =>
    cases h.symm.trans hi
    exact ⟨rfl, List.prefix_refl _⟩
  | result h _ _ =>
    cases h.symm.trans hi
    exact ⟨rfl, List.prefix_refl _⟩

theorem Step.grows {s s' : Analysis} (h : Step s s') {fn : SymbolId} {info : FuncInfo} (hi : s.funcs.get? fn = some info) :
    ∃ info', s'.funcs.get? fn = some info' ∧ info.Grows info' := by
  have same (funcs : s'.funcs = s.funcs) : ∃ info', s'.funcs.get? fn = some info' ∧ info.Grows info' :=
    ⟨info, funcs ▸ hi, .refl info⟩
  cases h with
  | edit _ _ _ kept _ => exact same kept.funcs
  | arrange _ _ _ kept _ => exact same kept.funcs
  | defer _ _ _ _ _ _ funcs _ _ _ _ => exact same funcs
  | learn fn' info' _ _ _ funcs hl =>
    rw [funcs, IdMap.get?_insert]
    split
    · subst fn'
      exact ⟨info', rfl, hl.grows hi⟩
    · exact ⟨info, hi, .refl info⟩
  | _ => exact same rfl

theorem Step.sound {s s' : Analysis} (h : Step s s') (hs : Sound s) : Sound s' := by
  have infos := h.infos hs
  have arranged (scope : s'.scope = s.scope) (tree : s'.result.tree = s.result.tree)
      (hl : Laid s.result.tree s'.result.scopes) : Sound s' :=
    ⟨by rw [tree]; exact hl, by rw [scope]; exact Nat.le_trans hs.scope (ScopeTable.grows_size h.tables), infos⟩
  cases h with
  | enter scope h => exact ⟨hs.laid, h, infos⟩
  | edit _ scope scopes _ h =>
    exact ⟨by rw [scopes]; exact hs.laid.edit h.grows, by rw [scope, scopes]; exact hs.scope, infos⟩
  | arrange _ scope tree _ h => exact arranged scope tree (h.laid hs.laid)
  | defer _ _ scope tree _ _ _ _ h _ _ => exact arranged scope tree (h.laid hs.laid)
  | learn _ _ _ scope result _ _ =>
    exact ⟨by rw [result]; exact hs.laid, by rw [scope, result]; exact hs.scope, infos⟩
  | _ => exact ⟨hs.laid, hs.scope, infos⟩

namespace Steps

variable {s s' : Analysis}

theorem refines (h : Steps s s') : s.result.tree.Refines s'.result.tree := by
  induction h with
  | refl => exact .refl _
  | tail _ h ih => exact ih.trans h.refines

theorem trees (h : Steps s s') : s.result.tree.Grows s'.result.tree := h.refines.grows

theorem tables (h : Steps s s') : s.result.scopes.Grows s'.result.scopes := by
  induction h with
  | refl => exact .refl _
  | tail _ h ih => exact ih.trans h.tables

theorem types (h : Steps s s') : s.result.types.Grows s'.result.types := by
  induction h with
  | refl => exact .refl _
  | tail _ h ih => exact ih.trans h.types

theorem sound (h : Steps s s') (hs : Sound s) : Sound s' := by
  induction h with
  | refl => exact hs
  | tail _ h ih => exact h.sound ih

theorem infos (h : Steps s s') {fn : SymbolId} {info : FuncInfo} (hi : s.funcs.get? fn = some info) :
    ∃ info', s'.funcs.get? fn = some info' ∧ info.Grows info' := by
  induction h with
  | refl => exact ⟨info, hi, .refl info⟩
  | tail _ h ih =>
    obtain ⟨i, hi, g⟩ := ih
    obtain ⟨i', hi', g'⟩ := h.grows hi
    exact ⟨i', hi', g.trans g'⟩

theorem single (h : Step s s') : Steps s s' := Relation.ReflTransGen.single h

theorem trans {a b c : Analysis} (h₁ : Steps a b) (h₂ : Steps b c) : Steps a c := Relation.ReflTransGen.trans h₁ h₂

end Steps

/-! ## Computations -/

/-- The state that a computation leaves behind. -/
def after {α : Type} (m : AnalysisM α) (s : Analysis) : Analysis :=
  match m s with
  | .ok _ s' => s'
  | .error _ s' => s'

def WalksFrom {α : Type} (s : Analysis) (m : AnalysisM α) : Prop := Sound s → Steps s (after m s)

class Walks {α : Type} (m : AnalysisM α) : Prop where
  walks : ∀ s, WalksFrom s m

variable {α β : Type}

theorem bind_ok {x : AnalysisM α} {f : α → AnalysisM β} {b : β} {s s' : Analysis} (h : (x >>= f) s = .ok b s') :
    ∃ a s₁, x s = .ok a s₁ ∧ f a s₁ = .ok b s' := by
  simp only [Bind.bind, EStateM.bind] at h
  cases hx : x s with
  | ok a s₁ =>
    rw [hx] at h
    exact ⟨a, s₁, rfl, h⟩
  | error e s₁ =>
    rw [hx] at h
    cases h

theorem WalksFrom.of_ok {s s' : Analysis} {m : AnalysisM α} {a : α} (h : WalksFrom s m) (hs : Sound s)
    (hm : m s = .ok a s') : Steps s s' := by
  have := h hs
  rwa [after, hm] at this

namespace WalksFrom

variable {s : Analysis}

theorem bind {x : AnalysisM α} {f : α → AnalysisM β} (hx : WalksFrom s x)
    (hf : ∀ a s', x s = .ok a s' → Steps s s' → WalksFrom s' (f a)) : WalksFrom s (x >>= f) := by
  intro hs
  have h := hx hs
  unfold after at h ⊢
  simp only [Bind.bind, EStateM.bind]
  cases hxs : x s with
  | ok a s' =>
    rw [hxs] at h
    exact h.trans (hf a s' hxs h (h.sound hs))
  | error e s' =>
    rw [hxs] at h
    exact h

/-- After reading the state. -/
theorem get_bind {f : Analysis → AnalysisM β} (h : WalksFrom s (f s)) : WalksFrom s (get >>= f) := h

theorem node_bind_eq (id : NodeId) (f : Node → AnalysisM β) : (node id >>= f) = (do
    let s ← get
    (match s.result.tree.get? id with | some n => Pure.pure n | none => internal id .missingNode) >>= f) := rfl

theorem node_bind {id : NodeId} {f : Node → AnalysisM β}
    (h : ∀ n, s.result.tree.get? id = some n → WalksFrom s (f n)) : WalksFrom s (node id >>= f) := by
  rw [node_bind_eq]
  refine get_bind ?_
  cases hn : s.result.tree.get? id with
  | none => exact fun _ => .refl
  | some n => exact h n hn

theorem of_sound {m : AnalysisM α} (h : Sound s → WalksFrom s m) : WalksFrom s m := fun hs => h hs hs

theorem ite {c : Prop} [Decidable c] {x y : AnalysisM α} (hx : c → WalksFrom s x) (hy : ¬c → WalksFrom s y) :
    WalksFrom s (if c then x else y) := by
  split
  · exact hx ‹_›
  · exact hy ‹_›

theorem pure (a : α) : WalksFrom s (pure a) := fun _ => .refl

theorem modify {f : Analysis → Analysis} (h : Sound s → Steps s (f s)) : WalksFrom s (modify f) := h

theorem modifyGet {f : Analysis → α × Analysis} (h : Sound s → Steps s (f s).2) : WalksFrom s (modifyGet f) := h

end WalksFrom

/-- The computation `m`, run in the state `s` that was reached from the sound state `s₀`, completes a walk from `s₀`. -/
def WalksVia {α : Type} (s₀ s : Analysis) (m : AnalysisM α) : Prop := Sound s₀ → Steps s₀ (after m s)

namespace WalksVia

variable {s₀ s s₁ : Analysis}

/-- One more computation on the way. -/
theorem bind {x : AnalysisM α} {f : α → AnalysisM β} {a : α} (hx : x s = .ok a s₁) (hf : WalksVia s₀ s₁ (f a)) :
    WalksVia s₀ s (x >>= f) := by
  intro hs
  have h := hf hs
  unfold after at h ⊢
  simp only [Bind.bind, EStateM.bind, hx]
  exact h

/-- The way so far is a step. -/
theorem land {m : AnalysisM α} (h : Sound s₀ → Step s₀ s) (hm : WalksFrom s m) : WalksVia s₀ s m := by
  intro hs
  have hstep := Steps.single (h hs)
  exact hstep.trans (hm (hstep.sound hs))

end WalksVia

theorem WalksFrom.inst {s : Analysis} {m : AnalysisM α} [h : Walks m] : WalksFrom s m := h.walks s

namespace Walks

instance (a : α) : Walks (pure a : AnalysisM α) := ⟨fun _ => .pure a⟩

instance (e : AnalysisFailure) : Walks (throw e : AnalysisM α) := ⟨fun _ _ => .refl⟩

instance : Walks (get : AnalysisM Analysis) := ⟨fun _ _ => .refl⟩

theorem seq {x : AnalysisM α} {f : α → AnalysisM β} (hx : Walks x) (hf : ∀ a, Walks (f a)) : Walks (x >>= f) :=
  ⟨fun s => .bind (hx.walks s) fun a s' _ _ => (hf a).walks s'⟩

/-- The first part is found by instance. -/
theorem bind {x : AnalysisM α} {f : α → AnalysisM β} [hx : Walks x] (hf : ∀ a, Walks (f a)) : Walks (x >>= f) :=
  seq hx hf

instance {x : AnalysisM α} {f : α → AnalysisM β} [hx : Walks x] [hf : ∀ a, Walks (f a)] : Walks (x >>= f) := seq hx hf

instance {x : AnalysisM α} {f : α → β} [hx : Walks x] : Walks (f <$> x) :=
  seq hx fun a => inferInstanceAs (Walks (pure (f a)))

instance {x : AnalysisM α} [hx : Walks x] : Walks (discard x) :=
  inferInstanceAs (Walks ((fun _ => PUnit.unit) <$> x))

theorem ite {c : Prop} [Decidable c] {x y : AnalysisM α} (hx : Walks x) (hy : Walks y) :
    Walks (if c then x else y) := by
  split
  · exact hx
  · exact hy

instance {c : Prop} [Decidable c] {x y : AnalysisM α} [hx : Walks x] [hy : Walks y] : Walks (if c then x else y) :=
  ite hx hy

/-! ### Lists -/

theorem forM {f : α → AnalysisM PUnit} (l : List α) (h : ∀ a, Walks (f a)) : Walks (l.forM f) := by
  induction l with
  | nil => exact inferInstanceAs (Walks (pure _))
  | cons a l ih => exact seq (h a) fun _ => ih

instance (l : List α) (f : α → AnalysisM PUnit) [h : ∀ a, Walks (f a)] : Walks (l.forM f) := forM l h

theorem mapM {f : α → AnalysisM β} (l : List α) (h : ∀ a, Walks (f a)) : Walks (l.mapM f) := by
  induction l with
  | nil => exact inferInstanceAs (Walks (pure _))
  | cons a l ih =>
    rw [List.mapM_cons]
    exact seq (h a) fun _ => seq ih fun _ => inferInstance

instance (l : List α) (f : α → AnalysisM β) [h : ∀ a, Walks (f a)] : Walks (l.mapM f) := mapM l h

theorem foldlM {f : β → α → AnalysisM β} (l : List α) (b : β) (h : ∀ b a, Walks (f b a)) : Walks (l.foldlM f b) := by
  induction l generalizing b with
  | nil => exact inferInstanceAs (Walks (pure _))
  | cons a l ih => exact seq (h b a) ih

instance (l : List α) (f : β → α → AnalysisM β) (b : β) [h : ∀ b a, Walks (f b a)] : Walks (l.foldlM f b) :=
  foldlM l b h

theorem allM {f : α → AnalysisM Bool} (l : List α) (h : ∀ a, Walks (f a)) : Walks (l.allM f) := by
  induction l with
  | nil => exact inferInstanceAs (Walks (pure _))
  | cons a l ih =>
    refine seq (h a) fun b => ?_
    cases b
    · exact inferInstanceAs (Walks (pure _))
    · exact ih

instance (l : List α) (f : α → AnalysisM Bool) [h : ∀ a, Walks (f a)] : Walks (l.allM f) := allM l h

theorem forIn {f : α → β → AnalysisM (ForInStep β)} (l : List α) (b : β) (h : ∀ a b, Walks (f a b)) :
    Walks (forIn l b f) := by
  induction l generalizing b with
  | nil => exact inferInstanceAs (Walks (pure _))
  | cons a l ih =>
    rw [List.forIn_cons]
    refine seq (h a b) fun r => ?_
    cases r
    · exact inferInstanceAs (Walks (pure _))
    · exact ih _

instance (l : List α) (f : α → β → AnalysisM (ForInStep β)) (b : β) [h : ∀ a b, Walks (f a b)] :
    Walks (ForIn.forIn l b f) := forIn l b h

end Walks

/-! ## What computations return -/

/-- The computation `m`, started in the sound state `s`, returns only what `Q` holds of in the state it is returned in. -/
def Ensures {α : Type} (s : Analysis) (m : AnalysisM α) (Q : α → Analysis → Prop) : Prop :=
  Sound s → ∀ a s', m s = .ok a s' → Q a s'

namespace Ensures

variable {s : Analysis} {Q : β → Analysis → Prop}

theorem pure {b : β} (h : Q b s) : Ensures s (pure b) Q := by
  intro _ _ _ he
  cases he
  exact h

theorem seq {x : AnalysisM α} {f : α → AnalysisM β} (hx : WalksFrom s x)
    (hf : ∀ a s₁, x s = .ok a s₁ → Steps s s₁ → Ensures s₁ (f a) Q) : Ensures s (x >>= f) Q := by
  intro hs b s' h
  obtain ⟨a, s₁, h₁, h₂⟩ := bind_ok h
  have hw := hx.of_ok hs h₁
  exact hf a s₁ h₁ hw (hw.sound hs) b s' h₂

/-- The first part is found by instance. -/
theorem bind {x : AnalysisM α} {f : α → AnalysisM β} [Walks x]
    (hf : ∀ a s₁, x s = .ok a s₁ → Steps s s₁ → Ensures s₁ (f a) Q) : Ensures s (x >>= f) Q := seq .inst hf

theorem ite {c : Prop} [Decidable c] {x y : AnalysisM β} (hx : c → Ensures s x Q) (hy : ¬c → Ensures s y Q) :
    Ensures s (if c then x else y) Q := by
  split
  · exact hx ‹_›
  · exact hy ‹_›

end Ensures

/-! ## Computations that rely on something lasting -/

/-- What holds from some state on. -/
def Lasting (J : Analysis → Prop) : Prop := ∀ s s', Sound s → Steps s s' → J s → J s'

def WalksUnder (J : Analysis → Prop) (m : AnalysisM α) : Prop := ∀ s, J s → WalksFrom s m

namespace WalksUnder

variable {J : Analysis → Prop}

theorem of_walks {m : AnalysisM α} [h : Walks m] : WalksUnder J m := fun s _ => h.walks s

theorem seq {x : AnalysisM α} {f : α → AnalysisM β} (hJ : Lasting J) (hx : WalksUnder J x)
    (hf : ∀ a, WalksUnder J (f a)) : WalksUnder J (x >>= f) :=
  fun s hs hsound => WalksFrom.bind (hx s hs) (fun a s' _ h => hf a s' (hJ s s' hsound h hs)) hsound

/-- The first part is found by instance. -/
theorem bind {x : AnalysisM α} {f : α → AnalysisM β} [Walks x] (hJ : Lasting J) (hf : ∀ a, WalksUnder J (f a)) :
    WalksUnder J (x >>= f) := seq hJ of_walks hf

/-- What the first part returns is known. -/
theorem bind_ensures {x : AnalysisM α} {f : α → AnalysisM β} [Walks x] {Q : α → Prop} (hJ : Lasting J)
    (hx : ∀ s, Ensures s x fun a _ => Q a) (hf : ∀ a, Q a → WalksUnder J (f a)) : WalksUnder J (x >>= f) :=
  fun s hs hsound => WalksFrom.bind .inst
    (fun a s' h hsteps => hf a (hx s hsound a s' h) s' (hJ s s' hsound hsteps hs)) hsound

theorem ite {c : Prop} [Decidable c] {x y : AnalysisM α} (hx : c → WalksUnder J x) (hy : ¬c → WalksUnder J y) :
    WalksUnder J (if c then x else y) := by
  split
  · exact hx ‹_›
  · exact hy ‹_›

theorem forIn (hJ : Lasting J) {f : α → β → AnalysisM (ForInStep β)} (l : List α) (b : β)
    (h : ∀ a ∈ l, ∀ b, WalksUnder J (f a b)) : WalksUnder J (forIn l b f) := by
  induction l generalizing b with
  | nil => exact fun s _ => .pure _
  | cons a l ih =>
    rw [List.forIn_cons]
    refine seq hJ (h a (List.mem_cons_self ..) b) fun r => ?_
    cases r with
    | done b => exact fun s _ => .pure _
    | yield b => exact ih b fun c hc => h c (List.mem_cons_of_mem _ hc)

end WalksUnder

/-! ## Primitive changes -/

theorem steps_note {s s' : Analysis} (sink : s'.sink = s.sink) (scope : s'.scope = s.scope)
    (tree : s'.result.tree = s.result.tree) (scopes : s'.result.scopes = s.result.scopes) (kept : Kept s s') : Steps s s' :=
  .single (.edit sink scope scopes kept (by rw [tree]; exact .refl _))

namespace Walks

/-- A change of what is noted besides the result. -/
theorem note {f : Analysis → Analysis}
    (h : ∀ s, (f s).sink = s.sink ∧ (f s).scope = s.scope ∧ (f s).result = s.result ∧ (f s).funcs = s.funcs) :
    Walks (modify f) := by
  refine ⟨fun s => .modify fun _ => ?_⟩
  obtain ⟨hsink, hscope, hresult, hfuncs⟩ := h s
  exact steps_note hsink hscope (by rw [hresult]) (by rw [hresult]) ⟨by rw [hresult], by rw [hresult], by rw [hresult], hfuncs⟩

/-- A change of the results that has no step of its own. -/
theorem noteResult {f : AnalysisResult → AnalysisResult}
    (h : ∀ r, (f r).tree = r.tree ∧ (f r).scopes = r.scopes ∧ (f r).types = r.types ∧ (f r).fieldDefaults = r.fieldDefaults ∧
      (f r).statics = r.statics) : Walks (modifyResult f) := by
  refine ⟨fun s => .modify fun _ => ?_⟩
  obtain ⟨htree, hscopes, htypes, hdefaults, hstatics⟩ := h s.result
  exact steps_note rfl rfl htree hscopes ⟨htypes, hdefaults, hstatics, rfl⟩

theorem withTypes {f : TypeTable → α × TypeTable} (h : ∀ t : TypeTable, t.Grows (f t).2) : Walks (withTypes f) :=
  ⟨fun s => .modifyGet fun _ => .single (.intern s _ (h s.result.types))⟩

instance (elem : TypeId) : Walks (Analysis.withTypes (·.array elem)) := withTypes fun t => t.grows_intern _

instance (key elem : TypeId) : Walks (Analysis.withTypes (·.map key elem)) := withTypes fun t => t.grows_intern _

instance (elems : List TypeId) : Walks (Analysis.withTypes (·.tuple elems)) := withTypes fun t => t.grows_intern _

instance (params : List TypeId) (variadic : Bool) (result : TypeId) :
    Walks (Analysis.withTypes (·.func params variadic result)) := withTypes fun t => t.grows_intern _

instance (fields : List TyField) : Walks (Analysis.withTypes (·.struct fields)) := withTypes fun t => t.grows_intern _

instance (variants : List TyField) : Walks (Analysis.withTypes (·.union variants)) := withTypes fun t => t.grows_intern _

instance (name : String) (index : Nat) : Walks (Analysis.withTypes (·.param name index)) :=
  withTypes fun t => t.grows_intern _

instance (source target : TypeId) : Walks (Analysis.withTypes (·.explicitCast source target)) :=
  withTypes fun t => t.grows_explicitCast source target

theorem modifyScopes {f : ScopeTable → ScopeTable} (h : ∀ tree tab, Keeps tree tab (f tab)) : Walks (modifyScopes f) :=
  ⟨fun s => .modify fun _ => .single (.arrange rfl rfl rfl ⟨rfl, rfl, rfl, rfl⟩ (h s.result.tree s.result.scopes))⟩

theorem withScopes {f : ScopeTable → α × ScopeTable} (h : ∀ tree tab, Keeps tree tab (f tab).2) :
    Walks (withScopes f) :=
  ⟨fun s => .modifyGet fun _ => .single (.arrange rfl rfl rfl ⟨rfl, rfl, rfl, rfl⟩ (h s.result.tree s.result.scopes))⟩

/-- An edit that leaves the child slots alone. -/
theorem modifyNode (id : NodeId) {f : Node → Node} (h : ∀ n : Node, n.Refines (f n) ∧ (f n).a = n.a ∧ (f n).b = n.b) :
    Walks (modifyNode id f) :=
  ⟨fun _ => .modify fun _ => .single (.edit rfl rfl rfl ⟨rfl, rfl, rfl, rfl⟩ (Tree.refines_modify_same fun n _ => h n))⟩

instance : Walks tree := by unfold tree; infer_instance

instance : Walks types := by unfold types; infer_instance

instance : Walks scopes := by unfold scopes; infer_instance

instance (id : NodeId) (cause : InternalCause) : Walks (internal id cause : AnalysisM α) := by
  unfold internal; infer_instance

instance (id : NodeId) : Walks (node id) := by
  unfold node
  refine bind fun t => ?_
  split <;> infer_instance

instance (n : Node) : Walks (addNode n) :=
  ⟨fun s => .modifyGet fun _ =>
    .single (.edit rfl rfl rfl ⟨rfl, rfl, rfl, rfl⟩ (.of_extends (Tree.extends_push s.result.tree n)))⟩

instance (id : NodeId) : Walks (spanOf id) := by unfold spanOf; infer_instance

instance (id : SymbolId) : Walks (symbol id) := by
  unfold symbol
  refine bind fun t => ?_
  split <;> infer_instance

instance (id : ScopeId) : Walks (scopeInfo id) := by
  unfold scopeInfo
  refine bind fun t => ?_
  split <;> infer_instance

instance (id : SymbolId) (t : TypeId) : Walks (setSymbolType id t) :=
  modifyScopes fun _ _ => ScopeTable.keeps_modifySymbol fun _ => ⟨⟨rfl, rfl, rfl, rfl, rfl, fun _ => rfl⟩, rfl, rfl⟩

instance (id : SymbolId) : Walks (symbolName id) := by unfold symbolName; infer_instance

instance (s : String) : Walks (internName s) := withScopes fun _ _ => ScopeTable.keeps_intern s

instance (id : TypeId) : Walks (typeInfo id) := by
  unfold typeInfo
  refine bind fun t => ?_
  split <;> infer_instance

instance (id : TypeId) : Walks (bareType id) := by unfold bareType; infer_instance

instance (id : TypeId) : Walks (typeText id) := by unfold typeText; infer_instance

instance (ids : List TypeId) : Walks (typeTexts ids) := by unfold typeTexts; infer_instance

instance (t : TypeId) : Walks (isResolved t) := by unfold isResolved; infer_instance

/-! ### Scopes of nodes -/

instance (id : NodeId) (scope : ScopeId) : Walks (setScope id scope) := note fun _ => ⟨rfl, rfl, rfl, rfl⟩

instance (id : NodeId) : Walks (scopeOf id) := by
  unfold scopeOf
  refine bind fun s => ?_
  split <;> infer_instance

instance (id : NodeId) : Walks (seqOf id) := by unfold seqOf; infer_instance

instance (id : NodeId) : Walks (query id) := by unfold query; infer_instance

instance (id like : NodeId) : Walks (adopt id like) := by
  unfold adopt
  exact bind fun _ => bind fun _ => bind fun _ => note fun _ => ⟨rfl, rfl, rfl, rfl⟩

/-! ### Reports -/

instance (p : Problem) (span : Span) (notes : List Note) : Walks (reportWith p span notes) :=
  ⟨fun s => .modify fun _ => .single (.report s _)⟩

instance (p : Problem) (span : Span) : Walks (report p span) := by unfold report; infer_instance

/-- The only place where buffers are opened and closed. -/
instance (refused : α) (step : AnalysisM (Bool × α)) [hstep : Walks step] : Walks (tryingFor refused step) := by
  refine ⟨fun s => ?_⟩
  unfold tryingFor
  refine .get_bind (.ite (fun _ => .inst) fun _ => ?_)
  refine .bind (.modify fun _ => .single (.openBuffer s)) fun _ s₁ _ _ => ?_
  refine .bind (hstep.walks s₁) fun r s₂ _ _ => ?_
  refine .get_bind (.ite (fun hc => ?_) fun _ => ?_)
  · simp only [Bool.and_eq_true, Bool.not_eq_true'] at hc
    exact .bind (.modify fun _ => .single (.commit s₂ hc.2)) fun _ s₃ _ _ => .pure _
  · exact .bind (.modify fun _ => .single (.discard s₂)) fun _ s₃ _ _ => .pure _

instance (step : AnalysisM Bool) [Walks step] : Walks (trying step) := by unfold trying; infer_instance

/-! ### Completion and conversions -/

instance (id : NodeId) (t : TypeId) : Walks (finish id t) := by
  have same (v : Node → TypeId) (c : Node → Bool) :
      Walks (Analysis.modifyNode id fun n => { n with valueType := v n, completed := c n }) :=
    modifyNode id fun n => ⟨.of_same rfl rfl rfl rfl rfl, rfl, rfl⟩
  unfold finish
  refine bind fun n => bind fun r => ite ?_ ?_
  · refine seq (same _ _) fun _ => ite ?_ inferInstance
    exact seq (note fun _ => ⟨rfl, rfl, rfl, rfl⟩) fun _ => inferInstance
  · exact seq (same _ _) fun _ => seq (note fun _ => ⟨rfl, rfl, rfl, rfl⟩) fun _ => inferInstance

instance (id : NodeId) : Walks (fail id) := by unfold fail; infer_instance

instance : Walks pendingType := by
  unfold pendingType
  exact seq (note fun _ => ⟨rfl, rfl, rfl, rfl⟩) fun _ => inferInstance

instance (id : NodeId) : Walks (pendingOrFail id) := by unfold pendingOrFail; infer_instance

instance (id : NodeId) (parts : List TypeId) : Walks (settle id parts) := by unfold settle; infer_instance

instance (inner : NodeId) (t : TypeId) : Walks (castNode inner t) := by unfold castNode; infer_instance

instance (value : NodeId) (want : TypeId) (code : Code) : Walks (coerce value want code) := by
  unfold coerce; infer_instance

end Walks

/-! ## What conversions return -/

theorem node_apply (id : NodeId) (s : Analysis) : node id s = (match s.result.tree.get? id with
    | some n => pure n
    | none => internal id .missingNode : AnalysisM Node) s := rfl

theorem node_ok {id : NodeId} {n : Node} {s s' : Analysis} (h : node id s = .ok n s') :
    s' = s ∧ s.result.tree.get? id = some n := by
  rw [node_apply] at h
  cases hn : s.result.tree.get? id <;> rw [hn] at h <;> cases h
  exact ⟨rfl, rfl⟩

theorem scopeOf_apply (id : NodeId) (s : Analysis) : scopeOf id s = (match s.nodeScope.get? id with
    | some scope => pure scope
    | none => tree >>= fun t => internal id (.neverDeclared (t.kind id).name) : AnalysisM ScopeId) s := rfl

theorem scopeOf_ok {id : NodeId} {scope : ScopeId} {s s' : Analysis} (h : scopeOf id s = .ok scope s') : s' = s := by
  rw [scopeOf_apply] at h
  cases hn : s.nodeScope.get? id <;> rw [hn] at h <;> cases h
  rfl

theorem symbol_apply (id : SymbolId) (s : Analysis) : symbol id s = (match s.result.scopes.symbol? id with
    | some sym => pure sym
    | none => throw .brokenReference : AnalysisM Symbol) s := rfl

theorem symbol_ok {s : Analysis} {id : SymbolId} {sym : Symbol} (h : s.result.scopes.symbol? id = some sym) :
    symbol id s = .ok sym s := by
  rw [symbol_apply, h]
  rfl

theorem scopeInfo_apply (id : ScopeId) (s : Analysis) : scopeInfo id s = (match s.result.scopes.scope? id with
    | some sc => pure sc
    | none => throw .brokenReference : AnalysisM Scope) s := rfl

theorem scopeInfo_ok {id : ScopeId} {sc : Scope} {s s' : Analysis} (h : scopeInfo id s = .ok sc s') : s' = s := by
  rw [scopeInfo_apply] at h
  cases hsc : s.result.scopes.scope? id <;> rw [hsc] at h <;> cases h
  rfl

theorem adopt_ok {id like : NodeId} {s s' : Analysis} {u : Unit} (h : adopt id like s = .ok u s') : s'.result = s.result := by
  unfold adopt at h
  obtain ⟨scope, s₁, h₁, h⟩ := bind_ok h
  cases scopeOf_ok h₁
  cases h
  rfl

/-- The expression `w` in the tree `t'` is the expression `v` of the tree `t`, or a new cast of it. -/
structure Recast (t t' : Tree) (w v : NodeId) : Prop where
  extends_ : t.Extends t'
  cast : w = v ∨ t.get? w = none ∧ t'.Casts w v
  present : w ≠ 0

theorem Recast.same {t t' : Tree} {w v : NodeId} (h : Recast t t' w v) : t'.Same w v := by
  rcases h.cast with rfl | ⟨-, hcast⟩
  · exact .refl _ _
  · exact fun _ => .of_casts hcast

theorem castNode_ok {inner c : NodeId} {t : TypeId} {s s' : Analysis} (h : castNode inner t s = .ok c s') :
    Recast s.result.tree s'.result.tree c inner := by
  unfold castNode at h
  obtain ⟨span, s₁, h₁, ha⟩ := bind_ok h
  cases h₁
  obtain ⟨c', s₂, h₂, hb⟩ := bind_ok ha
  obtain ⟨u, s₃, h₃, hc⟩ := bind_ok hb
  have htree := congrArg AnalysisResult.tree (adopt_ok h₃)
  cases h₂
  cases hc
  rw [htree]
  refine ⟨Tree.extends_push s.result.tree _, .inr ⟨(Tree.Extends.refl _).get?_size, ?_⟩, Nat.succ_ne_zero _⟩
  exact ⟨_, (Tree.get?_push s.result.tree _ _).trans (if_pos rfl), rfl, Flags.has_implicit, rfl⟩

theorem coerce_ok {value : NodeId} {want : TypeId} {code : Code} {r : Bool × NodeId} {s s' : Analysis}
    (h : coerce value want code s = .ok r s') : Recast s.result.tree s'.result.tree r.2 value := by
  unfold coerce at h
  obtain ⟨n, s₁, hn, ha⟩ := bind_ok h
  obtain ⟨rfl, hn⟩ := node_ok hn
  have hvalue : value ≠ 0 := by
    rintro rfl
    cases hn
  obtain ⟨b, s₂, h₂, hb⟩ := bind_ok ha
  cases h₂
  obtain ⟨b', s₃, h₃, hc⟩ := bind_ok hb
  cases h₃
  split at hc
  · cases hc
    exact ⟨.refl _, .inl rfl, hvalue⟩
  · obtain ⟨ts, s₄, h₄, hd⟩ := bind_ok hc
    cases h₄
    split at hd
    · cases hd
      exact ⟨.refl _, .inl rfl, hvalue⟩
    · split at hd
      · obtain ⟨c, s₅, h₅, he⟩ := bind_ok hd
        cases he
        exact castNode_ok h₅
      · cases hd
        exact ⟨.refl _, .inl rfl, hvalue⟩

/-- The expression in a slot is exchanged for itself or for a new cast of it. -/
theorem Recast.refines {t t' : Tree} {w v owner : NodeId} {n : Node} {f : Node → Node} (h : Recast t t' w v)
    (hn : t.get? owner = some n) (hf : n.Refines (f n)) (ha : (f n).a = n.a ∨ (f n).a = w ∧ n.a = v)
    (hb : (f n).b = n.b ∨ (f n).b = w ∧ n.b = v) : t'.Refines (t'.modify owner f) := by
  have hn' := h.extends_ owner n hn
  have hsame : (t'.modify owner f).Same w v := by
    rcases h.cast with rfl | ⟨hnew, hcast⟩
    · exact .refl _ _
    · refine fun _ => .of_casts (hcast.modify ?_)
      rintro rfl
      rw [hn] at hnew
      cases hnew
  have hslot {x y : NodeId} (hx : x = y ∨ x = w ∧ y = v) : (t'.modify owner f).Same x y := by
    rcases hx with rfl | ⟨rfl, rfl⟩
    · exact .refl _ _
    · exact hsame
  refine Tree.refines_modify (fun m hm => ?_) fun m hm _ => ?_
  · rw [hn'] at hm
    cases hm
    exact hf
  · rw [hn'] at hm
    cases hm
    refine ⟨hslot ha, hslot hb, fun h0 => ?_⟩
    rcases ha with ha | ⟨ha, -⟩
    · rwa [ha]
    · rw [ha]
      exact h.present

/-- The expression in a slot of a node is converted and put back. -/
theorem Recast.walks {s s' : Analysis} {w v owner : NodeId} {n : Node} {f : Node → Node}
    (h : Recast s.result.tree s'.result.tree w v) (hn : s.result.tree.get? owner = some n) (hf : n.Refines (f n))
    (ha : (f n).a = n.a ∨ (f n).a = w ∧ n.a = v) (hb : (f n).b = n.b ∨ (f n).b = w ∧ n.b = v) :
    WalksFrom s' (modifyNode owner f) :=
  .modify fun _ => .single (.edit rfl rfl rfl ⟨rfl, rfl, rfl, rfl⟩ (h.refines hn hf ha hb))

end Analysis

end TreeCompiler
