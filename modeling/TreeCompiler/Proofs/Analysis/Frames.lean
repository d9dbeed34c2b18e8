import TreeCompiler.Proofs.Analysis.Reach
import TreeCompiler.Proofs.Scope.Slots

/-!
# Declaring variables of functions

* `Analysis.Slotted` : the invariant of the declaration pass. The variables around the current scope have slots below the
  height of their frame and are apart, and so are those that each node sees;
* `Analysis.Lays t b k s s'` : what a part of the pass does, besides keeping the invariant. Scopes and variables stay, no frame
  changes its height apart from that of the current function, new variables and the nodes that are come to have a place of
  `b` at least in the order, and a new variable of the current scope itself lies below the argument `k`;
* `Analysis.Plain`, `RunsPlain` : changes that give no variable a slot and no node a scope; such computations are found by
  instance;
* `Lays.of_child` : a scope is entered and left again.
-/

namespace TreeCompiler

namespace Analysis

open ScopeTable (Adds Allotted Apart Bare Builds Seen Spaces)

variable {α β : Type} {t : Tree} {s s' : Analysis}

/-! ## The invariant -/

/-- In the state `s` of the declaration pass of `t`, no two variables of a function that are seen together have one slot. -/
structure Slotted (t : Tree) (s : Analysis) : Prop where
  tree : t.Retyped s.result.tree
  ordered : s.result.scopes.Ordered
  spaces : s.result.scopes.Spaces
  scope : s.scope ≤ s.result.scopes.scopes.size
  nodes : ∀ x sc, s.nodeScope.get? x = some sc → sc ≤ s.result.scopes.scopes.size ∧
    ∃ q, s.nodeSeq.get? x = some q ∧ q ≤ s.seq ∧ s.result.scopes.Apart sc q
  frames : ∀ v sym off, s.result.scopes.symbol? v = some sym → sym.storage = .frame off →
    sym.kind = .var ∧ Allotted t s.result.scopes sym off
  params : ∀ v sym, s.result.scopes.symbol? v = some sym → t.kind sym.decl = .param → ∃ off, sym.storage = .frame off
  tops : ∀ v sym off fn, s.result.scopes.symbol? v = some sym → sym.storage = .frame off →
    sym.scope ∈ s.result.scopes.chain s.scope → s.result.scopes.scope? (s.result.scopes.funcScope sym.scope) = some fn →
      -off < fn.stackTop
  apart : ∀ q, s.result.scopes.Apart s.scope q
  args : ∀ v w a b off, 0 < off → s.result.scopes.symbol? v = some a → s.result.scopes.symbol? w = some b →
    a.storage = .frame off → b.storage = .frame off →
      s.result.scopes.funcScope a.scope = s.result.scopes.funcScope b.scope → v = w

/-- The invariant after a change by which no variable gets a slot and none comes into sight. -/
theorem Slotted.of_builds {fn : ScopeId} (hs : Slotted t s) (tree : t.Retyped s'.result.tree)
    (ordered : s'.result.scopes.Ordered) (spaces : s'.result.scopes.Spaces)
    (scope : s'.scope ≤ s'.result.scopes.scopes.size) (builds : Builds fn s.result.scopes s'.result.scopes)
    (fresh : ∀ v sym', s'.result.scopes.symbol? v = some sym' →
      (∃ sym, s.result.scopes.symbol? v = some sym) ∨ Bare t sym')
    (nodeScope : s'.nodeScope = s.nodeScope) (nodeSeq : s'.nodeSeq = s.nodeSeq) (seq : s.seq ≤ s'.seq)
    (around : ∀ v sym off, s.result.scopes.symbol? v = some sym → sym.storage = .frame off →
      sym.scope ∈ s'.result.scopes.chain s'.scope → sym.scope ∈ s.result.scopes.chain s.scope)
    (tops : ∀ id sc sc', s.result.scopes.scope? id = some sc → s'.result.scopes.scope? id = some sc' →
      sc.stackTop ≤ sc'.stackTop) : Slotted t s' := by
  have old {v : SymbolId} {sym' : Symbol} {off : Int} (h : s'.result.scopes.symbol? v = some sym')
      (hst : sym'.storage = .frame off) : ∃ sym, s.result.scopes.symbol? v = some sym ∧ sym.storage = .frame off ∧
        sym'.scope = sym.scope ∧ sym.kind = .var ∧ sym'.kind = sym.kind ∧ Allotted t s.result.scopes sym off := by
    obtain ⟨sym, hsym⟩ := (fresh v sym' h).resolve_right fun hbare => hbare.1 off hst
    obtain ⟨hplace, -⟩ := builds.places v sym sym' hsym h
    have g := builds.symbol hsym h
    obtain ⟨hkind, ha⟩ := hs.frames v sym off hsym (hplace ▸ hst)
    exact ⟨sym, hsym, hplace ▸ hst, g.scope, hkind, g.kind, ha⟩
  have seen {origin seq : Nat} (off : Int) (v : SymbolId) (sym' : Symbol) (h : Seen s'.result.scopes origin seq off v sym') :
      ∃ sym, s.result.scopes.symbol? v = some sym := by
    obtain ⟨sym, hsym, -⟩ := old h.here h.frame
    exact ⟨sym, hsym⟩
  have grown := ScopeTable.grows_size builds.grows
  refine ⟨tree, ordered, spaces, scope, fun x sc hx => ?_, fun v sym' off h hst => ?_, fun v sym' h hk => ?_,
    fun v sym' off fn' h hst hin hfn => ?_, fun q => ?_, fun v w a' b' off hpos ha hb hsta hstb hfn => ?_⟩
  · obtain ⟨hle, q, hq, hqs, hap⟩ := hs.nodes x sc (nodeScope ▸ hx)
    exact ⟨Nat.le_trans hle grown, q, nodeSeq ▸ hq, Nat.le_trans hqs seq, builds.apart hs.ordered hle seen hap⟩
  · obtain ⟨sym, hsym, -, -, hkind, hkind', ha⟩ := old h hst
    exact ⟨hkind'.trans hkind, builds.allotted hs.ordered (builds.symbol hsym h) ha⟩
  · rcases fresh v sym' h with ⟨sym, hsym⟩ | hbare
    · have g := builds.symbol hsym h
      obtain ⟨off, hoff⟩ := hs.params v sym hsym (g.decl ▸ hk)
      exact ⟨off, (builds.places v sym sym' hsym h).1.trans hoff⟩
    · exact absurd hk hbare.2
  · obtain ⟨sym, hsym, hst', hsc, -, -, ha⟩ := old h hst
    rw [hsc] at hin hfn
    rw [builds.funcScope hs.ordered ha.place] at hfn
    obtain ⟨fn, hfn', -⟩ := ScopeTable.funcScope_scope? ha.func
    have hlt := hs.tops v sym off fn hsym hst' (around v sym off hsym hst' hin) hfn'
    have hle := tops _ fn fn' hfn' hfn
    omega
  · intro off v w a' b' hv hw hfn
    obtain ⟨a, ha, hsta, hsca, -, -, hala⟩ := old hv.here hv.frame
    obtain ⟨b, hb, hstb, hscb, -, -, halb⟩ := old hw.here hw.frame
    rw [hsca, hscb, builds.funcScope hs.ordered hala.place, builds.funcScope hs.ordered halb.place] at hfn
    have hina := around v a off ha hsta (hsca ▸ hv.around)
    have hinb := around w b off hb hstb (hscb ▸ hw.around)
    exact hs.apart (max a.seq b.seq) off v w a b ⟨ha, hsta, hina, Nat.le_max_left ..⟩ ⟨hb, hstb, hinb, Nat.le_max_right ..⟩ hfn
  · obtain ⟨a, ha, hsta, hsca, -, -, hala⟩ := old ha hsta
    obtain ⟨b, hb, hstb, hscb, -, -, halb⟩ := old hb hstb
    rw [hsca, hscb, builds.funcScope hs.ordered hala.place, builds.funcScope hs.ordered halb.place] at hfn
    exact hs.args v w a b off hpos ha hb hsta hstb hfn

/-! ## Parts of the pass -/

structure Lays (t : Tree) (b k : Nat) (s s' : Analysis) : Prop where
  slotted : Slotted t s'
  scope : s'.scope = s.scope
  seq : s.seq ≤ s'.seq
  builds : Builds (s.result.scopes.funcScope s.scope) s.result.scopes s'.result.scopes
  added : ∀ v sym off, s'.result.scopes.symbol? v = some sym → sym.storage = .frame off →
    (∃ old, s.result.scopes.symbol? v = some old) ∨ b ≤ sym.seq ∧
      (sym.scope = s.scope ∧ s.result.scopes.funcScope s.scope ≠ 0 ∧ off < Storage.argOffset k ∨
        s.result.scopes.scopes.size < sym.scope)
  nodes : ∀ x, (s'.nodeScope.get? x = s.nodeScope.get? x ∧ s'.nodeSeq.get? x = s.nodeSeq.get? x) ∨
    ∃ sc q, s'.nodeScope.get? x = some sc ∧ s'.nodeSeq.get? x = some q ∧ b ≤ q ∧
      s'.result.scopes.chain s.scope ⊆ s'.result.scopes.chain sc

namespace Lays

variable {b k : Nat}

theorem trans {s₁ : Analysis} (hs : Slotted t s) (h₁ : Lays t b k s s₁) (h₂ : Lays t b k s₁ s') : Lays t b k s s' := by
  have hfn : s₁.result.scopes.funcScope s₁.scope = s.result.scopes.funcScope s.scope := by
    rw [h₁.scope]
    exact h₁.builds.funcScope hs.ordered hs.scope
  have grown := ScopeTable.grows_size h₁.builds.grows
  refine ⟨h₂.slotted, h₂.scope.trans h₁.scope, Nat.le_trans h₁.seq h₂.seq, h₁.builds.trans (hfn ▸ h₂.builds),
    fun v sym off h hst => ?_, fun x => ?_⟩
  · rcases h₂.added v sym off h hst with ⟨sym₁, hsym₁⟩ | ⟨hb, hor⟩
    · obtain ⟨hplace, hseq⟩ := h₂.builds.places v sym₁ sym hsym₁ h
      have hscope := (h₂.builds.symbol hsym₁ h).scope
      rw [hseq, hscope]
      exact h₁.added v sym₁ off hsym₁ (hplace ▸ hst)
    · rw [hfn, h₁.scope] at hor
      exact .inr ⟨hb, hor.imp_right fun hlt => Nat.lt_of_le_of_lt grown hlt⟩
  · rcases h₂.nodes x with ⟨hx, hq⟩ | ⟨sc, q, hx, hq, hb, hsub⟩
    · rw [hx, hq]
      refine (h₁.nodes x).imp_right ?_
      rintro ⟨sc, q, hx₁, hq₁, hb, hsub⟩
      refine ⟨sc, q, hx₁, hq₁, hb, ?_⟩
      have hle := (h₁.slotted.nodes x sc hx₁).1
      rw [h₂.builds.chain h₁.slotted.ordered (h₁.scope ▸ h₁.slotted.scope), h₂.builds.chain h₁.slotted.ordered hle]
      exact hsub
    · exact .inr ⟨sc, q, hx, hq, hb, h₁.scope ▸ hsub⟩

theorem mono {k' : Nat} (h : Lays t b k s s') (hk : k ≤ k') : Lays t b k' s s' := by
  refine ⟨h.slotted, h.scope, h.seq, h.builds, fun v sym off hv hst => ?_, h.nodes⟩
  refine (h.added v sym off hv hst).imp_right fun hnew => ⟨hnew.1, hnew.2.imp_left fun hin => ⟨hin.1, hin.2.1, ?_⟩⟩
  have hlt := hin.2.2
  unfold Storage.argOffset at hlt ⊢
  omega

theorem weaken {b' : Nat} (h : Lays t b k s s') (hb : b' ≤ b) : Lays t b' k s s' := by
  refine ⟨h.slotted, h.scope, h.seq, h.builds, fun v sym off hv hst => ?_, fun x => (h.nodes x).imp_right ?_⟩
  · exact (h.added v sym off hv hst).imp_right (And.imp_left (Nat.le_trans hb))
  · rintro ⟨sc, q, hx, hq, hle, hsub⟩
    exact ⟨sc, q, hx, hq, Nat.le_trans hb hle, hsub⟩

end Lays

/-- The computation keeps the invariant and lays out what it declares. -/
def LaysFrom (t : Tree) (b k : Nat) (s : Analysis) (m : AnalysisM α) : Prop :=
  Slotted t s → b ≤ s.seq + 1 → ∀ a s', m s = .ok a s' → Lays t b k s s'

/-! ## Plain changes -/

/-- No variable gets a slot, and no node a scope. -/
structure Plain (t : Tree) (s s' : Analysis) : Prop where
  tree : t.Retyped s.result.tree → t.Retyped s'.result.tree
  table : ScopeTable.Plain t s.result.scopes s'.result.scopes
  scope : s'.scope = s.scope
  seq : s'.seq = s.seq
  nodeScope : s'.nodeScope = s.nodeScope
  nodeSeq : s'.nodeSeq = s.nodeSeq

namespace Plain

theorem refl (t : Tree) (s : Analysis) : Plain t s s := ⟨fun h => h, .refl _ _, rfl, rfl, rfl, rfl⟩

theorem trans {a b c : Analysis} (h₁ : Plain t a b) (h₂ : Plain t b c) : Plain t a c :=
  ⟨fun h => h₂.tree (h₁.tree h), h₁.table.trans h₂.table, h₂.scope.trans h₁.scope, h₂.seq.trans h₁.seq,
    h₂.nodeScope.trans h₁.nodeScope, h₂.nodeSeq.trans h₁.nodeSeq⟩

theorem stackTop_le (h : Plain t s s') (id : ScopeId) (sc sc' : Scope) (hsc : s.result.scopes.scope? id = some sc)
    (hsc' : s'.result.scopes.scope? id = some sc') : sc.stackTop ≤ sc'.stackTop :=
  Nat.le_of_eq (((h.table.builds.tops id sc sc' hsc hsc').2 (Nat.ne_of_gt (ScopeTable.scope?_lt hsc).1)).symm)

theorem slotted (h : Plain t s s') (hs : Slotted t s) : Slotted t s' := by
  have grown := ScopeTable.grows_size h.table.builds.grows
  refine hs.of_builds (h.tree hs.tree) (h.table.ordered hs.ordered) (h.table.spaces hs.spaces) ?_ h.table.builds h.table.fresh
    h.nodeScope h.nodeSeq (Nat.le_of_eq h.seq.symm) (fun v sym off _ _ hin => ?_) h.stackTop_le
  · rw [h.scope]
    exact Nat.le_trans hs.scope grown
  · rw [h.scope, h.table.builds.chain hs.ordered hs.scope] at hin
    exact hin

theorem lays {b k : Nat} (h : Plain t s s') (hs : Slotted t s) : Lays t b k s s' where
  slotted := h.slotted hs
  scope := h.scope
  seq := Nat.le_of_eq h.seq.symm
  builds := h.table.builds.of_still _
  added v sym off hv hst := .inl ((h.table.fresh v sym hv).resolve_right fun hbare => hbare.1 off hst)
  nodes x := .inl ⟨by rw [h.nodeScope], by rw [h.nodeSeq]⟩

end Plain

/-- The computation gives no variable a slot and no node a scope. -/
class RunsPlain (t : Tree) (m : AnalysisM α) : Prop where
  plain : ∀ s a s', Slotted t s → m s = .ok a s' → Plain t s s'

namespace LaysFrom

variable {b k : Nat}

theorem plain (m : AnalysisM α) [h : RunsPlain t m] : LaysFrom t b k s m :=
  fun hs _ a s' hm => (h.plain s a s' hs hm).lays hs

theorem seq {k₁ : Nat} {x : AnalysisM α} {f : α → AnalysisM β} (hk : k₁ ≤ k) (hx : LaysFrom t b k₁ s x)
    (hf : ∀ a s₁, x s = .ok a s₁ → Lays t b k₁ s s₁ → LaysFrom t b k s₁ (f a)) : LaysFrom t b k s (x >>= f) := by
  intro hs hb c s' h
  obtain ⟨a, s₁, h₁, h₂⟩ := bind_ok h
  have l₁ := hx hs hb a s₁ h₁
  have hseq := l₁.seq
  exact (l₁.mono hk).trans hs (hf a s₁ h₁ l₁ l₁.slotted (by omega) c s' h₂)

/-- The first part is found by instance. -/
theorem bind {x : AnalysisM α} {f : α → AnalysisM β} [hx : RunsPlain t x]
    (hf : ∀ a s₁, x s = .ok a s₁ → Plain t s s₁ → LaysFrom t b k s₁ (f a)) : LaysFrom t b k s (x >>= f) := by
  intro hs hb c s' h
  obtain ⟨a, s₁, h₁, h₂⟩ := bind_ok h
  have p₁ := hx.plain s a s₁ hs h₁
  exact (p₁.lays hs).trans hs (hf a s₁ h₁ p₁ (p₁.slotted hs) (by rw [p₁.seq]; exact hb) c s' h₂)

theorem get_bind {f : Analysis → AnalysisM β} (h : LaysFrom t b k s (f s)) : LaysFrom t b k s (get >>= f) := h

theorem ite {c : Prop} [Decidable c] {x y : AnalysisM α} (hx : c → LaysFrom t b k s x) (hy : ¬c → LaysFrom t b k s y) :
    LaysFrom t b k s (if c then x else y) := by
  split
  · exact hx ‹_›
  · exact hy ‹_›

theorem mono {k' : Nat} {m : AnalysisM α} (h : LaysFrom t b k s m) (hk : k ≤ k') : LaysFrom t b k' s m :=
  fun hs hb a s' hm => (h hs hb a s' hm).mono hk

theorem of_start {m : AnalysisM α} (h : Slotted t s → b ≤ s.seq + 1 → LaysFrom t b k s m) : LaysFrom t b k s m :=
  fun hs hb => h hs hb hs hb

theorem forM {f : α → AnalysisM PUnit} (xs : List α) (h : ∀ x ∈ xs, ∀ s b, LaysFrom t b k s (f x)) :
    ∀ s, LaysFrom t b k s (xs.forM f) := by
  induction xs with
  | nil =>
    intro s hs _ a s' hm
    cases hm
    exact (Plain.refl t s).lays hs
  | cons x xs ih =>
    exact fun s => seq (Nat.le_refl _) (h x (List.mem_cons_self ..) s b) fun _ s₁ _ _ =>
      ih (fun y hy => h y (List.mem_cons_of_mem _ hy)) s₁

end LaysFrom

namespace RunsPlain

theorem seq {x : AnalysisM α} {f : α → AnalysisM β} (hx : RunsPlain t x) (hf : ∀ a, RunsPlain t (f a)) :
    RunsPlain t (x >>= f) := by
  refine ⟨fun s b s' hs h => ?_⟩
  obtain ⟨a, s₁, h₁, h₂⟩ := bind_ok h
  have p₁ := hx.plain s a s₁ hs h₁
  exact p₁.trans ((hf a).plain s₁ b s' (p₁.slotted hs) h₂)

/-- The first part is found by instance. -/
theorem bind {x : AnalysisM α} {f : α → AnalysisM β} [hx : RunsPlain t x] (hf : ∀ a, RunsPlain t (f a)) :
    RunsPlain t (x >>= f) := seq hx hf

instance {x : AnalysisM α} {f : α → AnalysisM β} [hx : RunsPlain t x] [hf : ∀ a, RunsPlain t (f a)] :
    RunsPlain t (x >>= f) := seq hx hf

instance (a : α) : RunsPlain t (pure a : AnalysisM α) := by
  refine ⟨fun s b s' _ h => ?_⟩
  cases h
  exact .refl t s

instance {f : α → β} {x : AnalysisM α} [hx : RunsPlain t x] : RunsPlain t (f <$> x) := by
  rw [map_eq_pure_bind]
  infer_instance

instance {x : AnalysisM α} [hx : RunsPlain t x] : RunsPlain t (discard x) :=
  inferInstanceAs (RunsPlain t ((fun _ => PUnit.unit) <$> x))

instance (e : AnalysisFailure) : RunsPlain t (throw e : AnalysisM α) := by
  refine ⟨fun s b s' _ h => ?_⟩
  cases h

instance : RunsPlain t (get : AnalysisM Analysis) := by
  refine ⟨fun s b s' _ h => ?_⟩
  cases h
  exact .refl t s

instance {c : Prop} [Decidable c] {x y : AnalysisM α} [RunsPlain t x] [RunsPlain t y] :
    RunsPlain t (if c then x else y) := by
  split <;> infer_instance

theorem of_modify {f : Analysis → Analysis} (h : ∀ s, Slotted t s → Plain t s (f s)) : RunsPlain t (modify f) := by
  refine ⟨fun s a s' hs hm => ?_⟩
  cases hm
  exact h s hs

theorem of_modifyGet {f : Analysis → α × Analysis} (h : ∀ s, Slotted t s → Plain t s (f s).2) :
    RunsPlain t (modifyGet f) := by
  refine ⟨fun s a s' hs hm => ?_⟩
  cases hm
  exact h s hs

theorem of_modifyScopes {f : ScopeTable → ScopeTable} (h : ∀ tab : ScopeTable, ScopeTable.Plain t tab (f tab)) :
    RunsPlain t (modifyScopes f) :=
  of_modify fun s _ => ⟨fun ht => ht, h s.result.scopes, rfl, rfl, rfl, rfl⟩

theorem of_withScopes {f : ScopeTable → α × ScopeTable} (h : ∀ tab : ScopeTable, ScopeTable.Plain t tab (f tab).2) :
    RunsPlain t (withScopes f) :=
  of_modifyGet fun s _ => ⟨fun ht => ht, h s.result.scopes, rfl, rfl, rfl, rfl⟩

/-- A change of what is noted besides the tables. -/
theorem note {f : Analysis → Analysis}
    (h : ∀ s, (f s).result.tree = s.result.tree ∧ (f s).result.scopes = s.result.scopes ∧ (f s).scope = s.scope ∧
      (f s).seq = s.seq ∧ (f s).nodeScope = s.nodeScope ∧ (f s).nodeSeq = s.nodeSeq) : RunsPlain t (modify f) := by
  refine of_modify fun s _ => ?_
  obtain ⟨htree, hscopes, hscope, hseq, hnodeScope, hnodeSeq⟩ := h s
  exact ⟨fun ht => htree ▸ ht, hscopes ▸ .refl _ _, hscope, hseq, hnodeScope, hnodeSeq⟩

theorem noteResult {f : AnalysisResult → AnalysisResult} (h : ∀ r, (f r).tree = r.tree ∧ (f r).scopes = r.scopes) :
    RunsPlain t (modifyResult f) := by
  refine note fun s => ?_
  obtain ⟨htree, hscopes⟩ := h s.result
  exact ⟨htree, hscopes, rfl, rfl, rfl, rfl⟩

instance : RunsPlain t tree := by unfold tree; infer_instance

instance : RunsPlain t types := by unfold types; infer_instance

instance : RunsPlain t scopes := by unfold scopes; infer_instance

instance (id : NodeId) : RunsPlain t (spanOf id) := by unfold spanOf; infer_instance

instance (id : NodeId) : RunsPlain t (seqOf id) := by unfold seqOf; infer_instance

instance (type : TypeId) : RunsPlain t (isResolved type) := by unfold isResolved; infer_instance

instance (text : String) : RunsPlain t (internName text) := of_withScopes fun _ => .intern text

instance (p : Problem) (span : Span) (notes : List Note) : RunsPlain t (reportWith p span notes) :=
  note fun _ => ⟨rfl, rfl, rfl, rfl, rfl, rfl⟩

instance (p : Problem) (span : Span) : RunsPlain t (report p span) := by unfold report; infer_instance

instance (id : NodeId) (cause : InternalCause) : RunsPlain t (internal id cause : AnalysisM α) := by
  unfold internal; infer_instance

instance (id : NodeId) : RunsPlain t (node id) := by
  unfold node
  refine bind fun tree => ?_
  split <;> infer_instance

instance (id : SymbolId) : RunsPlain t (symbol id) := by
  unfold symbol
  refine bind fun tab => ?_
  split <;> infer_instance

instance (id : ScopeId) : RunsPlain t (scopeInfo id) := by
  unfold scopeInfo
  refine bind fun tab => ?_
  split <;> infer_instance

instance (name : String) (span : Span) (prev : SymbolId) : RunsPlain t (reportRedeclared name span prev) := by
  unfold reportRedeclared; infer_instance

instance (id : NodeId) (sym : SymbolId) : RunsPlain t (setDecl id sym) := noteResult fun _ => ⟨rfl, rfl⟩

instance (id : NodeId) (type : TypeId) (c : Node → Bool) :
    RunsPlain t (modifyNode id fun n => { n with valueType := type, completed := c n }) :=
  of_modify fun _ _ => ⟨fun ht => ht.modify id fun n => ⟨type, c n, rfl⟩, .refl _ _, rfl, rfl, rfl, rfl⟩

instance (id : NodeId) (type : TypeId) : RunsPlain t (finish id type) := by
  have done : RunsPlain t (modify fun s => { s with progress := true }) := note fun _ => ⟨rfl, rfl, rfl, rfl, rfl, rfl⟩
  have left : RunsPlain t (modify fun s => { s with pending := s.pending + 1 }) :=
    note fun _ => ⟨rfl, rfl, rfl, rfl, rfl, rfl⟩
  unfold finish
  infer_instance

instance : RunsPlain t inFunction := by unfold inFunction; infer_instance

instance (n : Node) : RunsPlain t (loadNative n) := by
  unfold loadNative
  refine bind fun s => ?_
  split
  · infer_instance
  · infer_instance
  · split <;> infer_instance

instance (n : Node) : RunsPlain t (checkLoopControl n) := by unfold checkLoopControl; infer_instance

instance (n : Node) : RunsPlain t (declareImport n) := by
  unfold declareImport
  refine bind fun s => of_modifyScopes fun _ => .modifyScope (fun _ => ?_) fun _ p hp => .inl hp
  exact ⟨⟨rfl, rfl, rfl, Nat.le_refl _, Nat.le_refl _⟩, rfl, rfl⟩

end RunsPlain

/-! ## Nodes and variables -/

/-- The nodes in sight of the current scope that come no earlier than `q` lie in the current scope itself. -/
def Late (s : Analysis) (q : Nat) : Prop :=
  ∀ x sc q', s.nodeScope.get? x = some sc → s.nodeSeq.get? x = some q' → s.scope ∈ s.result.scopes.chain sc → q ≤ q' →
    sc = s.scope

theorem Late.of_builds {fn : ScopeId} {q : Nat} (h : Late s q) (hs : Slotted t s)
    (hb : Builds fn s.result.scopes s'.result.scopes) (scope : s'.scope = s.scope) (nodeScope : s'.nodeScope = s.nodeScope)
    (nodeSeq : s'.nodeSeq = s.nodeSeq) : Late s' q := by
  intro x sc q' hx hq hin hle
  rw [nodeScope] at hx
  rw [scope, hb.chain hs.ordered (hs.nodes x sc hx).1] at hin
  rw [scope]
  exact h x sc q' hx (nodeSeq ▸ hq) hin hle

theorem Plain.late {q : Nat} (h : Plain t s s') (hs : Slotted t s) (hl : Late s q) : Late s' q :=
  hl.of_builds hs h.table.builds h.scope h.nodeScope h.nodeSeq

theorem setScope_apply (p : NodeId) (scope : ScopeId) : setScope p scope s = .ok ⟨⟩
    { s with nodeScope := s.nodeScope.insert p scope, nodeSeq := s.nodeSeq.insert p (s.seq + 1), seq := s.seq + 1 } := rfl

/-- A node gets the current scope and the last place in the order. -/
theorem LaysFrom.setScope {b k : Nat} (p : NodeId) {scope : ScopeId} (hscope : scope = s.scope) :
    LaysFrom t b k s (setScope p scope) := by
  intro hs hb a s' hm
  rw [setScope_apply, hscope] at hm
  cases hm
  refine ⟨⟨hs.tree, hs.ordered, hs.spaces, hs.scope, fun x sc hx => ?_, hs.frames, hs.params, hs.tops, hs.apart, hs.args⟩, rfl,
    Nat.le_succ _, .refl _ _, fun v sym off h _ => .inl ⟨sym, h⟩, fun x => ?_⟩
  · rw [IdMap.get?_insert] at hx
    change _ ∧ ∃ q, (s.nodeSeq.insert p (s.seq + 1)).get? x = some q ∧ _
    rw [IdMap.get?_insert]
    split at hx
    · cases hx
      exact ⟨hs.scope, s.seq + 1, if_pos ‹_›, Nat.le_refl _, hs.apart _⟩
    · obtain ⟨hle, q, hq, hqs, hap⟩ := hs.nodes x sc hx
      exact ⟨hle, q, (if_neg ‹_›).trans hq, Nat.le_succ_of_le hqs, hap⟩
  · dsimp only
    rw [IdMap.get?_insert, IdMap.get?_insert]
    split
    · exact .inr ⟨s.scope, s.seq + 1, rfl, rfl, hb, fun _ h => h⟩
    · exact .inl ⟨rfl, rfl⟩

/-- The node that came last is the only one that is not earlier than itself. -/
theorem late_setScope (hs : Slotted t s) (p : NodeId) :
    Late { s with nodeScope := s.nodeScope.insert p s.scope, nodeSeq := s.nodeSeq.insert p (s.seq + 1), seq := s.seq + 1 }
      (s.seq + 1) := by
  intro x sc q' hx hq _ hle
  dsimp only at hx hq
  rw [IdMap.get?_insert] at hx hq
  split at hx
  · cases hx
    rfl
  · rename_i hne
    rw [if_neg hne] at hq
    obtain ⟨-, q, hq₁, hqs, -⟩ := hs.nodes x sc hx
    cases hq.symm.trans hq₁
    omega

/-! ### Slots -/

/-- The slot lies in the frame around the current scope, and no variable in sight has it. -/
structure Free (s : Analysis) (off : Int) : Prop where
  le : off ≤ 0
  room : ∃ fn, s.result.scopes.scope? (s.result.scopes.funcScope s.scope) = some fn ∧ -off < fn.stackTop ∧ -off < fn.maxStack
  apart : ∀ w b, s.result.scopes.symbol? w = some b → b.storage = .frame off → b.scope ∈ s.result.scopes.chain s.scope →
    s.result.scopes.funcScope b.scope ≠ s.result.scopes.funcScope s.scope

theorem Free.inFunction {off : Int} (h : Free s off) : s.result.scopes.funcScope s.scope ≠ 0 := by
  obtain ⟨fn, hfn, -⟩ := h.room
  exact Nat.ne_of_gt (ScopeTable.scope?_lt hfn).1

/-- The table after the frame around the scope has grown by a slot. -/
def withSlot (s : Analysis) : ScopeTable :=
  s.result.scopes.modifyScope (s.result.scopes.funcScope s.scope) fun fn =>
    { fn with stackTop := fn.stackTop + 1, maxStack := max fn.maxStack (fn.stackTop + 1) }

theorem newStorage_apply (static : Bool) : newStorage static s =
    (match if static then none else s.result.scopes.allocLocal? s.scope with
      | some (storage, scopes) => modifyScopes (fun _ => scopes) >>= fun _ => pure storage
      | none => withScopes (·.allocGlobal) : AnalysisM Storage) s := rfl

theorem newStorage_ok {static : Bool} {st : Storage} (h : newStorage static s = .ok st s') :
    (st = .global s.result.scopes.globals ∧
      s' = { s with result := { s.result with scopes := s.result.scopes.allocGlobal.2 } }) ∨
    ∃ fn, static = false ∧ s.result.scopes.scope? (s.result.scopes.funcScope s.scope) = some fn ∧
      st = .frame (-(fn.stackTop : Int)) ∧ s' = { s with result := { s.result with scopes := withSlot s } } := by
  rw [newStorage_apply] at h
  cases static with
  | true =>
    cases h
    exact .inl ⟨rfl, rfl⟩
  | false =>
    rw [if_neg Bool.false_ne_true] at h
    cases halloc : s.result.scopes.allocLocal? s.scope with
    | none =>
      rw [halloc] at h
      cases h
      exact .inl ⟨rfl, rfl⟩
    | some r =>
      rw [halloc] at h
      obtain ⟨fn, hfn, rfl⟩ := Option.map_eq_some_iff.1 halloc
      cases h
      exact .inr ⟨fn, rfl, hfn, rfl, rfl⟩

theorem withSlot_builds : Builds (s.result.scopes.funcScope s.scope) s.result.scopes (withSlot s) :=
  .modifyFrame fun _ => ⟨⟨rfl, rfl, rfl, Nat.le_max_left .., Nat.le_refl _⟩, rfl⟩

theorem withSlot_lays {b k : Nat} (hs : Slotted t s) :
    Lays t b k s { s with result := { s.result with scopes := withSlot s } } := by
  have hold (v : SymbolId) (sym : Symbol) (h : (withSlot s).symbol? v = some sym) :
      ∃ old, s.result.scopes.symbol? v = some old := ⟨sym, by rw [← h]; exact (ScopeTable.symbol?_modifyScope ..).symm⟩
  have hchain : (withSlot s).chain s.scope = s.result.scopes.chain s.scope := withSlot_builds.chain hs.ordered hs.scope
  refine ⟨hs.of_builds hs.tree (hs.ordered.modifyScope _ fun _ => rfl) (hs.spaces.modifyScope (fun _ => ⟨rfl, rfl⟩)
    fun _ p hp => .inl hp) (Nat.le_trans hs.scope (ScopeTable.grows_size withSlot_builds.grows)) withSlot_builds
    (fun v sym h => .inl (hold v sym h)) rfl rfl (Nat.le_refl _) (fun v sym off _ _ hin => hchain ▸ hin)
    fun id sc sc' h h' => ?_, rfl, Nat.le_refl _, withSlot_builds, fun v sym off h _ => .inl (hold v sym h), fun _ => .inl ⟨rfl, rfl⟩⟩
  dsimp only at h'
  unfold withSlot at h'
  rw [ScopeTable.scope?_modifyScope, h] at h'
  split at h' <;> cases h'
  · exact Nat.le_succ _
  · exact Nat.le_refl _

/-- The slot that is given out is free: those of the variables in sight lie below it. -/
theorem free_withSlot (hs : Slotted t s) {fn : Scope}
    (hfn : s.result.scopes.scope? (s.result.scopes.funcScope s.scope) = some fn) :
    Free { s with result := { s.result with scopes := withSlot s } } (-(fn.stackTop : Int)) := by
  have hscope : (withSlot s).funcScope s.scope = s.result.scopes.funcScope s.scope :=
    withSlot_builds.funcScope hs.ordered hs.scope
  have hchain : (withSlot s).chain s.scope = s.result.scopes.chain s.scope := withSlot_builds.chain hs.ordered hs.scope
  refine ⟨by omega, ⟨{ fn with stackTop := fn.stackTop + 1, maxStack := max fn.maxStack (fn.stackTop + 1) }, ?_, ?_, ?_⟩,
    fun w b hw hst hin heq => ?_⟩
  · dsimp only
    rw [hscope]
    exact (ScopeTable.scope?_modifyScope ..).trans (by rw [if_pos rfl, hfn]; rfl)
  · dsimp only
    omega
  · dsimp only
    omega
  · dsimp only at hw hin heq
    rw [withSlot, ScopeTable.symbol?_modifyScope] at hw
    rw [hchain] at hin
    have hle : b.scope ≤ s.result.scopes.scopes.size :=
      Nat.le_trans (ScopeTable.le_of_mem_chain hs.ordered hin) hs.scope
    rw [hscope, withSlot_builds.funcScope hs.ordered hle] at heq
    have hlt := hs.tops w b _ fn hw hst hin (heq ▸ hfn)
    omega

/-- A variable gets a global slot, or a free one of the frame. -/
theorem LaysFrom.newStorage {b k : Nat} {static : Bool} {f : Storage → AnalysisM β}
    (hglobal : ∀ s₁ slot, Plain t s s₁ → LaysFrom t b k s₁ (f (.global slot)))
    (hframe : ∀ s₁ off, static = false → Slotted t s → Free s₁ off →
      s₁ = { s with result := { s.result with scopes := withSlot s } } → LaysFrom t b k s₁ (f (.frame off))) :
    LaysFrom t b k s (newStorage static >>= f) := by
  intro hs hb a s' hm
  obtain ⟨st, s₁, hst, hf⟩ := bind_ok hm
  rcases newStorage_ok hst with ⟨rfl, hs₁⟩ | ⟨fn, hstatic, hfn, rfl, hs₁⟩
  · have hp : Plain t s s₁ := by
      rw [hs₁]
      exact ⟨fun ht => ht, .allocGlobal, rfl, rfl, rfl, rfl⟩
    exact (hp.lays hs).trans hs (hglobal s₁ _ hp (hp.slotted hs) (by rw [hp.seq]; exact hb) a s' hf)
  · have hl : Lays t b k s s₁ := hs₁ ▸ withSlot_lays hs
    have hfree : Free s₁ (-(fn.stackTop : Int)) := hs₁ ▸ free_withSlot hs hfn
    exact hl.trans hs (hframe s₁ _ hstatic hs hfree hs₁ hl.slotted (by have := hl.seq; omega) a s' hf)

/-- What has to be known of a variable that is bound in the current scope. -/
structure Takes (t : Tree) (s : Analysis) (sym : Symbol) (off : Int) : Prop where
  frame : sym.storage = .frame off
  scope : sym.scope = s.scope
  kind : sym.kind = .var
  place : Allotted t s.result.scopes sym off
  top : ∀ fn, s.result.scopes.scope? (s.result.scopes.funcScope s.scope) = some fn → -off < fn.stackTop
  apart : ∀ w b, s.result.scopes.symbol? w = some b → b.storage = .frame off →
    b.scope ∈ s.result.scopes.chain s.scope ∨ 0 < off →
      s.result.scopes.funcScope b.scope ≠ s.result.scopes.funcScope s.scope
  late : 0 < off ∨ Late s sym.seq

theorem Takes.lays {b k : Nat} {id : SymbolId} {sym : Symbol} {off : Int} {tab : ScopeTable} (h : Takes t s sym off)
    (hs : Slotted t s) (hadd : Adds (fun v new => v = id ∧ new = sym) s.result.scopes tab) (hb : b ≤ sym.seq)
    (hk : off < Storage.argOffset k) : Lays t b k s { s with result := { s.result with scopes := tab } } := by
  have builds := hadd.builds
  have grown := ScopeTable.grows_size builds.grows
  have hfn : tab.funcScope s.scope = s.result.scopes.funcScope s.scope := builds.funcScope hs.ordered hs.scope
  have hchain : tab.chain s.scope = s.result.scopes.chain s.scope := builds.chain hs.ordered hs.scope
  -- what is seen after the change was there before, or is the new variable
  have hold {origin seq : Nat} (off : Int) (v : SymbolId) (sym' : Symbol) (hv : Seen tab origin seq off v sym') :
      (∃ old, s.result.scopes.symbol? v = some old) ∨ v = id := (hadd.fresh v sym' hv.here).imp_right And.left
  have hsym {off' : Int} {origin seq : Nat} {a : Symbol} (hv : Seen tab origin seq off' id a) :
      (∃ old, s.result.scopes.symbol? id = some old) ∨ a = sym := (hadd.fresh id a hv.here).imp_right And.right
  by_cases hnew : ∃ old, s.result.scopes.symbol? id = some old
  · -- the number was taken, and nothing was added
    have hplain : Plain t s { s with result := { s.result with scopes := tab } } :=
      ⟨fun ht => ht, ⟨builds, hadd.ordered, hadd.spaces, fun v sym' hv => .inl ((hadd.fresh v sym' hv).elim (fun h => h)
        fun he => he.1 ▸ hnew)⟩, rfl, rfl, rfl, rfl⟩
    exact hplain.lays hs
  have hfresh (v : SymbolId) (sym' : Symbol) (hv : tab.symbol? v = some sym') :
      (∃ old, s.result.scopes.symbol? v = some old ∧ old.Grows sym' ∧ sym'.storage = old.storage) ∨ v = id ∧ sym' = sym := by
    refine (hadd.fresh v sym' hv).imp_left ?_
    rintro ⟨old, hold⟩
    exact ⟨old, hold, builds.symbol hold hv, (builds.places v old sym' hold hv).1⟩
  have hclash {origin seq : Nat} (hlate : 0 < off ∨ (s.scope ∈ tab.chain origin → sym.seq ≤ seq → origin = s.scope))
      (off' : Int) (w : SymbolId) (a b : Symbol) (ha : Seen tab origin seq off' id a)
      (hw : Seen s.result.scopes origin seq off' w b) :
      s.result.scopes.funcScope b.scope ≠ tab.funcScope a.scope := by
    obtain rfl := (hsym ha).resolve_left hnew
    obtain rfl : off = off' := Storage.frame.inj (h.frame.symm.trans ha.frame)
    rw [h.scope, hfn]
    refine h.apart w b hw.here hw.frame (hlate.symm.imp_left fun hl => ?_)
    have horigin := hl (h.scope ▸ ha.around) ha.early
    exact horigin ▸ hw.around
  refine ⟨⟨hs.tree, hadd.ordered hs.ordered, hadd.spaces hs.spaces, Nat.le_trans hs.scope grown, fun x sc hx => ?_,
    fun v sym' off' hv hst => ?_, fun v sym' hv hkind => ?_, fun v sym' off' fn' hv hst hin hfn' => ?_, fun q => ?_,
    fun v w a b off' hpos ha hw hsta hstb heq => ?_⟩, rfl, Nat.le_refl _, builds.of_still _, fun v sym' off' hv hst => ?_,
    fun x => .inl ⟨rfl, rfl⟩⟩
  · obtain ⟨hle, q, hq, hqs, hap⟩ := hs.nodes x sc hx
    refine ⟨Nat.le_trans hle grown, q, hq, hqs, builds.apart_new hs.ordered hle hold (hclash ?_) hap⟩
    refine h.late.imp_right fun hl hin hseq => hl x sc q hx hq ?_ hseq
    rwa [builds.chain hs.ordered hle] at hin
  · rcases hfresh v sym' hv with ⟨old, hvold, g, hst'⟩ | ⟨rfl, rfl⟩
    · obtain ⟨hkind, hal⟩ := hs.frames v old off' hvold (hst' ▸ hst)
      exact ⟨g.kind.trans hkind, builds.allotted hs.ordered g hal⟩
    · obtain rfl : off = off' := Storage.frame.inj (h.frame.symm.trans hst)
      exact ⟨h.kind, builds.allotted hs.ordered (.refl _) h.place⟩
  · rcases hfresh v sym' hv with ⟨old, hvold, g, hst'⟩ | ⟨rfl, rfl⟩
    · obtain ⟨off', hoff⟩ := hs.params v old hvold (g.decl ▸ hkind)
      exact ⟨off', hst'.trans hoff⟩
    · exact ⟨off, h.frame⟩
  · rcases hfresh v sym' hv with ⟨old, hvold, g, hst'⟩ | ⟨rfl, rfl⟩
    · have hal := (hs.frames v old off' hvold (hst' ▸ hst)).2
      dsimp only at hin hfn'
      rw [g.scope] at hin hfn'
      rw [hchain] at hin
      rw [builds.funcScope hs.ordered hal.place] at hfn'
      obtain ⟨fn, hfn₁, -⟩ := ScopeTable.funcScope_scope? hal.func
      have htop := (builds.tops _ fn fn' hfn₁ hfn').2 hal.func
      rw [htop]
      exact hs.tops v old off' fn hvold (hst' ▸ hst) hin hfn₁
    · obtain rfl : off = off' := Storage.frame.inj (h.frame.symm.trans hst)
      dsimp only at hfn'
      rw [h.scope, hfn] at hfn'
      have h0 : s.result.scopes.funcScope s.scope ≠ 0 := h.scope ▸ h.place.func
      obtain ⟨fn, hfn₁, -⟩ := ScopeTable.funcScope_scope? h0
      rw [(builds.tops _ fn fn' hfn₁ hfn').2 h0]
      exact h.top fn hfn₁
  · exact builds.apart_new hs.ordered hs.scope hold (hclash (.inr fun _ _ => rfl)) (hs.apart q)
  · -- an argument that was there is not one of this function at this place
    have other {w : SymbolId} {b : Symbol} (hold : ∃ old, s.result.scopes.symbol? w = some old ∧ old.Grows b ∧ b.storage = old.storage)
        (hw : tab.symbol? w = some b) (hstb : b.storage = .frame off) (hpos : 0 < off) :
        tab.funcScope b.scope ≠ tab.funcScope sym.scope := by
      obtain ⟨old, hwold, g, hst'⟩ := hold
      have hal := (hs.frames w old off hwold (hst' ▸ hstb)).2
      rw [g.scope, h.scope, hfn, builds.funcScope hs.ordered hal.place]
      exact h.apart w old hwold (hst' ▸ hstb) (.inr hpos)
    rcases hfresh v a ha with hvold | ⟨rfl, rfl⟩
    · rcases hfresh w b hw with hwold | ⟨rfl, rfl⟩
      · obtain ⟨a₀, hva, ga, hsta'⟩ := hvold
        obtain ⟨b₀, hwb, gb, hstb'⟩ := hwold
        have hala := (hs.frames v a₀ off' hva (hsta' ▸ hsta)).2
        have halb := (hs.frames w b₀ off' hwb (hstb' ▸ hstb)).2
        dsimp only at heq
        rw [ga.scope, gb.scope, builds.funcScope hs.ordered hala.place, builds.funcScope hs.ordered halb.place] at heq
        exact hs.args v w a₀ b₀ off' hpos hva hwb (hsta' ▸ hsta) (hstb' ▸ hstb) heq
      · obtain rfl : off = off' := Storage.frame.inj (h.frame.symm.trans hstb)
        exact absurd heq (other hvold ha hsta hpos)
    · obtain rfl : off = off' := Storage.frame.inj (h.frame.symm.trans hsta)
      rcases hfresh w b hw with hwold | ⟨rfl, rfl⟩
      · exact absurd heq.symm (other hwold hw hstb hpos)
      · rfl
  · rcases hfresh v sym' hv with ⟨old, hvold, -⟩ | ⟨rfl, rfl⟩
    · exact .inl ⟨old, hvold⟩
    · obtain rfl : off = off' := Storage.frame.inj (h.frame.symm.trans hst)
      exact .inr ⟨hb, .inl ⟨h.scope, h.scope ▸ h.place.func, hk⟩⟩

/-! ### Binding -/

theorem Takes.binds {b k : Nat} {scope : ScopeId} {sym : Symbol} {off : Int} (h : Takes t s { sym with scope } off)
    (hb : b ≤ sym.seq) (hk : off < Storage.argOffset k) : LaysFrom t b k s (bindIn scope sym) := by
  intro hs _ a s' hm
  rw [bindIn_apply] at hm
  cases hdecl : s.result.scopes.declare scope sym with
  | error prev =>
    rw [hdecl] at hm
    cases hm
    exact (Plain.refl t s).lays hs
  | ok r =>
    rw [hdecl] at hm
    cases hm
    exact h.lays hs (.declare hdecl ⟨rfl, rfl⟩) hb hk

theorem bindIn_bare {sym : Symbol} (h : Bare t sym) (scope : ScopeId) : RunsPlain t (bindIn scope sym) := by
  refine ⟨fun s a s' hs hm => ?_⟩
  rw [bindIn_apply] at hm
  cases hdecl : s.result.scopes.declare scope sym with
  | error prev =>
    rw [hdecl] at hm
    cases hm
    exact .refl t s
  | ok r =>
    rw [hdecl] at hm
    cases hm
    exact ⟨fun ht => ht, .declare hdecl h, rfl, rfl, rfl, rfl⟩

theorem bindSymbol_bare {sym : Symbol} (h : Bare t sym) : RunsPlain t (bindSymbol sym) := by
  have := bindIn_bare h
  unfold bindSymbol
  infer_instance

/-! ## Entering a scope and leaving it -/

/-- The current scope becomes one inside of it. It is new, or a namespace. -/
structure Enters (t : Tree) (s s₁ : Analysis) : Prop where
  tree : t.Retyped s.result.tree → t.Retyped s₁.result.tree
  table : ScopeTable.Plain t s.result.scopes s₁.result.scopes
  seq : s₁.seq = s.seq
  nodeScope : s₁.nodeScope = s.nodeScope
  nodeSeq : s₁.nodeSeq = s.nodeSeq
  inner : ∃ sc, s₁.result.scopes.scope? s₁.scope = some sc ∧ sc.parent = s.scope ∧
    (s.result.scopes.scopes.size < s₁.scope ∨ sc.kind = .nameSpace)

namespace Enters

variable {s₁ : Analysis}

theorem chain (h : Enters t s s₁) (hs : Slotted t s) :
    s₁.result.scopes.chain s₁.scope = s₁.scope :: s.result.scopes.chain s.scope := by
  obtain ⟨sc, hsc, hparent, -⟩ := h.inner
  rw [ScopeTable.chain_eq (h.table.ordered hs.ordered) hsc, hparent, h.table.builds.chain hs.ordered hs.scope]

/-- A scope that was there and in which functions keep variables is not the one that is entered. -/
theorem fresh (h : Enters t s s₁) (hs : Slotted t s) (h0 : s₁.result.scopes.funcScope s₁.scope ≠ 0) :
    s.result.scopes.scopes.size < s₁.scope := by
  obtain ⟨sc, hsc, -, hor⟩ := h.inner
  refine hor.resolve_right fun hk => h0 ?_
  rw [ScopeTable.funcScope_eq (h.table.ordered hs.ordered) hsc, hk]
  rfl

theorem around (h : Enters t s s₁) (hs : Slotted t s) {v : SymbolId} {sym : Symbol} {off : Int}
    (hv : s.result.scopes.symbol? v = some sym) (hst : sym.storage = .frame off)
    (hin : sym.scope ∈ s₁.result.scopes.chain s₁.scope) : sym.scope ∈ s.result.scopes.chain s.scope := by
  rw [h.chain hs] at hin
  refine (List.mem_cons.1 hin).resolve_left fun heq => ?_
  have hal := (hs.frames v sym off hv hst).2
  have h0 := hal.func
  rw [← h.table.builds.funcScope hs.ordered hal.place, heq] at h0
  have hle := hal.place
  rw [heq] at hle
  exact Nat.lt_irrefl _ (Nat.lt_of_lt_of_le (h.fresh hs h0) hle)

theorem slotted (h : Enters t s s₁) (hs : Slotted t s) : Slotted t s₁ := by
  obtain ⟨sc, hsc, -⟩ := h.inner
  refine hs.of_builds (h.tree hs.tree) (h.table.ordered hs.ordered) (h.table.spaces hs.spaces) (ScopeTable.scope?_lt hsc).2
    h.table.builds h.table.fresh h.nodeScope h.nodeSeq (Nat.le_of_eq h.seq.symm) (fun v sym off hv hst => h.around hs hv hst)
    fun id sc sc' h₀ h₁ => ?_
  exact Nat.le_of_eq (((h.table.builds.tops id sc sc' h₀ h₁).2 (Nat.ne_of_gt (ScopeTable.scope?_lt h₀).1)).symm)

end Enters

/-- From the end of what is done inside, the scope is left: every frame has the height that it had before. -/
structure Leaves (s s₂ s' : Analysis) : Prop where
  scope : s'.scope = s.scope
  tree : s'.result.tree = s₂.result.tree
  seq : s'.seq = s₂.seq
  nodeScope : s'.nodeScope = s₂.nodeScope
  nodeSeq : s'.nodeSeq = s₂.nodeSeq
  ordered : s₂.result.scopes.Ordered → s'.result.scopes.Ordered
  spaces : s₂.result.scopes.Spaces → s'.result.scopes.Spaces
  builds : Builds (s.result.scopes.funcScope s.scope) s₂.result.scopes s'.result.scopes
  symbols : ∀ v, s'.result.scopes.symbol? v = s₂.result.scopes.symbol? v
  tops : ∀ id sc sc', s.result.scopes.scope? id = some sc → s'.result.scopes.scope? id = some sc' →
    sc'.stackTop = sc.stackTop

/-- What is done in a scope inside, as it is seen from outside. -/
theorem Lays.of_child {b k k₁ : Nat} {s₁ s₂ : Analysis} (hs : Slotted t s) (he : Enters t s s₁) (h : Lays t b k₁ s₁ s₂)
    (hl : Leaves s s₂ s') : Lays t b k s s' := by
  have hs₁ := he.slotted hs
  have hs₂ := h.slotted
  have builds : Builds (s.result.scopes.funcScope s.scope) s.result.scopes s'.result.scopes := by
    have hgrows := (he.table.builds.grows.trans h.builds.grows).trans hl.builds.grows
    refine ⟨hgrows, fun id sc sc' hsc hsc' => ⟨?_, fun _ => hl.tops id sc sc' hsc hsc'⟩, fun v sym sym' hv hv' => ?_⟩
    · obtain ⟨sc₁, hsc₁, -⟩ := he.table.builds.grows.scopes id sc hsc
      obtain ⟨sc₂, hsc₂, -⟩ := h.builds.grows.scopes id sc₁ hsc₁
      exact ((hl.builds.tops id sc₂ sc' hsc₂ hsc').1.trans (h.builds.tops id sc₁ sc₂ hsc₁ hsc₂).1).trans
        (he.table.builds.tops id sc sc₁ hsc hsc₁).1
    · obtain ⟨sym₁, hv₁, -⟩ := he.table.builds.grows.symbols v sym hv
      obtain ⟨hst₁, hseq₁⟩ := he.table.builds.places v sym sym₁ hv hv₁
      obtain ⟨hst₂, hseq₂⟩ := h.builds.places v sym₁ sym' hv₁ ((hl.symbols v).symm.trans hv')
      exact ⟨hst₂.trans hst₁, hseq₂.trans hseq₁⟩
  have grown₁ := ScopeTable.grows_size he.table.builds.grows
  have grown' := ScopeTable.grows_size hl.builds.grows
  -- a new variable lies in the scope that was entered or further in
  have added (v : SymbolId) (sym : Symbol) (off : Int) (hv : s'.result.scopes.symbol? v = some sym)
      (hst : sym.storage = .frame off) : (∃ old, s.result.scopes.symbol? v = some old) ∨
        b ≤ sym.seq ∧ s.result.scopes.scopes.size < sym.scope := by
    have hv₂ := (hl.symbols v).symm.trans hv
    rcases h.added v sym off hv₂ hst with ⟨sym₁, hv₁⟩ | ⟨hb, hor⟩
    · refine .inl ((he.table.fresh v sym₁ hv₁).resolve_right fun hbare => hbare.1 off ?_)
      exact ((h.builds.places v sym₁ sym hv₁ hv₂).1).symm.trans hst
    · refine .inr ⟨hb, ?_⟩
      rcases hor with ⟨hscope, h0, -⟩ | hlt
      · rw [hscope]
        exact he.fresh hs h0
      · exact Nat.lt_of_le_of_lt grown₁ hlt
  have old {v : SymbolId} {sym : Symbol} {off : Int} (hv : s'.result.scopes.symbol? v = some sym)
      (hst : sym.storage = .frame off) (hin : sym.scope ∈ s'.result.scopes.chain s.scope) :
      ∃ old, s.result.scopes.symbol? v = some old := by
    refine (added v sym off hv hst).resolve_right fun hnew => ?_
    rw [builds.chain hs.ordered hs.scope] at hin
    have hle := ScopeTable.le_of_mem_chain hs.ordered hin
    exact absurd (Nat.lt_of_lt_of_le hnew.2 (Nat.le_trans hle hs.scope)) (Nat.lt_irrefl _)
  have hold₂ {v : SymbolId} {sym : Symbol} (hv : s'.result.scopes.symbol? v = some sym) :
      s₂.result.scopes.symbol? v = some sym := (hl.symbols v).symm.trans hv
  refine ⟨⟨hl.tree ▸ hs₂.tree, hl.ordered hs₂.ordered, hl.spaces hs₂.spaces, ?_, fun x sc hx => ?_, fun v sym off hv hst => ?_,
    fun v sym hv hk => hs₂.params v sym (hold₂ hv) hk, fun v sym off fn hv hst hin hfn => ?_, fun q => ?_,
    fun v w a c off hpos ha hc hsta hstc heq => ?_⟩, hl.scope, ?_, builds, fun v sym off hv hst => ?_, fun x => ?_⟩
  · rw [hl.scope]
    exact Nat.le_trans hs.scope (ScopeTable.grows_size builds.grows)
  · obtain ⟨hle, q, hq, hqs, hap⟩ := hs₂.nodes x sc (hl.nodeScope ▸ hx)
    exact ⟨Nat.le_trans hle grown', q, hl.nodeSeq ▸ hq, hl.seq ▸ hqs,
      hl.builds.apart hs₂.ordered hle (fun _ v sym hv => ⟨sym, hold₂ hv.here⟩) hap⟩
  · obtain ⟨hkind, hal⟩ := hs₂.frames v sym off (hold₂ hv) hst
    exact ⟨hkind, hl.builds.allotted hs₂.ordered (.refl _) hal⟩
  · rw [hl.scope] at hin
    obtain ⟨old, hvold⟩ := old hv hst hin
    have hst' := (builds.places v old sym hvold hv).1 ▸ hst
    have hal := (hs.frames v old off hvold hst').2
    rw [(builds.symbol hvold hv).scope] at hin hfn
    rw [builds.chain hs.ordered hs.scope] at hin
    rw [builds.funcScope hs.ordered hal.place] at hfn
    obtain ⟨fn₀, hfn₀, -⟩ := ScopeTable.funcScope_scope? hal.func
    rw [hl.tops _ fn₀ fn hfn₀ hfn]
    exact hs.tops v old off fn₀ hvold hst' hin hfn₀
  · rw [hl.scope]
    exact builds.apart hs.ordered hs.scope (fun off v sym hv => old hv.here hv.frame hv.around) (hs.apart q)
  · have hala := (hs₂.frames v a off (hold₂ ha) hsta).2
    have halc := (hs₂.frames w c off (hold₂ hc) hstc).2
    rw [hl.builds.funcScope hs₂.ordered hala.place, hl.builds.funcScope hs₂.ordered halc.place] at heq
    exact hs₂.args v w a c off hpos (hold₂ ha) (hold₂ hc) hsta hstc heq
  · have hseq := h.seq
    rw [hl.seq]
    exact he.seq ▸ hseq
  · exact (added v sym off hv hst).imp_right fun hnew => ⟨hnew.1, .inr hnew.2⟩
  · rw [hl.nodeScope, hl.nodeSeq, ← he.nodeScope, ← he.nodeSeq]
    refine (h.nodes x).imp_right ?_
    rintro ⟨sc, q, hx, hq, hb, hsub⟩
    refine ⟨sc, q, hx, hq, hb, fun c hc => ?_⟩
    have hle₁ := hs₁.scope
    rw [hl.builds.chain hs₂.ordered (hs₂.nodes x sc hx).1]
    rw [builds.chain hs.ordered hs.scope] at hc
    refine hsub ?_
    rw [h.builds.chain hs₁.ordered hle₁, he.chain hs]
    exact List.mem_cons_of_mem _ hc

end Analysis

end TreeCompiler
