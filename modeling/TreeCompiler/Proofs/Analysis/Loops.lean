import TreeCompiler.Proofs.Analysis.Coverage
import TreeCompiler.Proofs.Diagnostic.Sink
import TreeCompiler.Proofs.Tree.Circle

/-!
# Loops and what controls them

A `break` or `continue` controls the innermost loop around it, or the innermost one with its label. Functions are not looked
through.

* `Tree.Encloses`, `Tree.target?` : the loops around a statement, and the one that it controls;
* `Analysis.Told` : every statement below a node that controls no loop has been reported;
* `Analysis.Tells` : a part of the declaration pass after which that holds of the nodes it came to. Reports are never taken
  back from the history, so each part only owes its own nodes;
* `Tree.analyze_controls` : in an accepted unit, every such statement controls a loop.
-/

namespace TreeCompiler

/-! ## Loops around a statement -/

/-- The statements that a statement is made of, each with the loop that it opens around them. -/
def Node.inner (t : Tree) (id : NodeId) (n : Node) : List (NodeId × List NodeId) :=
  match n.kind with
  | .file | .nameSpace | .block => n.list.map (·, [])
  | .ifStmt => [(n.b, []), (n.c, [])]
  | .whileLoop | .eachLoop => [(n.b, [id])]
  | .forLoop => [(n.a, []), (n.c, []), (n.d, [id])]
  | .matchStmt => n.list.map fun c => (((t.get? c).map (·.a)).getD 0, [])
  | _ => []

/-- The statement controls a loop. -/
def Node.isLoopControl (n : Node) : Prop := n.kind = .breakStmt ∨ n.kind = .continueStmt

/-- A statement with the first label controls a loop with the second one. -/
def Controls (label loop : String) : Prop := label = "" ∨ loop = label

instance (label loop : String) : Decidable (Controls label loop) := inferInstanceAs (Decidable (_ ∨ _))

namespace Tree

/-- The loops around a statement below another one, the innermost first. Functions are not entered. -/
inductive Encloses (t : Tree) : NodeId → List NodeId → NodeId → Prop
  | here (id : NodeId) : Encloses t id [] id
  | inner {id c k : NodeId} {n : Node} {own loops : List NodeId} (hn : t.get? id = some n) (hc : (c, own) ∈ n.inner t id)
      (h : Encloses t c loops k) : Encloses t id (loops ++ own) k

def label (t : Tree) (id : NodeId) : String := ((t.get? id).map (·.label)).getD ""

/-- The loop that a statement with this label controls. -/
def target? (t : Tree) (loops : List NodeId) (label : String) : Option NodeId :=
  loops.find? fun l => Controls label (t.label l)

theorem Encloses.of_inner {t : Tree} {id c k : NodeId} {own loops : List NodeId} {l : List (NodeId × List NodeId)}
    (hl : (t.get? id).map (·.inner t id) = some l) (hc : (c, own) ∈ l) (h : t.Encloses c loops k) :
    t.Encloses id (loops ++ own) k := by
  obtain ⟨n, hn, rfl⟩ := Option.map_eq_some_iff.1 hl
  exact .inner hn hc h

theorem ne_zero_of_encloses {t : Tree} {id k : NodeId} {loops : List NodeId} {m : Node} (h : t.Encloses id loops k)
    (hk : t.get? k = some m) : id ≠ 0 := by
  rintro rfl
  cases h with
  | here => cases hk
  | inner hn => cases hn

end Tree

theorem Node.slot_or {n : Node} {c : NodeId} (hc : c = n.a ∨ c = n.b ∨ c = n.c ∨ c = n.d) : c = 0 ∨ c ∈ n.children :=
  Tree.mem_slots (Tree.mem_slots_iff.2 (.inl hc))

theorem Node.list_or {n : Node} {c : NodeId} (hc : c ∈ n.list) : c = 0 ∨ c ∈ n.children :=
  Tree.mem_slots (Tree.mem_slots_iff.2 (.inr (.inr hc)))

/-- The report of a statement that controls no loop, outside of all loops or not. -/
def Node.stray (m : Node) (outside : Prop) [Decidable outside] : Diagnostic :=
  let what := if m.kind = .continueStmt then "continue" else "break"
  let p : Problem := if outside then .loopControlOutside what else .unknownLabel what m.label
  { severity := .error, code := p.code, message := p.message, span := m.span }

theorem Node.stray_congr {m : Node} {p q : Prop} [Decidable p] [Decidable q] (h : p ↔ q) : m.stray p = m.stray q := by
  unfold Node.stray
  simp only [h]

namespace Analysis

variable {α β : Type} {t : Tree} {d : Nat} {s s₁ s' : Analysis}

/-- Every statement below `p.1` that controls no loop, neither one below `p.1` nor one of those with the labels `p.2` around
it, was reported while `d` buffers were open. -/
def Told (t : Tree) (d : Nat) (s : Analysis) (p : NodeId × List String) : Prop :=
  ∀ loops k m, t.Encloses p.1 loops k → t.get? k = some m → m.isLoopControl → t.target? loops m.label = none →
    (∀ l ∈ p.2, ¬Controls m.label l) → ⟨d, m.stray (loops = [] ∧ p.2 = [])⟩ ∈ s.sink.history

/-- The body of a function is outside of the loops around the function. -/
def BodyTold (t : Tree) (d : Nat) (s : Analysis) (id : NodeId) : Prop :=
  ∀ n, t.get? id = some n → Told t d s (n.b, [])

/-- Nothing is taken back, and the functions that were met have told of their bodies. -/
structure Gains (t : Tree) (d : Nat) (s s' : Analysis) : Prop where
  history : ∀ r ∈ s.sink.history, r ∈ s'.sink.history
  funcs : ∀ fn info, s'.funcs.get? fn = some info →
    (∃ old, s.funcs.get? fn = some old ∧ old.node = info.node) ∨ BodyTold t d s' info.node

theorem Told.gain {p : NodeId × List String} (h : Told t d s p) (hg : Gains t d s s') : Told t d s' p :=
  fun loops k m hin hm hk hnone hls => hg.history _ (h loops k m hin hm hk hnone hls)

theorem Gains.refl (t : Tree) (d : Nat) (s : Analysis) : Gains t d s s := ⟨fun _ h => h, fun _ info h => .inl ⟨info, h, rfl⟩⟩

theorem Gains.trans (h : Gains t d s s₁) (h' : Gains t d s₁ s') : Gains t d s s' where
  history r hr := h'.history r (h.history r hr)
  funcs fn info hi := by
    rcases h'.funcs fn info hi with ⟨old, hold, hnode⟩ | htold
    · rcases h.funcs fn old hold with ⟨older, holder, hnode'⟩ | htold
      · exact .inl ⟨older, holder, hnode'.trans hnode⟩
      · exact .inr fun n hn => (htold n (hnode ▸ hn)).gain h'
    · exact .inr htold

/-- More is learned of a function that was met before. -/
theorem Gains.learn {fn : SymbolId} {info info' : FuncInfo} (hinfo : s.funcs.get? fn = some info)
    (hnode : info.node = info'.node) : Gains t d s { s with funcs := s.funcs.insert fn info' } := by
  refine ⟨fun _ h => h, fun f i hi => .inl ?_⟩
  rw [IdMap.get?_insert] at hi
  split at hi
  · cases hi
    subst f
    exact ⟨info, hinfo, hnode⟩
  · exact ⟨i, hi, rfl⟩

theorem told_zero {id : NodeId} {ls : List String} (h0 : id = 0) : Told t d s (id, ls) :=
  fun _ _ _ hin hm => absurd h0 (Tree.ne_zero_of_encloses hin hm)

/-- A statement owes what it is made of, and its own report. -/
theorem told_of_inner {id : NodeId} {n : Node} {ls : List String} (hn : t.get? id = some n)
    (hown : n.isLoopControl → (∀ l ∈ ls, ¬Controls n.label l) → ⟨d, n.stray (ls = [])⟩ ∈ s.sink.history)
    (hinner : ∀ p ∈ n.inner t id, Told t d s (p.1, p.2.map t.label ++ ls)) : Told t d s (id, ls) := by
  intro loops k m hin hm hk hnone hls
  cases hin with
  | here =>
    cases hn.symm.trans hm
    rw [Node.stray_congr (q := ls = []) (by simp)]
    exact hown hk hls
  | @inner _ c _ n' own loops hn' hc hbelow =>
    cases hn.symm.trans hn'
    obtain ⟨hbelow', hopen⟩ : t.target? loops m.label = none ∧ t.target? own m.label = none := by
      rw [Tree.target?, List.find?_append, Option.or_eq_none_iff] at hnone
      exact hnone
    have hreport := hinner (c, own) hc loops k m hbelow hm hk hbelow' fun l hl => by
      rcases List.mem_append.1 hl with hl | hl
      · obtain ⟨x, hx, rfl⟩ := List.mem_map.1 hl
        simpa using List.find?_eq_none.1 hopen x hx
      · exact hls l hl
    rw [Node.stray_congr (q := loops = [] ∧ own.map t.label ++ ls = []) (by simp [and_assoc])]
    exact hreport

/-- A place of the pass: the nodes that are under declaration, the open buffers, and the labels of the loops around. -/
structure Level where
  tree : Tree
  busy : NodeId → Bool
  depth : Nat
  loops : List String

structure Level.At (K : Level) (s : Analysis) : Prop where
  tree : K.tree.Retyped s.result.tree
  busy : ∀ id, s.declaring.contains id = K.busy id
  depth : s.sink.depth = K.depth
  loops : s.loops = K.loops

/-- The level that the pass is at. -/
def level (s : Analysis) : Level where
  tree := s.result.tree
  busy := s.declaring.contains
  depth := s.sink.depth
  loops := s.loops

theorem at_level (s : Analysis) : s.level.At s := ⟨.refl _, fun _ => rfl, rfl, rfl⟩

/-- The computation comes back to its level, and has told of some nodes. -/
def Tells (K : Level) (m : AnalysisM α) (l : List (NodeId × List String)) : Prop :=
  ∀ s a s', K.At s → m s = .ok a s' → K.At s' ∧ Gains K.tree K.depth s s' ∧ ∀ p ∈ l, Told K.tree K.depth s' p

/-- The computation owes no node. -/
class Clear (K : Level) (m : AnalysisM α) : Prop where
  tells : Tells K m []

namespace Tells

variable {K : Level} {l l' : List (NodeId × List String)}

theorem seq {x : AnalysisM α} {f : α → AnalysisM β} (hx : Tells K x l) (hf : ∀ a, Tells K (f a) l') :
    Tells K (x >>= f) (l ++ l') := by
  intro s b s' hs h
  obtain ⟨a, s₁, h₁, h₂⟩ := bind_ok h
  obtain ⟨hs₁, hg₁, hl⟩ := hx s a s₁ hs h₁
  obtain ⟨hs', hg₂, hl'⟩ := hf a s₁ b s' hs₁ h₂
  refine ⟨hs', hg₁.trans hg₂, fun p hp => ?_⟩
  rcases List.mem_append.1 hp with hp | hp
  · exact (hl p hp).gain hg₂
  · exact hl' p hp

/-- The first part comes to one node. -/
theorem cons {p : NodeId × List String} {x : AnalysisM α} {f : α → AnalysisM β} (hx : Tells K x [p])
    (hf : ∀ a, Tells K (f a) l) : Tells K (x >>= f) (p :: l) := seq hx hf

theorem mono {m : AnalysisM α} (h : Tells K m l) (hl : ∀ p ∈ l', p ∈ l) : Tells K m l' := by
  intro s a s' hs hm
  obtain ⟨hs', hg, htold⟩ := h s a s' hs hm
  exact ⟨hs', hg, fun p hp => htold p (hl p hp)⟩

/-- The first part comes to no node. -/
theorem skip {x : AnalysisM α} {f : α → AnalysisM β} (hx : Tells K x []) (hf : ∀ a, Tells K (f a) l) : Tells K (x >>= f) l :=
  seq hx hf

/-- The first part is found by instance. -/
theorem bind {x : AnalysisM α} {f : α → AnalysisM β} [hx : Clear K x] (hf : ∀ a, Tells K (f a) l) : Tells K (x >>= f) l :=
  seq hx.tells hf

/-- So is what follows. -/
theorem last {x : AnalysisM α} {f : α → AnalysisM β} (hx : Tells K x l) (hf : ∀ a, Clear K (f a)) : Tells K (x >>= f) l :=
  (seq hx fun a => (hf a).tells).mono fun p hp => by simpa using hp

theorem nil (m : AnalysisM α) [h : Clear K m] : Tells K m [] := h.tells

theorem quiet {m : AnalysisM α} (h : Tells K m l) : Tells K m [] := h.mono (List.forall_mem_nil _)

theorem of_told {m : AnalysisM α} (h : Tells K m []) (hl : ∀ p ∈ l, ∀ s, Told K.tree K.depth s p) : Tells K m l := by
  intro s a s' hs hm
  obtain ⟨hs', hg, -⟩ := h s a s' hs hm
  exact ⟨hs', hg, fun p hp => hl p hp s'⟩

/-- What a statement is made of, when it is no loop control itself. -/
theorem assemble {m : AnalysisM α} {id : NodeId} {n : Node} {ls : List String} (h : Tells K m l)
    (hn : K.tree.get? id = some n) (hk : ¬n.isLoopControl)
    (hl : ∀ p ∈ n.inner K.tree id, (p.1, p.2.map K.tree.label ++ ls) ∈ l) : Tells K m [(id, ls)] := by
  intro s a s' hs hm
  obtain ⟨hs', hg, htold⟩ := h s a s' hs hm
  refine ⟨hs', hg, fun p hp => ?_⟩
  obtain rfl := List.mem_singleton.1 hp
  exact told_of_inner hn (fun hcontrol => absurd hcontrol hk) fun p hp => htold _ (hl p hp)

theorem ite {c : Prop} [Decidable c] {x y : AnalysisM α} (hx : c → Tells K x l) (hy : ¬c → Tells K y l) :
    Tells K (if c then x else y) l := by
  split
  · exact hx ‹_›
  · exact hy ‹_›

theorem get_bind {f : Analysis → AnalysisM β} (h : ∀ s, K.At s → Tells K (f s) l) : Tells K (get >>= f) l :=
  fun s b s' hs hm => h s hs s b s' hs hm

theorem node_bind {id : NodeId} {f : Node → AnalysisM β}
    (h : ∀ n n', K.tree.get? id = some n → n.Retyped n' → Tells K (f n') l) : Tells K (node id >>= f) l := by
  intro s b s' hs hm
  obtain ⟨n', s₁, h₁, h₂⟩ := bind_ok hm
  obtain ⟨rfl, hn'⟩ := node_ok h₁
  obtain ⟨n, hn, hr⟩ := hs.tree.original hn'
  exact h n n' hn hr _ b s' hs h₂

theorem forM {f : α → AnalysisM PUnit} {g : α → List (NodeId × List String)} (xs : List α)
    (h : ∀ x ∈ xs, Tells K (f x) (g x)) : Tells K (xs.forM f) (xs.flatMap g) := by
  induction xs with
  | nil =>
    intro s a s' hs hm
    cases hm
    exact ⟨hs, .refl .., List.forall_mem_nil _⟩
  | cons x xs ih => exact seq (h x (List.mem_cons_self ..)) fun _ => ih fun y hy => h y (List.mem_cons_of_mem x hy)

/-- A loop whose body always goes on. -/
theorem forIn {f : α → PUnit → AnalysisM (ForInStep PUnit)} {g : α → List (NodeId × List String)} (xs : List α)
    (h : ∀ x ∈ xs, ∃ m : AnalysisM Unit, f x ⟨⟩ = (do m; pure (.yield ⟨⟩)) ∧ Tells K m (g x)) :
    Tells K (forIn xs ⟨⟩ f) (xs.flatMap g) := by
  induction xs with
  | nil => exact forM (f := fun _ : α => (pure ⟨⟩ : AnalysisM PUnit)) [] (List.forall_mem_nil _)
  | cons x xs ih =>
    obtain ⟨m, hm, htells⟩ := h x (List.mem_cons_self ..)
    rw [List.forIn_cons, hm, bind_assoc]
    exact seq htells fun _ => ih fun y hy => h y (List.mem_cons_of_mem x hy)

/-- Parts that come to no node. -/
theorem parts {f : NodeId → Nat → AnalysisM Unit} (cs : List NodeId) (h : ∀ c ∈ cs, ∀ i, Tells K (f c i) []) :
    Tells K (ForIn.forIn cs.zipIdx PUnit.unit fun x _ => do
      f x.1 x.2
      pure (ForInStep.yield PUnit.unit)) [] := by
  have hall := @forIn _ K (fun x _ => do f x.1 x.2; pure (ForInStep.yield PUnit.unit)) (fun _ => []) cs.zipIdx fun x hx =>
    ⟨f x.1 x.2, rfl, h x.1 (List.fst_mem_of_mem_zipIdx hx) x.2⟩
  exact hall.mono (List.forall_mem_nil _)

end Tells

/-! ### Parts that come to no node -/

/-- Nothing that the pass keeps track of here is changed. -/
structure Keeps (s s' : Analysis) : Prop where
  tree : ∀ t : Tree, t.Retyped s.result.tree → t.Retyped s'.result.tree
  declaring : s'.declaring = s.declaring
  depth : s'.sink.depth = s.sink.depth
  loops : s'.loops = s.loops
  history : ∀ r ∈ s.sink.history, r ∈ s'.sink.history
  funcs : s'.funcs = s.funcs

theorem Keeps.at_level {K : Level} (h : Keeps s s') (hs : K.At s) : K.At s' :=
  ⟨h.tree _ hs.tree, fun id => h.declaring ▸ hs.busy id, h.depth.trans hs.depth, h.loops.trans hs.loops⟩

theorem Keeps.gains (h : Keeps s s') : Gains t d s s' := ⟨h.history, fun _ info hi => .inl ⟨info, h.funcs ▸ hi, rfl⟩⟩

namespace Clear

variable {K : Level}

theorem of_modifyGet {f : Analysis → α × Analysis} (h : ∀ s, Keeps s (f s).2) : Clear K (modifyGet f) := by
  refine ⟨fun s a s' hs hm => ?_⟩
  cases hm
  exact ⟨(h s).at_level hs, (h s).gains, List.forall_mem_nil _⟩

theorem of_keeps {m : AnalysisM α} (h : ∀ s a s', m s = .ok a s' → s' = s) : Clear K m := by
  refine ⟨fun s a s' hs hm => ?_⟩
  obtain rfl := h s a s' hm
  exact ⟨hs, .refl .., List.forall_mem_nil _⟩

theorem bind {x : AnalysisM α} {f : α → AnalysisM β} [hx : Clear K x] (hf : ∀ a, Clear K (f a)) : Clear K (x >>= f) :=
  ⟨hx.tells.seq fun a => (hf a).tells⟩

instance {x : AnalysisM α} {f : α → AnalysisM β} [Clear K x] [hf : ∀ a, Clear K (f a)] : Clear K (x >>= f) := bind hf

instance (a : α) : Clear K (pure a : AnalysisM α) := of_keeps fun s b s' h => by cases h; rfl

instance : Clear K (get : AnalysisM Analysis) := of_keeps fun s b s' h => by cases h; rfl

instance (e : AnalysisFailure) : Clear K (throw e : AnalysisM α) := of_keeps fun s b s' h => by cases h

instance {x : AnalysisM α} {f : α → β} [Clear K x] : Clear K (f <$> x) :=
  bind fun a => inferInstanceAs (Clear K (pure (f a)))

instance {x : AnalysisM α} [Clear K x] : Clear K (discard x) := inferInstanceAs (Clear K ((fun _ => PUnit.unit) <$> x))

instance {c : Prop} [Decidable c] {x y : AnalysisM α} [Clear K x] [Clear K y] : Clear K (if c then x else y) := by
  split <;> infer_instance

theorem ite {c : Prop} [Decidable c] {x y : AnalysisM α} (hx : c → Clear K x) (hy : ¬c → Clear K y) :
    Clear K (if c then x else y) := by
  split
  · exact hx ‹_›
  · exact hy ‹_›

theorem note {f : Analysis → Analysis} (h : ∀ s, (f s).result.tree = s.result.tree ∧ (f s).declaring = s.declaring ∧
    (f s).sink = s.sink ∧ (f s).loops = s.loops ∧ (f s).funcs = s.funcs) : Clear K (modify f) := by
  refine of_modifyGet fun s => ?_
  obtain ⟨htree, hdecl, hsink, hloops, hfuncs⟩ := h s
  exact ⟨fun _ ht => htree.symm ▸ ht, hdecl, congrArg Sink.depth hsink, hloops, fun _ hr => hsink.symm ▸ hr, hfuncs⟩

theorem noteResult {f : AnalysisResult → AnalysisResult} (h : ∀ r, (f r).tree = r.tree) : Clear K (modifyResult f) :=
  note fun s => ⟨h s.result, rfl, rfl, rfl, rfl⟩

instance (f : ScopeTable → ScopeTable) : Clear K (modifyScopes f) := noteResult fun _ => rfl

instance (f : ScopeTable → α × ScopeTable) : Clear K (withScopes f) :=
  of_modifyGet fun _ => ⟨fun _ h => h, rfl, rfl, rfl, fun _ h => h, rfl⟩

instance : Clear K tree := by unfold tree; infer_instance

instance : Clear K types := by unfold types; infer_instance

instance : Clear K scopes := by unfold scopes; infer_instance

instance (id : NodeId) (cause : InternalCause) : Clear K (internal id cause : AnalysisM α) := by
  unfold internal; infer_instance

instance (id : NodeId) : Clear K (node id) := by
  unfold node
  refine bind fun t => ?_
  split <;> infer_instance

instance (id : SymbolId) : Clear K (symbol id) := by
  unfold symbol
  refine bind fun t => ?_
  split <;> infer_instance

instance (id : ScopeId) : Clear K (scopeInfo id) := by
  unfold scopeInfo
  refine bind fun t => ?_
  split <;> infer_instance

instance (id : NodeId) : Clear K (spanOf id) := by unfold spanOf; infer_instance

instance (id : NodeId) : Clear K (seqOf id) := by unfold seqOf; infer_instance

instance (type : TypeId) : Clear K (isResolved type) := by unfold isResolved; infer_instance

instance (text : String) : Clear K (internName text) := by unfold internName; infer_instance

instance (id : NodeId) (scope : ScopeId) : Clear K (setScope id scope) := note fun _ => ⟨rfl, rfl, rfl, rfl, rfl⟩

theorem depth_report (k : Sink) (diag : Diagnostic) : (k.report diag).depth = k.depth := by
  unfold Sink.report Sink.pass Sink.deliver Sink.depth
  split
  · split <;> rfl
  · simp_all [Sink.record]

instance (p : Problem) (span : Span) (notes : List Note) : Clear K (reportWith p span notes) :=
  of_modifyGet fun _ => ⟨fun _ h => h, rfl, depth_report .., rfl,
    fun r hr => by rw [Sink.history_report]; exact List.mem_append_left _ hr, rfl⟩

instance (p : Problem) (span : Span) : Clear K (report p span) := by unfold report; infer_instance

instance (id : NodeId) (type : TypeId) : Clear K (finish id type) := by
  have hset (c : Node → Bool) : Clear K (modifyNode id fun n => { n with valueType := type, completed := c n }) :=
    of_modifyGet fun _ => ⟨fun _ ht => ht.modify id fun n => ⟨type, c n, rfl⟩, rfl, rfl, rfl, fun _ h => h, rfl⟩
  have := hset fun _ => true
  have : Clear K (modifyNode id fun n => { n with valueType := type }) := hset fun n => n.completed
  have : Clear K (modify fun s : Analysis => { s with progress := true }) := note fun _ => ⟨rfl, rfl, rfl, rfl, rfl⟩
  have : Clear K (modify fun s : Analysis => { s with pending := s.pending + 1 }) := note fun _ => ⟨rfl, rfl, rfl, rfl, rfl⟩
  unfold finish
  infer_instance

instance (name : String) (span : Span) (prev : SymbolId) : Clear K (reportRedeclared name span prev) := by
  unfold reportRedeclared; infer_instance

instance (static : Bool) : Clear K (newStorage static) := by
  unfold newStorage
  refine bind fun s => ?_
  split <;> infer_instance

instance : Clear K inFunction := by unfold inFunction; infer_instance

instance (scope : ScopeId) (sym : Symbol) : Clear K (bindIn scope sym) := by
  unfold bindIn
  refine bind fun tab => ?_
  split <;> infer_instance

instance (sym : Symbol) : Clear K (bindSymbol sym) := by unfold bindSymbol; infer_instance

instance (id : NodeId) (sym : SymbolId) : Clear K (setDecl id sym) := noteResult fun _ => rfl

instance (owner : NodeId) (name : String) : Clear K (declareLocal owner name) := by
  unfold declareLocal
  refine bind fun _ => bind fun _ => bind fun _ => bind fun _ => ?_
  dsimp only
  split <;> refine bind fun _ => bind fun r => ?_
  all_goals split <;> infer_instance

instance (n : Node) : Clear K (loadNative n) := by
  unfold loadNative
  refine bind fun s => ?_
  split
  · infer_instance
  · infer_instance
  · split <;> infer_instance

instance (n : Node) : Clear K (declareImport n) := by unfold declareImport; infer_instance

end Clear

/-! ## The pass -/

/-- Nothing below the node is under declaration, and it meets no circle. -/
def Level.Free (K : Level) (id : NodeId) : Prop :=
  id = 0 ∨ ¬K.tree.MeetsCircle (fun _ => true) id ∧
    ∀ x, Relation.ReflTransGen (K.tree.Child fun _ => true) id x → K.busy x = false

theorem Level.Free.below {K : Level} {id c : NodeId} {n : Node} (h : K.Free id) (hn : K.tree.get? id = some n)
    (hc : c = 0 ∨ c ∈ n.children) : K.Free c := by
  refine hc.imp_right fun hc => ?_
  have hid : id ≠ 0 := by
    rintro rfl
    cases hn
  obtain ⟨hcircle, hbusy⟩ := h.resolve_left hid
  have hstep : K.tree.Child (fun _ => true) id c := ⟨rfl, n, hn, hc⟩
  exact ⟨fun ⟨x, hx, hloop⟩ => hcircle ⟨x, .head hstep hx, hloop⟩, fun x hx => hbusy x (.head hstep hx)⟩

/-- Inside of a node. -/
def Level.under (K : Level) (id : NodeId) : Level := { K with busy := fun x => x = id || K.busy x }

/-- A child of a node is free while the node is declared. -/
theorem Level.Free.child {K : Level} {id c : NodeId} {n : Node} (h : K.Free id) (hn : K.tree.get? id = some n)
    (hc : c = 0 ∨ c ∈ n.children) : (K.under id).Free c := by
  refine hc.imp_right fun hc => ?_
  have hid : id ≠ 0 := by
    rintro rfl
    cases hn
  obtain ⟨hcircle, hbusy⟩ := h.resolve_left hid
  have hstep : K.tree.Child (fun _ => true) id c := ⟨rfl, n, hn, hc⟩
  refine ⟨fun ⟨x, hx, hloop⟩ => hcircle ⟨x, .head hstep hx, hloop⟩, fun x hx => ?_⟩
  have hne : x ≠ id := by
    rintro rfl
    exact hcircle ⟨_, .refl, .head' hstep hx⟩
  simp only [under, hne, decide_false, Bool.false_or]
  exact hbusy x (.head hstep hx)

/-- What the pass does with a child that is free, inside of any loops. -/
def Level.Visits (K : Level) (self : NodeId → AnalysisM Unit) : Prop :=
  ∀ loops c, K.Free c → Tells { K with loops } (self c) [(c, loops)]

section Combinators

variable {K : Level} {l : List (NodeId × List String)} {step : AnalysisM Unit}

theorem Tells.withScope (h : Tells K step l) (scope : ScopeId) : Tells K (withScope scope step) l := by
  have (scope : ScopeId) : Clear K (modify fun s : Analysis => { s with scope }) := .note fun _ => ⟨rfl, rfl, rfl, rfl, rfl⟩
  unfold Analysis.withScope
  exact .bind fun s => .bind fun _ => h.last fun _ => inferInstance

theorem Tells.inBlock (h : Tells K step l) (id : NodeId) : Tells K (inBlock id step) l := by
  unfold Analysis.inBlock
  exact .bind fun span => .bind fun s => .bind fun block => .bind fun _ => (h.withScope block).last fun _ => inferInstance

theorem Tells.inLoop {label : String} (h : Tells { K with loops := label :: K.loops } step l) :
    Tells K (inLoop label step) l := by
  intro s a s' hs hm
  obtain ⟨_, s₁, hopen, h₁⟩ := bind_ok hm
  obtain ⟨_, s₂, hstep, hclose⟩ := bind_ok h₁
  cases hopen
  cases hclose
  have hopened : ({ K with loops := label :: K.loops } : Level).At { s with loops := label :: s.loops } :=
    ⟨hs.tree, hs.busy, hs.depth, congrArg (label :: ·) hs.loops⟩
  obtain ⟨hs₂, hg, hl⟩ := h _ _ _ hopened hstep
  have hclosed : K.At { s₂ with loops := s₂.loops.tail } := ⟨hs₂.tree, hs₂.busy, hs₂.depth, by rw [hs₂.loops]; rfl⟩
  exact ⟨hclosed, ⟨hg.history, hg.funcs⟩, hl⟩

theorem Tells.outsideLoops (h : Tells { K with loops := [] } step l) : Tells K (outsideLoops step) l := by
  intro s a s' hs hm
  obtain ⟨_, _, hget, h₁⟩ := bind_ok hm
  cases hget
  obtain ⟨_, s₁, hopen, h₂⟩ := bind_ok h₁
  obtain ⟨_, s₂, hstep, hclose⟩ := bind_ok h₂
  cases hopen
  cases hclose
  have hopened : ({ K with loops := [] } : Level).At { s with loops := [] } := ⟨hs.tree, hs.busy, hs.depth, rfl⟩
  obtain ⟨hs₂, hg, hl⟩ := h _ _ _ hopened hstep
  have hclosed : K.At { s₂ with loops := s.loops } := ⟨hs₂.tree, hs₂.busy, hs₂.depth, hs.loops⟩
  exact ⟨hclosed, ⟨hg.history, hg.funcs⟩, hl⟩

/-- A function is entered before its body is declared. -/
theorem Tells.enterFunc {id : NodeId} {fn : SymbolId} {n : Node} (hn : K.tree.get? id = some n)
    (h : Tells K step [(n.b, [])]) : Tells K (do
      modify fun s => { s with funcs := s.funcs.insert fn { node := id }, bodies := s.bodies.push fn }
      step) [(n.b, [])] := by
  intro s a s' hs hm
  obtain ⟨_, s₁, henter, hstep⟩ := bind_ok hm
  cases henter
  have hentered : K.At { s with funcs := s.funcs.insert fn { node := id }, bodies := s.bodies.push fn } :=
    ⟨hs.tree, hs.busy, hs.depth, hs.loops⟩
  obtain ⟨hs', hg, hl⟩ := h _ _ _ hentered hstep
  have hbody : BodyTold K.tree K.depth s' id := fun n' hn' => by
    cases hn.symm.trans hn'
    exact hl _ (List.mem_singleton_self _)
  refine ⟨hs', ⟨hg.history, fun f info hi => ?_⟩, hl⟩
  rcases hg.funcs f info hi with ⟨old, hold, hnode⟩ | htold
  · rw [IdMap.get?_insert] at hold
    split at hold
    · cases hold
      exact .inr (hnode ▸ hbody)
    · exact .inl ⟨old, hold, hnode⟩
  · exact .inr htold

end Combinators

section Nodes

variable {K : Level} {self : NodeId → AnalysisM Unit} (hself : K.Visits self)
include hself

theorem self_tells {c : NodeId} (hc : K.Free c) : Tells K (self c) [(c, K.loops)] := hself K.loops c hc

theorem list_tells {cs : List NodeId} (hcs : ∀ c ∈ cs, K.Free c) : Tells K (cs.forM self) (cs.map (·, K.loops)) :=
  (Tells.forM cs fun c hc => self_tells hself (hcs c hc)).mono fun p hp => by
    simpa [eq_comm] using hp

theorem declareNested_tells {c : NodeId} (hc : K.Free c) : Tells K (declareNested self c) [(c, K.loops)] := by
  have h := self_tells hself hc
  unfold declareNested
  refine .ite (fun h0 => ?_) fun _ => .bind fun t => .ite (fun _ => h) fun _ => (h.inBlock c).last fun _ => inferInstance
  refine .of_told (.nil _) fun p hp s => ?_
  obtain rfl := List.mem_singleton.1 hp
  exact told_zero h0

/-- The block of a body is not entered, its statements are. -/
theorem body_tells {fs : ScopeId} {b : NodeId} (hb : K.Free b)
    (hlist : ∀ n, K.tree.get? b = some n → ∀ c ∈ n.list, K.Free c) : Tells K (do
      let body ← node b
      setScope b fs
      if body.kind = .block then body.list.forM self else self b) [(b, K.loops)] := by
  refine .node_bind fun n n' hn hr => .bind fun _ => .ite (fun hk => ?_) fun _ => self_tells hself hb
  obtain ⟨v, w, rfl⟩ := hr
  exact (list_tells hself (hlist n hn)).assemble hn (by rintro (h | h) <;> rw [hk] at h <;> cases h) fun p hp => by
    rw [Node.inner, hk] at hp
    obtain ⟨c, hc, rfl⟩ := List.mem_map.1 hp
    exact List.mem_map.2 ⟨c, hc, rfl⟩

theorem self_clear {c : NodeId} (hc : K.Free c) : Clear K (self c) := ⟨(self_tells hself hc).quiet⟩

/-- A function owes its body. -/
theorem declareFuncBody_tells {id : NodeId} {n : Node} (fn : SymbolId) (hn : K.tree.get? id = some n)
    (hfree : ∀ c, c = 0 ∨ c ∈ n.children → K.Free c) : Tells K (declareFuncBody self id fn) [(n.b, [])] := by
  have hparam (fs : ScopeId) (p : NodeId) (hp : p ∈ n.list) (i : Nat) :
      Tells { K with loops := [] } (declareParam self fs p i) [] := by
    unfold declareParam
    refine .node_bind fun pn pn' hpn hr => ?_
    obtain ⟨v, w, rfl⟩ := hr
    have := (hself [] pn.a ((hfree p (Node.list_or hp)).below hpn (Node.slot_or (.inl rfl)))).quiet
    refine .bind fun _ => .skip this fun _ => .bind fun name => .bind fun seq => .bind fun r => ?_
    split <;> exact .nil _
  have slot {c : NodeId} (hc : c = n.a ∨ c = n.b ∨ c = n.c ∨ c = n.d) : K.Free c := hfree c (Node.slot_or hc)
  unfold declareFuncBody
  refine .node_bind fun n' n'' hn' hr => .bind fun s => .bind fun fs => .bind fun _ => ?_
  cases hn.symm.trans hn'
  obtain ⟨v, w, rfl⟩ := hr
  refine .enterFunc hn (.outsideLoops (.withScope ?_ fs))
  refine .skip (Tells.parts n.list (hparam fs)) fun _ => ?_
  refine .skip (hself [] n.a (slot (.inl rfl))).quiet fun _ => ?_
  refine .skip (hself [] n.c (slot (.inr (.inr (.inl rfl))))).quiet fun _ => ?_
  refine .ite (fun _ => ?_) fun h0 => .of_told (.nil _) fun p hp s => ?_
  · have hb := slot (.inr (.inl rfl))
    exact body_tells (K := { K with loops := [] }) (fun ls => hself ls) hb fun bn hbn c hc => hb.below hbn (Node.list_or hc)
  · obtain rfl := List.mem_singleton.1 hp
    exact told_zero (not_not.1 h0)

section Below

variable {id : NodeId} {n : Node} (hn : K.tree.get? id = some n) (hfree : ∀ c, c = 0 ∨ c ∈ n.children → K.Free c)

include hfree in
theorem enterLet_clear (sym : Symbol) : Clear K (do
    match ← bindSymbol sym with
    | .error prev => reportRedeclared n.name n.span prev
    | .ok symId => do
      setDecl id symId
      if n.isGeneric then return
      if (Attrs.ofFlags n.flags).has .static && (← inFunction) then
        modifyResult fun r => { r with statics := r.statics ++ [{ symbol := symId, init := n.b }] }
      self n.a
      self n.b) := by
  have (symbol : SymbolId) : Clear K (modifyResult fun r => { r with statics := r.statics ++ [{ symbol, init := n.b }] }) :=
    .noteResult fun _ => rfl
  have := self_clear hself (hfree n.a (Node.slot_or (.inl rfl)))
  have := self_clear hself (hfree n.b (Node.slot_or (.inr (.inl rfl))))
  refine .bind fun r => ?_
  split <;> infer_instance

include hfree in
theorem declareLet_clear : Clear K (declareLet self id n) := by
  unfold declareLet
  refine .bind fun name => .ite (fun _ => enterLet_clear hself hfree _) fun _ => .bind fun storage => .bind fun inside => ?_
  exact .ite (fun _ => .bind fun seq => enterLet_clear hself hfree _) fun _ => .bind fun seq => enterLet_clear hself hfree _

include hn hfree in
theorem enterCandidate_clear (sym : Symbol) : Clear K (do
      let s ← get
      match s.result.scopes.declareCandidate s.scope sym with
      | .error prev => reportRedeclared n.name n.span prev
      | .ok (symId, scopes) =>
        modifyResult fun r => { r with scopes, funcs := r.funcs.insert id symId }
        if !n.isGeneric then declareFuncBody self id symId) := by
  have (fn : SymbolId) : Clear K (declareFuncBody self id fn) := ⟨(declareFuncBody_tells hself fn hn hfree).quiet⟩
  have (fn : SymbolId) (scopes : ScopeTable) :
      Clear K (modifyResult fun r => { r with scopes, funcs := r.funcs.insert id fn }) := .noteResult fun _ => rfl
  refine .bind fun s => ?_
  split <;> infer_instance

include hn hfree in
theorem declareFunc_clear : Clear K (declareFunc self id n) := by
  have enter (sym : Symbol) := enterCandidate_clear hself hn hfree sym
  unfold declareFunc
  exact .bind fun name => .ite (fun _ => .bind fun handle => enter _) fun _ => .bind fun handle => enter _

include hn hfree in
theorem declareLiteral_clear : Clear K (declareLiteral self id n) := by
  have (fn : SymbolId) : Clear K (declareFuncBody self id fn) := ⟨(declareFuncBody_tells hself fn hn hfree).quiet⟩
  have (fn : SymbolId) : Clear K (modifyResult fun r => { r with funcs := r.funcs.insert id fn }) := .noteResult fun _ => rfl
  unfold declareLiteral
  infer_instance

include hfree in
theorem declareReturn_clear : Clear K (declareReturn self id n) := by
  have hvalue := self_clear hself (hfree n.a (Node.slot_or (.inl rfl)))
  refine ⟨fun s a s' hs hm => ?_⟩
  obtain ⟨_, _, hget, h₁⟩ := bind_ok hm
  cases hget
  by_cases h0 : s.result.scopes.funcScope s.scope = 0
  · rw [if_pos h0] at h₁
    exact Tells.bind (fun _ => hvalue.tells) s a s' hs h₁
  · rw [if_neg h0] at h₁
    obtain ⟨sc, s₁, hsc, h₂⟩ := bind_ok h₁
    obtain rfl := scopeInfo_ok hsc
    dsimp only at h₂
    cases hinfo : s₁.funcs.get? sc.func with
    | none =>
      rw [hinfo] at h₂
      exact hvalue.tells _ a s' hs h₂
    | some info =>
      rw [hinfo] at h₂
      obtain ⟨_, s₂, hset, h₃⟩ := bind_ok h₂
      cases hset
      have hlearned : K.At { s₁ with funcs := s₁.funcs.insert sc.func { info with returns := info.returns ++ [id] } } :=
        ⟨hs.tree, hs.busy, hs.depth, hs.loops⟩
      obtain ⟨hs', hg, hl⟩ := hvalue.tells _ a s' hlearned h₃
      exact ⟨hs', Gains.trans (.learn hinfo (by rfl)) hg, hl⟩

include hfree in
theorem declareTypeDecl_clear : Clear K (declareTypeDecl self id n) := by
  have := self_clear hself (hfree n.a (Node.slot_or (.inl rfl)))
  unfold declareTypeDecl
  refine .bind fun _ => .bind fun r => ?_
  split <;> infer_instance

include hfree in
theorem declareUnion_clear : Clear K (declareUnion self id n) := by
  have hvariant (union : SymbolId) (ns : ScopeId) (attrs : Attrs) (v : NodeId) (hv : v ∈ n.list) (tag : Nat) :
      Tells K (declareVariant self union ns attrs v tag) [] := by
    unfold declareVariant
    refine .node_bind fun vn vn' hvn hr => ?_
    obtain ⟨x, y, rfl⟩ := hr
    have := self_clear hself ((hfree v (Node.list_or hv)).below hvn (Node.slot_or (.inl rfl)))
    refine .bind fun _ => .bind fun _ => .bind fun _ => .bind fun _ => .bind fun tab => ?_
    dsimp only
    split <;> exact .nil _
  unfold declareUnion
  refine .bind fun _ => .bind fun r => ?_
  split
  · infer_instance
  · rename_i union
    have (ns : ScopeId) := Clear.mk (Tells.parts n.list (hvariant union ns (Attrs.ofFlags n.flags)))
    infer_instance

include hfree in
theorem declareMatch_tells :
    Tells K (declareMatch self id n) (n.list.map fun c => (((K.tree.get? c).map (·.a)).getD 0, K.loops)) := by
  have harm (c : NodeId) (hc : c ∈ n.list) : Tells K (declareArm self c) [(((K.tree.get? c).map (·.a)).getD 0, K.loops)] := by
    unfold declareArm
    refine .node_bind fun cn cn' hcn hr => .bind fun s => .bind fun _ => ?_
    obtain ⟨v, w, rfl⟩ := hr
    rw [hcn]
    have hbody := declareNested_tells hself ((hfree c (Node.list_or hc)).below hcn (Node.slot_or (.inl rfl)))
    refine (Tells.inBlock ?_ c).last fun _ => inferInstance
    exact .ite (fun _ => .bind fun sym => .bind fun _ => hbody) fun _ => hbody
  have mark (c : NodeId) : Clear K (modify fun s : Analysis => { s with matchOf := s.matchOf.insert c id }) :=
    .note fun _ => ⟨rfl, rfl, rfl, rfl, rfl⟩
  have := self_clear hself (hfree n.a (Node.slot_or (.inl rfl)))
  have harms := @Tells.forIn _ K (fun c _ => do
      discard <| node c
      modify fun s => { s with matchOf := s.matchOf.insert c id }
      declareArm self c
      pure (ForInStep.yield PUnit.unit)) (fun c => [(((K.tree.get? c).map (·.a)).getD 0, K.loops)]) n.list fun c hc =>
    ⟨do discard <| node c; modify fun s => { s with matchOf := s.matchOf.insert c id }; declareArm self c,
      by simp only [bind_assoc], .bind fun _ => .bind fun _ => harm c hc⟩
  rw [← List.map_eq_flatMap] at harms
  unfold declareMatch
  exact .bind fun _ => harms.last fun _ => inferInstance

include hfree in
theorem declareFor_tells :
    Tells K (declareFor self id n) [(n.a, K.loops), (n.c, K.loops), (n.d, n.label :: K.loops)] := by
  have slot {c : NodeId} (hc : c = n.a ∨ c = n.b ∨ c = n.c ∨ c = n.d) : K.Free c := hfree c (Node.slot_or hc)
  have := self_clear hself (slot (.inr (.inl rfl)))
  have hbody := declareNested_tells (K := { K with loops := n.label :: K.loops }) (fun ls => hself ls)
    (slot (.inr (.inr (.inr rfl))))
  unfold declareFor
  refine (Tells.inBlock ?_ id).last fun _ => inferInstance
  refine .cons (self_tells hself (slot (.inl rfl))) fun _ => .bind fun _ => ?_
  exact .cons (self_tells hself (slot (.inr (.inr (.inl rfl))))) fun _ => hbody.inLoop

include hfree in
theorem declareForeach_tells : Tells K (declareForeach self id n) [(n.b, n.label :: K.loops)] := by
  have := self_clear hself (hfree n.a (Node.slot_or (.inl rfl)))
  have hbody := (declareNested_tells (K := { K with loops := n.label :: K.loops }) (fun ls => hself ls)
    (hfree n.b (Node.slot_or (.inr (.inl rfl))))).inLoop
  have (key : SymbolId) : Clear K (modifyResult fun r => { r with keys := r.keys.insert id key }) := .noteResult fun _ => rfl
  unfold declareForeach
  refine .bind fun _ => (Tells.inBlock ?_ id).last fun _ => inferInstance
  refine .bind fun sym => .bind fun _ => .ite (fun _ => .bind fun key => .bind fun _ => hbody) fun _ => hbody

include hfree in
theorem declareBlock_tells : Tells K (declareBlock self id n) (n.list.map (·, K.loops)) := by
  unfold declareBlock
  refine ((list_tells hself fun c hc => hfree c (Node.list_or hc)).inBlock id).last fun _ => ?_
  exact Clear.note fun _ => ⟨rfl, rfl, rfl, rfl, rfl⟩

include hfree in
theorem declareNamespace_tells : Tells K (declareNamespace self n) (n.list.map (·, K.loops)) := by
  unfold declareNamespace
  exact .bind fun s => .bind fun ns => (list_tells hself fun c hc => hfree c (Node.list_or hc)).withScope ns

omit hself in
theorem report_told {p : Problem} {span : Span} {s s' : Analysis} {a : Unit} (h : report p span s = .ok a s') :
    ⟨s.sink.depth, { severity := .error, code := p.code, message := p.message, span }⟩ ∈ s'.sink.history := by
  cases h
  rw [Sink.history_report]
  exact List.mem_append_right _ (List.mem_singleton_self _)

omit hself in
include hn in
/-- A statement that controls no loop is reported. -/
theorem checkLoopControl_tells (hk : n.isLoopControl) : Tells K (checkLoopControl n) [(id, K.loops)] := by
  intro s a s' hs hm
  have hclear : Clear K (checkLoopControl n) := by unfold checkLoopControl; infer_instance
  obtain ⟨hs', hg, -⟩ := hclear.tells s a s' hs hm
  refine ⟨hs', hg, fun p hp => ?_⟩
  obtain rfl := List.mem_singleton.1 hp
  refine told_of_inner hn (fun _ hls => ?_) fun p hp => ?_
  · obtain ⟨_, _, hget, h₁⟩ := bind_ok hm
    cases hget
    dsimp only at h₁
    rw [hs.loops] at h₁
    rw [← hs.depth]
    by_cases hempty : K.loops = []
    · rw [if_pos (by simp [hempty])] at h₁
      rw [Node.stray_congr (q := True) (by simp [hempty])]
      exact report_told h₁
    · have hstray : (n.label ≠ "" && !K.loops.contains n.label) = true := by
        obtain ⟨l, hl⟩ := List.exists_mem_of_ne_nil _ hempty
        have hlabel := (not_or.1 (hls l hl)).1
        simpa [hlabel] using fun h => hls _ h (.inr rfl)
      rw [if_neg (by simp [hempty]), if_pos hstray] at h₁
      rw [Node.stray_congr (q := False) (by simp [hempty])]
      exact report_told h₁
  · rcases hk with hk | hk <;> simp [Node.inner, hk] at hp

include hn hfree in
/-- Every kind of node owes the statements that it is made of. -/
theorem declareKind_tells : Tells K (declareKind self id n) [(id, K.loops)] := by
  have slot {c : NodeId} (hc : c = n.a ∨ c = n.b ∨ c = n.c ∨ c = n.d) : K.Free c := hfree c (Node.slot_or hc)
  have hlabel : K.tree.label id = n.label := by rw [Tree.label, hn]; rfl
  have made {m : AnalysisM Unit} {l : List (NodeId × List String)} (hm : Tells K m l) (hk : ¬n.isLoopControl)
      (hinner : (n.inner K.tree id).map (fun p => (p.1, p.2.map K.tree.label ++ K.loops)) = l) : Tells K m [(id, K.loops)] :=
    hm.assemble hn hk fun p hp => hinner ▸ List.mem_map_of_mem hp
  have hlist := list_tells hself fun c hc => hfree c (Node.list_or hc)
  unfold declareKind
  cases hk : n.kind
  case breakStmt => exact checkLoopControl_tells hn (.inl hk)
  case continueStmt => exact checkLoopControl_tells hn (.inr hk)
  case file => exact made hlist (by simp [Node.isLoopControl, hk]) (by simp [Node.inner, hk])
  case nameSpace =>
    exact made (declareNamespace_tells hself hfree) (by simp [Node.isLoopControl, hk]) (by simp [Node.inner, hk])
  case block => exact made (declareBlock_tells hself hfree) (by simp [Node.isLoopControl, hk]) (by simp [Node.inner, hk])
  case ifStmt =>
    have := self_clear hself (slot (.inl rfl))
    have h : Tells K (do self n.a; declareNested self n.b; declareNested self n.c) [(n.b, K.loops), (n.c, K.loops)] :=
      .bind fun _ => .cons (declareNested_tells hself (slot (.inr (.inl rfl)))) fun _ =>
        declareNested_tells hself (slot (.inr (.inr (.inl rfl))))
    exact made h (by simp [Node.isLoopControl, hk]) (by simp [Node.inner, hk])
  case whileLoop =>
    have := self_clear hself (slot (.inl rfl))
    have hbody := declareNested_tells (K := { K with loops := n.label :: K.loops }) (fun ls => hself ls)
      (slot (.inr (.inl rfl)))
    have h : Tells K (do self n.a; inLoop n.label (declareNested self n.b)) [(n.b, n.label :: K.loops)] :=
      .bind fun _ => hbody.inLoop
    exact made h (by simp [Node.isLoopControl, hk]) (by simp [Node.inner, hk, hlabel])
  case forLoop =>
    exact made (declareFor_tells hself hfree) (by simp [Node.isLoopControl, hk]) (by simp [Node.inner, hk, hlabel])
  case eachLoop =>
    exact made (declareForeach_tells hself hfree) (by simp [Node.isLoopControl, hk]) (by simp [Node.inner, hk, hlabel])
  case matchStmt =>
    exact made (declareMatch_tells hself hfree) (by simp [Node.isLoopControl, hk]) (by simp [Node.inner, hk])
  all_goals
    refine made (l := []) (@Tells.nil _ K _ ?_) (by simp [Node.isLoopControl, hk]) (by simp [Node.inner, hk])
  case importing => exact inferInstanceAs (Clear K (declareImport n))
  case letDecl => exact declareLet_clear hself hfree
  case func => exact .ite (fun _ => declareLiteral_clear hself hn hfree) fun _ => declareFunc_clear hself hn hfree
  case typeDecl => exact declareTypeDecl_clear hself hfree
  case unionDecl => exact declareUnion_clear hself hfree
  case returnStmt => exact declareReturn_clear hself hfree
  case intLit | realLit | stringLit | boolLit => exact inferInstanceAs (Clear K (discard (finish id _)))
  all_goals exact ⟨(list_tells hself fun c hc => hfree c (.inr hc)).quiet⟩

end Below

end Nodes

theorem declareKind_retyped {self : NodeId → AnalysisM Unit} {id : NodeId} {n n' : Node} (h : n.Retyped n') :
    declareKind self id n' = declareKind self id n := by
  obtain ⟨v, w, rfl⟩ := h
  rfl

/-- A node is under declaration while its children are declared. -/
theorem Tells.opened {K : Level} {m : AnalysisM Unit} {id : NodeId} {l : List (NodeId × List String)}
    (hid : K.busy id = false) (h : Tells (K.under id) m l) : Tells K (do
      modify fun s => { s with declaring := s.declaring.insert id () }
      setScope id (← get).scope
      m
      modify fun s => { s with declaring := s.declaring.erase id }) l := by
  intro s a s' hs hm
  obtain ⟨_, s₁, hopen, h₁⟩ := bind_ok hm
  cases hopen
  have hs₁ : (K.under id).At { s with declaring := s.declaring.insert id () } :=
    ⟨hs.tree, fun x => by
      rw [Bool.eq_iff_iff, IdMap.contains_insert, hs.busy x]
      simp [Level.under], hs.depth, hs.loops⟩
  have hinside : Tells (K.under id) (do setScope id (← get).scope; m) l := .bind fun s => .bind fun _ => h
  obtain ⟨_, s₂, hrun, hclose⟩ : ∃ u s₂, (do setScope id (← get).scope; m : AnalysisM Unit)
      { s with declaring := s.declaring.insert id () } = .ok u s₂ ∧
      (modify fun s => { s with declaring := s.declaring.erase id } : AnalysisM Unit) s₂ = .ok a s' :=
    bind_ok (by simpa only [bind_assoc] using h₁)
  cases hclose
  obtain ⟨hs₂, hg, hl⟩ := hinside _ _ _ hs₁ hrun
  have hclosed : K.At { s₂ with declaring := s₂.declaring.erase id } :=
    ⟨hs₂.tree, fun x => by
      rw [Bool.eq_iff_iff, IdMap.contains_erase, hs₂.busy x]
      by_cases hx : x = id
      · simp [hx, hid]
      · simp [Level.under, hx], hs₂.depth, hs₂.loops⟩
  exact ⟨hclosed, ⟨hg.history, hg.funcs⟩, hl⟩

theorem declareStep_tells {K : Level} {self : NodeId → AnalysisM Unit} {id : NodeId} (hid : K.Free id)
    (hself : (K.under id).Visits self) : Tells K (declareStep self id) [(id, K.loops)] := by
  unfold declareStep
  refine .get_bind fun s hs => .ite (fun hskip => ?_) fun hskip => .node_bind fun n n' hn hr => ?_
  · have h0 : id = 0 := by
      by_contra hne
      have hfree := (hid.resolve_left hne).2 id .refl
      rw [hs.busy, hfree] at hskip
      simp [hne] at hskip
    refine .of_told (.nil _) fun p hp s => ?_
    obtain rfl := List.mem_singleton.1 hp
    exact told_zero h0
  · rw [declareKind_retyped hr]
    have h0 : id ≠ 0 := by
      rintro rfl
      cases hn
    have hfree : ∀ c, c = 0 ∨ c ∈ n.children → (K.under id).Free c := fun c hc => hid.child hn hc
    exact .opened ((hid.resolve_left h0).2 id .refl) (declareKind_tells hself hn hfree)

theorem declareWith_tells (fuel : Nat) : ∀ (K : Level) id, K.Free id → Tells K (declareWith fuel id) [(id, K.loops)] := by
  induction fuel with
  | zero => exact fun K id _ s a s' _ h => by cases h
  | succ fuel ih => exact fun K id hid => declareStep_tells hid fun loops c hc => ih { K.under id with loops } c hc

theorem declare_tells {K : Level} {id : NodeId} (hid : K.Free id) : Tells K (declare id) [(id, K.loops)] := by
  unfold declare
  exact .bind fun t => declareWith_tells _ K id hid

/-- An instance of a function tells of its body, through the buffers that are open. -/
theorem declareInstance_tells {K : Level} {clone : NodeId} {n : Node} (inst : SymbolId) (args : List TypeId)
    (hn : K.tree.get? clone = some n) (hfree : ∀ c, c = 0 ∨ c ∈ n.children → K.Free c) :
    Tells K (declareInstance .function clone inst args) [(n.b, [])] := by
  have enter : Clear K (modifyResult fun r => { r with funcs := r.funcs.insert clone inst }) := .noteResult fun _ => rfl
  unfold declareInstance
  exact .bind fun _ => .bind fun _ => declareFuncBody_tells (fun loops c hc => declare_tells hc) inst hn hfree

theorem openPass_clear (K : Level) : Clear K (modifyGet fun s : Analysis =>
      let (span, tracer) := s.tracer.start 2 "declare" 0
      (span, { s with tracer })) :=
  .of_modifyGet fun _ => ⟨fun _ h => h, rfl, rfl, rfl, fun _ h => h, rfl⟩

/-- After the first pass the roots and the bodies of the functions have been told of. -/
theorem declarePass_tells {t : Tree} (hcircle : ∀ r ∈ t.roots, ¬t.MeetsCircle (fun _ => true) r) :
    Tells { tree := t, busy := fun _ => false, depth := 0, loops := [] } declarePass (t.roots.map (·, [])) := by
  have hroots := Tells.forM (K := { tree := t, busy := fun _ => false, depth := 0, loops := [] }) t.roots fun r hr =>
    declare_tells (.inr ⟨hcircle r hr, fun _ _ => rfl⟩)
  rw [← List.map_eq_flatMap] at hroots
  have hpass : Tells { tree := t, busy := fun _ => false, depth := 0, loops := [] } (do (← tree).roots.forM declare)
      (t.roots.map (·, [])) := by
    intro s a s' hs hm
    have hm : s.result.tree.roots.forM declare s = .ok a s' := hm
    rw [hs.tree.roots] at hm
    exact hroots s a s' hs hm
  unfold declarePass traced
  have := openPass_clear { tree := t, busy := fun _ => false, depth := 0, loops := [] }
  exact .bind fun span => hpass.last fun _ => .note fun _ => ⟨rfl, rfl, rfl, rfl, rfl⟩

/-! ## The whole analysis -/

/-- What was reported stays in the history. -/
theorem Step.history (h : Step s s') {r : Reported} (hr : r ∈ s.sink.history) : r ∈ s'.sink.history := by
  cases h with
  | report d =>
    rw [Sink.history_report]
    exact List.mem_append_left _ hr
  | openBuffer => exact hr
  | commit hq => rwa [Sink.history_commit]
  | discard => exact hr
  | enter scope h => exact hr
  | edit sink => rwa [sink]
  | arrange sink => rwa [sink]
  | intern types h => exact hr
  | default t ds h => exact hr
  | defer st sink => rwa [sink]
  | learn fn info sink => rwa [sink]

theorem Steps.history (h : Steps s s') {r : Reported} (hr : r ∈ s.sink.history) : r ∈ s'.sink.history := by
  induction h with
  | refl => exact hr
  | tail _ h ih => exact h.history ih

instance : Walks declarePass := Walks.traced _ _ _ fun _ => inferInstance

instance : Walks resolvePass := by
  unfold resolvePass
  exact Walks.bind fun t => Walks.bind fun s => Walks.traced _ _ _ fun _ => inferInstance

end Analysis

/-- The statements that are outside of every other one: the files of a unit, and the bodies of the functions that were met. -/
def Tree.IsOutermost (t : Tree) (s : Analysis) (root : NodeId) : Prop :=
  root ∈ t.roots ∨ ∃ fn info n, s.funcs.get? fn = some info ∧ t.get? info.node = some n ∧ root = n.b

/-- An analysis goes on from where the first pass ended. -/
theorem Tree.analyze_steps_from {t : Tree} {options : AnalysisOptions} {tracer : Tracer} {s : Analysis}
    (h : Analysis.declarePass (.initial t options tracer) = .ok ⟨⟩ s) :
    Analysis.Steps s (t.analyze options tracer).state := by
  have hinit := Analysis.initial_sound t options tracer
  have hsound := (((inferInstance : Analysis.Walks Analysis.declarePass).walks _).of_ok hinit h).sound hinit
  have hsteps := (inferInstance : Analysis.Walks Analysis.resolvePass).walks s hsound
  unfold Analysis.after at hsteps
  unfold Tree.analyze EStateM.run
  rw [Analysis.run_eq, Analysis.bind_apply h]
  cases hrest : Analysis.resolvePass s <;> rw [hrest] at hsteps <;> exact hsteps

/-- In a unit without errors every statement that the first pass comes to controls a loop around it. -/
theorem Tree.analyze_controls {t : Tree} (ht : t.Formed) (hcircle : ∀ r ∈ t.roots, ¬t.MeetsCircle (fun _ => true) r)
    (options : AnalysisOptions) (tracer : Tracer) : ∃ s, Analysis.declarePass (.initial t options tracer) = .ok ⟨⟩ s ∧
      ((t.analyze options tracer).hasErrors = false → ∀ root, t.IsOutermost s root → ∀ loops k m, t.Encloses root loops k →
        t.get? k = some m → m.isLoopControl → ∃ loop, t.target? loops m.label = some loop) := by
  obtain ⟨_, s, hpass, -⟩ := Analysis.declarePass_covers ht _ (Analysis.initial_ready t options tracer)
  have hinit : ({ tree := t, busy := fun _ => false, depth := 0, loops := [] } : Analysis.Level).At
      (.initial t options tracer) :=
    ⟨.refl t, fun id => by simp [Analysis.initial, IdMap.contains, IdMap.get?], rfl, rfl⟩
  obtain ⟨-, hgains, hroots⟩ := Analysis.declarePass_tells hcircle _ _ _ hinit hpass
  refine ⟨s, hpass, fun hquiet root hroot loops k m hin hm hk => ?_⟩
  have htold : Analysis.Told t 0 s (root, []) := by
    rcases hroot with hroot | ⟨fn, info, n, hinfo, hn, rfl⟩
    · exact hroots _ (List.mem_map.2 ⟨root, hroot, rfl⟩)
    · rcases hgains.funcs fn info hinfo with ⟨old, hold, -⟩ | hbody
      · cases hold
      · exact hbody n hn
  by_contra hnone
  have hreport := htold loops k m hin hm hk (Option.eq_none_iff_forall_not_mem.2 fun loop h => hnone ⟨loop, h⟩)
    (List.forall_mem_nil _)
  have herrors := ((t.analyze_hasErrors_iff options tracer).1.2
    ⟨_, Analysis.Steps.history (t.analyze_steps_from hpass) hreport, rfl, rfl⟩)
  rw [hquiet] at herrors
  cases herrors

end TreeCompiler
