import TreeCompiler.Proofs.Analysis.Step
import TreeCompiler.Proofs.Diagnostic.Sink
import TreeCompiler.Proofs.Scope.Instances
import TreeCompiler.Proofs.Scope.Respell
import TreeCompiler.Proofs.Types.Fingerprint

/-!
# Two runs in step

A second run is given the same unit in another spelling, it may nest speculation deeper, and it may leave for later what the
first one reports as not inferable. As long as the first run neither meets its limit nor makes such a report, both take the
same steps: they differ in the spelling of the tree, in the scope table as far as it keeps spellings, and in the wording of
reports.

* `Linked` : how memo keys, instance lists and the requests that were answered hang together;
* `Later` : what every step leaves of a state; it is kept whatever a second run does;
* `Analysis.vary` : a state in another view; `Alike` : what the view may differ in;
* `Lost` : the first run met its limit; `Parted` : it did, or it reported what the second one left for later;
* `AgreeFrom g F s v m m'` : started in `s` and in the view `v` of it, the computations give the same answer and end in views
  of one state again, unless the first met its limit. The nodes of `F` have one spelling in both runs;
* `Agree g F m m'` : the same from every state. Computations that agree are closed under the control structures of the monad.
-/

namespace TreeCompiler

/-- What a second run may differ in: the spelling of names and the depth of its speculation. -/
structure Guise extends Dialect where
  depth : Nat

/-- What the second of two sweeps may differ in besides: it may be lenient where the first is strict, and have another limit of
sweeps, which no step of a sweep looks at. -/
structure Pace extends Guise where
  lenient : Bool := false
  sweeps : Option Nat := none

namespace Analysis

/-! ## What lasts -/

/-- Every generic has one instance for each key and one key for each instance, and what a request got is an instance of its
generic under the key of its arguments. -/
structure Linked (s : Analysis) : Prop where
  issues : s.prints.Issues
  keys : ∀ gen, ((s.result.scopes.instancesOf gen).map (·.1)).Nodup
  insts : ∀ gen, ((s.result.scopes.instancesOf gen).map (·.2)).Nodup
  known : ∀ gen, ∀ e ∈ s.result.scopes.instancesOf gen, e.2 ≤ s.result.scopes.symbols.size
  requests : ∀ r ∈ s.requests, ∃ key, (key, r.inst) ∈ s.result.scopes.instancesOf r.generic ∧ s.prints.Keyed r.args key

/-- Reports, issued values and instances are only added, and how they hang together is kept. No node comes to list what is
compared as it is written. -/
structure Later (s s' : Analysis) : Prop where
  options : s'.options = s.options
  history : s.sink.history ⊆ s'.sink.history
  plain : ∀ id, s.result.tree.Plain id → s'.result.tree.Plain id
  prints : s.prints.Grows s'.prints
  instances : ∀ gen, s.result.scopes.instancesOf gen <+: s'.result.scopes.instancesOf gen
  linked : Linked s → Linked s'

namespace Later

theorem refl (s : Analysis) : Later s s :=
  ⟨rfl, List.Subset.refl _, fun _ => id, .refl _, fun _ => List.prefix_refl _, id⟩

theorem trans {a b c : Analysis} (h₁ : Later a b) (h₂ : Later b c) : Later a c :=
  ⟨h₂.options.trans h₁.options, fun _ hr => h₂.history (h₁.history hr), fun id hid => h₂.plain id (h₁.plain id hid),
    h₁.prints.trans h₂.prints, fun gen => (h₁.instances gen).trans (h₂.instances gen), fun h => h₂.linked (h₁.linked h)⟩

end Later

/-- A change that has nothing to do with instances. -/
structure Aside (s s' : Analysis) : Prop where
  options : s'.options = s.options
  history : s.sink.history ⊆ s'.sink.history
  plain : ∀ id, s.result.tree.Plain id → s'.result.tree.Plain id
  prints : s'.prints = s.prints
  requests : s'.requests = s.requests
  tables : s.result.scopes.SameInstances s'.result.scopes

namespace Aside

variable {s s' : Analysis}

theorem later (h : Aside s s') : Later s s' := by
  refine ⟨h.options, h.history, h.plain, ?_, fun gen => ?_, fun hl => ?_⟩
  · rw [h.prints]
    exact .refl _
  · exact (h.tables.instances gen).symm ▸ List.prefix_refl _
  · refine ⟨?_, fun gen => ?_, fun gen => ?_, fun gen e he => ?_, fun r hr => ?_⟩
    · rw [h.prints]
      exact hl.issues
    · rw [h.tables.instances]
      exact hl.keys gen
    · rw [h.tables.instances]
      exact hl.insts gen
    · rw [h.tables.instances] at he
      exact Nat.le_trans (hl.known gen e he) h.tables.size
    · rw [h.requests] at hr
      rw [h.prints, h.tables.instances]
      exact hl.requests r hr

theorem refl (s : Analysis) : Aside s s := ⟨rfl, List.Subset.refl _, fun _ => id, rfl, rfl, .refl _⟩

theorem trans {a b c : Analysis} (h₁ : Aside a b) (h₂ : Aside b c) : Aside a c :=
  ⟨h₂.options.trans h₁.options, fun _ hr => h₂.history (h₁.history hr), fun id hid => h₂.plain id (h₁.plain id hid),
    h₂.prints.trans h₁.prints, h₂.requests.trans h₁.requests, h₁.tables.trans h₂.tables⟩

theorem of_sink {sink : Sink} (h : s.sink.history ⊆ sink.history) : Aside s { s with sink } :=
  ⟨rfl, h, fun _ => id, rfl, rfl, .refl _⟩

theorem of_result {result : AnalysisResult} (htree : ∀ id, s.result.tree.Plain id → result.tree.Plain id)
    (h : s.result.scopes.SameInstances result.scopes) : Aside s { s with result } :=
  ⟨rfl, List.Subset.refl _, htree, rfl, rfl, h⟩

theorem of_scopes {scopes : ScopeTable} (h : s.result.scopes.SameInstances scopes) :
    Aside s { s with result := { s.result with scopes } } := of_result (fun _ => id) h

end Aside

/-! ## Views -/

/-- What the second run has in place of the first one's. -/
structure View where
  tree : Tree
  scopes : ScopeTable
  sink : Sink

/-- The view of a state that is the state itself. -/
def view (s : Analysis) : View := ⟨s.result.tree, s.result.scopes, s.sink⟩

/-- A state as the second run has it. -/
@[reducible] def vary (s : Analysis) (g : Pace) (v : View) : Analysis :=
  { s with
    result := { s.result with tree := v.tree, scopes := v.scopes }
    sink := v.sink
    strict := !g.lenient && s.strict
    options := { s.options with maxTryDepth := g.depth, maxSweeps := g.sweeps.getD s.options.maxSweeps } }

/-- The view differs in spelling and wording only, and not even there at the nodes of `F` and at the arms of matches. -/
structure Alike (g : Pace) (F : List NodeId) (s : Analysis) (v : View) : Prop where
  tree : g.Respells s.result.tree v.tree
  scopes : g.RespellsScopes s.result.scopes v.scopes
  sink : s.sink.Alike v.sink
  written : ∀ c ∈ F, g.Written s.result.tree v.tree c
  arms : ∀ arm m, s.matchOf.get? arm = some m → g.Written s.result.tree v.tree arm
  depth : s.options.maxTryDepth ≤ g.depth

/-- The run met its limit, which is not the one of the second run. -/
def Lost (g : Pace) (s : Analysis) : Prop :=
  s.options.maxTryDepth ≠ g.depth ∧ ∃ r ∈ s.sink.history, r.diagnostic.code = .tryDepthExceeded

theorem Lost.later {g : Pace} {s s' : Analysis} (h : Lost g s) (hl : Later s s') : Lost g s' := by
  obtain ⟨hne, r, hr, hcode⟩ := h
  exact ⟨by rw [hl.options]; exact hne, r, hl.history hr, hcode⟩

/-- The run met its limit, or it reported what the second one left for later. -/
def Parted (g : Pace) (s : Analysis) : Prop :=
  Lost g s ∨ g.lenient = true ∧ ∃ r ∈ s.sink.history, r.diagnostic.code = .inferenceUnavailable

theorem Parted.later {g : Pace} {s s' : Analysis} (h : Parted g s) (hl : Later s s') : Parted g s' :=
  h.imp (·.later hl) (.imp_right fun ⟨r, hr, hcode⟩ => ⟨r, hl.history hr, hcode⟩)

/-- An answer in another view of the state it ends in. -/
def seen {α : Type} (g : Pace) (v : View) :
    EStateM.Result AnalysisFailure Analysis α → EStateM.Result AnalysisFailure Analysis α
  | .ok a s => .ok a (s.vary g v)
  | .error e s => .error e (s.vary g v)

structure AgreeFrom {α : Type} (g : Pace) (F : List NodeId) (s : Analysis) (v : View) (m m' : AnalysisM α) : Prop where
  later : Later s (after m s)
  agree : Alike g F s v → Parted g (after m s) ∨ ∃ v', Alike g F (after m s) v' ∧ m' (s.vary g v) = seen g v' (m s)

class Agree {α : Type} (g : Pace) (F : List NodeId) (m m' : AnalysisM α) : Prop where
  agrees : ∀ s v, AgreeFrom g F s v m m'

variable {g : Pace} {F : List NodeId} {α β : Type}

theorem AgreeFrom.inst {s : Analysis} {v : View} {m m' : AnalysisM α} [h : Agree g F m m'] : AgreeFrom g F s v m m' :=
  h.agrees s v

namespace AgreeFrom

variable {s : Analysis} {v : View}

theorem of_ok {m : AnalysisM α} {m' : AnalysisM α} {a : α} {s₁ : Analysis} (h : AgreeFrom g F s v m m')
    (hm : m s = .ok a s₁) : Later s s₁ := by
  have hl := h.later
  rwa [after, hm] at hl

theorem later_of_ok {m : AnalysisM α} [Agree g F m m] {a : α} {s₁ : Analysis} (hm : m s = .ok a s₁) : Later s s₁ :=
  (inst : AgreeFrom g F s s.view m m).of_ok hm

theorem pure (a : α) : AgreeFrom g F s v (pure a) (pure a) := ⟨.refl s, fun h => .inr ⟨v, h, rfl⟩⟩

theorem throw (e : AnalysisFailure) : AgreeFrom g F s v (throw e : AnalysisM α) (throw e) :=
  ⟨.refl s, fun h => .inr ⟨v, h, rfl⟩⟩

theorem bind {x x' : AnalysisM α} {f f' : α → AnalysisM β} (hx : AgreeFrom g F s v x x')
    (hf : ∀ a s₁ v₁, x s = .ok a s₁ → AgreeFrom g F s₁ v₁ (f a) (f' a)) : AgreeFrom g F s v (x >>= f) (x' >>= f') := by
  have hlater := hx.later
  have hagree := hx.agree
  unfold after at hlater hagree
  cases hxs : x s with
  | error e s₁ =>
    have hbind : (x >>= f) s = .error e s₁ := by simp only [Bind.bind, EStateM.bind, hxs]
    rw [hxs] at hlater hagree
    refine ⟨by rw [after, hbind]; exact hlater, fun h => ?_⟩
    rw [after, hbind]
    refine (hagree h).imp_right ?_
    rintro ⟨v₁, h₁, hx'⟩
    exact ⟨v₁, h₁, by simp only [Bind.bind, EStateM.bind, hx', seen]⟩
  | ok a s₁ =>
    have hbind : (x >>= f) s = f a s₁ := by simp only [Bind.bind, EStateM.bind, hxs]
    rw [hxs] at hlater hagree
    have hrest := (hf a s₁ v hxs).later
    refine ⟨by rw [after, hbind]; exact hlater.trans hrest, fun h => ?_⟩
    rw [after, hbind]
    rcases hagree h with hparted | ⟨v₁, h₁, hx'⟩
    · exact .inl (hparted.later hrest)
    · refine ((hf a s₁ v₁ hxs).agree h₁).imp_right ?_
      rintro ⟨v₂, h₂, hf'⟩
      exact ⟨v₂, h₂, by simp only [Bind.bind, EStateM.bind, hx', seen]; exact hf'⟩

/-- The first part is found by instance. -/
theorem seq {x x' : AnalysisM α} {f f' : α → AnalysisM β} [Agree g F x x']
    (hf : ∀ a s₁ v₁, x s = .ok a s₁ → AgreeFrom g F s₁ v₁ (f a) (f' a)) : AgreeFrom g F s v (x >>= f) (x' >>= f') :=
  bind .inst hf

theorem ite {c : Prop} [Decidable c] {x y x' y' : AnalysisM α} (hx : c → AgreeFrom g F s v x x')
    (hy : ¬c → AgreeFrom g F s v y y') : AgreeFrom g F s v (if c then x else y) (if c then x' else y') := by
  split
  · exact hx ‹_›
  · exact hy ‹_›

theorem get_bind {f f' : Analysis → AnalysisM β} (h : AgreeFrom g F s v (f s) (f' (s.vary g v))) :
    AgreeFrom g F s v (get >>= f) (get >>= f') := ⟨h.later, h.agree⟩

/-- Reading the open buffers. -/
theorem sink_bind {f f' : Analysis → AnalysisM β}
    (h : ∀ k, s.sink.Alike k → AgreeFrom g F s v (f s) (f' (s.vary g { v with sink := k }))) :
    AgreeFrom g F s v (get >>= f) (get >>= f') :=
  ⟨(h s.sink (.refl _)).later, fun ha => (h v.sink ha.sink).agree ha⟩

theorem scopes_bind {f f' : ScopeTable → AnalysisM β}
    (h : ∀ t, g.RespellsScopes s.result.scopes t → AgreeFrom g F s v (f s.result.scopes) (f' t)) :
    AgreeFrom g F s v (scopes >>= f) (scopes >>= f') :=
  ⟨(h _ (g.respellsScopes_refl _)).later, fun ha => (h v.scopes ha.scopes).agree ha⟩

/-- Reading the state for the sake of its scope table. -/
theorem table_bind {f f' : Analysis → AnalysisM β}
    (h : ∀ t, g.RespellsScopes s.result.scopes t → AgreeFrom g F s v (f s) (f' (s.vary g { v with scopes := t }))) :
    AgreeFrom g F s v (get >>= f) (get >>= f') :=
  ⟨(h _ (g.respellsScopes_refl _)).later, fun ha => (h v.scopes ha.scopes).agree ha⟩

/-- A node is read, and it is known what it says. It may have one spelling in both runs. -/
theorem node_bind_apply (id : NodeId) (f : Node → AnalysisM β) (s : Analysis) : (node id >>= f) s =
    (match s.result.tree.get? id with
      | some n => f n
      | none => internal id .missingNode) s := by
  simp only [Bind.bind, EStateM.bind, node_apply]
  cases s.result.tree.get? id <;> rfl

theorem node_bind_named {id : NodeId} {f f' : Node → AnalysisM β}
    (h : ∀ n w, s.result.tree.get? id = some n → g.Spells n w → (id ∈ F → w.name = n.name) →
      AgreeFrom g F s v (f n) (f' (n.spelled w))) : AgreeFrom g F s v (node id >>= f) (node id >>= f') := by
  cases hn : s.result.tree.get? id with
  | none =>
    have hnode : (node id >>= f) s = .error (.internal id .missingNode) s := by rw [node_bind_apply, hn]; rfl
    refine ⟨by rw [after, hnode]; exact .refl s, fun ha => .inr ⟨v, by rw [after, hnode]; exact ha, ?_⟩⟩
    rw [hnode, node_bind_apply, ha.tree.get?_none hn]
    rfl
  | some n =>
    have hnode : (node id >>= f) s = f n s := by rw [node_bind_apply, hn]
    have hlater := (h n n.spelling hn (g.spells_refl n) fun _ => rfl).later
    refine ⟨by rw [after, hnode]; exact hlater, fun ha => ?_⟩
    obtain ⟨w, hs, hn'⟩ := ha.tree.nodes id n hn
    rw [after, hnode, node_bind_apply, hn']
    exact (h n w hn hs fun hid => (ha.written id hid).name_eq hs hn hn').agree ha

theorem node_bind {id : NodeId} {f f' : Node → AnalysisM β}
    (h : ∀ n w, s.result.tree.get? id = some n → g.Spells n w → AgreeFrom g F s v (f n) (f' (n.spelled w))) :
    AgreeFrom g F s v (node id >>= f) (node id >>= f') :=
  node_bind_named fun n w hn hs _ => h n w hn hs

/-- More nodes have one spelling in both. -/
theorem grow {m m' : AnalysisM α} {G : List NodeId}
    (hG : Alike g F s v → ∀ c ∈ G, g.Written s.result.tree v.tree c) (h : AgreeFrom g (G ++ F) s v m m') :
    AgreeFrom g F s v m m' := by
  refine ⟨h.later, fun ha => ?_⟩
  have hwritten : ∀ c ∈ G ++ F, g.Written s.result.tree v.tree c := by
    intro c hc
    rcases List.mem_append.1 hc with hc | hc
    · exact hG ha c hc
    · exact ha.written c hc
  refine (h.agree { ha with written := hwritten }).imp_right ?_
  rintro ⟨v', ha', hm'⟩
  exact ⟨v', { ha' with written := fun c hc => ha'.written c (List.mem_append_right _ hc) }, hm'⟩

/-- A node is read, and the nodes that have one spelling because of it are known from there on. -/
theorem node_bind_written {id : NodeId} {f f' : Node → AnalysisM β}
    (h : ∀ n w, s.result.tree.get? id = some n → g.Spells n w →
      AgreeFrom g (n.written id ++ F) s v (f n) (f' (n.spelled w))) :
    AgreeFrom g F s v (node id >>= f) (node id >>= f') :=
  node_bind fun n w hn hs => grow (fun ha c hc => ha.tree.written id n hn c hc) (h n w hn hs)

theorem modify {f f' : Analysis → Analysis} (hl : Later s (f s))
    (h : Alike g F s v → ∃ v', Alike g F (f s) v' ∧ f' (s.vary g v) = (f s).vary g v') :
    AgreeFrom g F s v (modify f) (modify f') := by
  refine ⟨hl, fun ha => .inr ?_⟩
  obtain ⟨v', ha', hf⟩ := h ha
  exact ⟨v', ha', congrArg (EStateM.Result.ok PUnit.unit) hf⟩

theorem modifyGet {f f' : Analysis → α × Analysis} (hl : Later s (f s).2)
    (h : Alike g F s v → ∃ v', Alike g F (f s).2 v' ∧ f' (s.vary g v) = ((f s).1, (f s).2.vary g v')) :
    AgreeFrom g F s v (modifyGet f) (modifyGet f') := by
  refine ⟨hl, fun ha => .inr ?_⟩
  obtain ⟨v', ha', hf⟩ := h ha
  refine ⟨v', ha', ?_⟩
  have hrun (f : Analysis → α × Analysis) (s : Analysis) :
      (MonadStateOf.modifyGet f : AnalysisM α) s = .ok (f s).1 (f s).2 := rfl
  exact (hrun f' _).trans (by rw [hf]; rfl)

/-- A step of the scope table. -/
theorem stepScopes {f f' : ScopeTable → α × ScopeTable}
    (hl : Later s { s with result := { s.result with scopes := (f s.result.scopes).2 } })
    (h : ∀ t, g.RespellsScopes s.result.scopes t →
      (f' t).1 = (f s.result.scopes).1 ∧ g.RespellsScopes (f s.result.scopes).2 (f' t).2) :
    AgreeFrom g F s v (withScopes f) (withScopes f') := by
  refine .modifyGet hl fun ha => ?_
  obtain ⟨hvalue, hscopes⟩ := h v.scopes ha.scopes
  refine ⟨{ v with scopes := (f' v.scopes).2 }, { ha with scopes := hscopes }, ?_⟩
  rw [← hvalue]

/-- The scope table is exchanged for another one. -/
theorem setScopes {u u' : ScopeTable} (hi : s.result.scopes.SameInstances u)
    (h : g.RespellsScopes s.result.scopes v.scopes → g.RespellsScopes u u') :
    AgreeFrom g F s v (modifyScopes fun _ => u) (modifyScopes fun _ => u') :=
  modify (Aside.of_scopes hi).later fun ha =>
    ⟨{ v with scopes := u' }, { ha with scopes := h ha.scopes }, rfl⟩

end AgreeFrom

namespace Agree

instance (a : α) : Agree g F (pure a) (pure a) := ⟨fun _ _ => .pure a⟩

instance (e : AnalysisFailure) : Agree g F (throw e : AnalysisM α) (throw e) := ⟨fun _ _ => .throw e⟩

theorem seq {x x' : AnalysisM α} {f f' : α → AnalysisM β} (hx : Agree g F x x') (hf : ∀ a, Agree g F (f a) (f' a)) :
    Agree g F (x >>= f) (x' >>= f') :=
  ⟨fun s v => .bind (hx.agrees s v) fun a s₁ v₁ _ => (hf a).agrees s₁ v₁⟩

/-- The first part is found by instance. -/
theorem bind {x x' : AnalysisM α} {f f' : α → AnalysisM β} [hx : Agree g F x x'] (hf : ∀ a, Agree g F (f a) (f' a)) :
    Agree g F (x >>= f) (x' >>= f') := seq hx hf

instance {x x' : AnalysisM α} {f f' : α → AnalysisM β} [hx : Agree g F x x'] [hf : ∀ a, Agree g F (f a) (f' a)] :
    Agree g F (x >>= f) (x' >>= f') := seq hx hf

instance {x x' : AnalysisM α} {f : α → β} [hx : Agree g F x x'] : Agree g F (f <$> x) (f <$> x') :=
  seq hx fun a => inferInstanceAs (Agree g F (pure (f a)) (pure (f a)))

instance {x x' : AnalysisM α} [hx : Agree g F x x'] : Agree g F (discard x) (discard x') :=
  inferInstanceAs (Agree g F ((fun _ => PUnit.unit) <$> x) ((fun _ => PUnit.unit) <$> x'))

theorem ite {c : Prop} [Decidable c] {x y x' y' : AnalysisM α} (hx : Agree g F x x') (hy : Agree g F y y') :
    Agree g F (if c then x else y) (if c then x' else y') := by
  split
  · exact hx
  · exact hy

instance {c : Prop} [Decidable c] {x y x' y' : AnalysisM α} [hx : Agree g F x x'] [hy : Agree g F y y'] :
    Agree g F (if c then x else y) (if c then x' else y') := ite hx hy

instance {f f' : Analysis → AnalysisM β} [h : ∀ s v, Agree g F (f s) (f' (s.vary g v))] :
    Agree g F (get >>= f) (get >>= f') := ⟨fun s v => .get_bind ((h s v).agrees s v)⟩

theorem node_bind {id : NodeId} {f f' : Node → AnalysisM β}
    (h : ∀ n w, g.Spells n w → Agree g F (f n) (f' (n.spelled w))) : Agree g F (node id >>= f) (node id >>= f') :=
  ⟨fun s v => .node_bind fun n w _ hs => (h n w hs).agrees s v⟩

instance {id : NodeId} {f f' : Node → AnalysisM β} [h : ∀ n w [g.Spells n w], Agree g F (f n) (f' (n.spelled w))] :
    Agree g F (node id >>= f) (node id >>= f') := node_bind fun n w _ => h n w

theorem node_bind_named {id : NodeId} {f f' : Node → AnalysisM β}
    (h : ∀ n w, g.Spells n w → (id ∈ F → w.name = n.name) → Agree g F (f n) (f' (n.spelled w))) :
    Agree g F (node id >>= f) (node id >>= f') :=
  ⟨fun s v => .node_bind_named fun n w _ hs hname => (h n w hs hname).agrees s v⟩

theorem node_bind_written {id : NodeId} {f f' : Node → AnalysisM β}
    (h : ∀ n w, g.Spells n w → Agree g (n.written id ++ F) (f n) (f' (n.spelled w))) :
    Agree g F (node id >>= f) (node id >>= f') :=
  ⟨fun s v => .node_bind_written fun n w _ hs => (h n w hs).agrees s v⟩

theorem scopes_bind {f f' : ScopeTable → AnalysisM β}
    (h : ∀ t t', g.RespellsScopes t t' → Agree g F (f t) (f' t')) : Agree g F (scopes >>= f) (scopes >>= f') :=
  ⟨fun s v => .scopes_bind fun t ht => (h s.result.scopes t ht).agrees s v⟩

/-! ### Lists -/

theorem forM {f f' : α → AnalysisM PUnit} (l : List α) (h : ∀ a ∈ l, Agree g F (f a) (f' a)) :
    Agree g F (l.forM f) (l.forM f') := by
  induction l with
  | nil => exact inferInstanceAs (Agree g F (pure _) (pure _))
  | cons a l ih => exact seq (h a List.mem_cons_self) fun _ => ih fun b hb => h b (List.mem_cons_of_mem _ hb)

instance (l : List α) (f f' : α → AnalysisM PUnit) [h : ∀ a, Agree g F (f a) (f' a)] : Agree g F (l.forM f) (l.forM f') :=
  forM l fun a _ => h a

theorem mapM {f f' : α → AnalysisM β} (l : List α) (h : ∀ a ∈ l, Agree g F (f a) (f' a)) :
    Agree g F (l.mapM f) (l.mapM f') := by
  induction l with
  | nil => exact inferInstanceAs (Agree g F (pure _) (pure _))
  | cons a l ih =>
    rw [List.mapM_cons, List.mapM_cons]
    refine seq (h a List.mem_cons_self) fun _ => seq (ih fun b hb => h b (List.mem_cons_of_mem _ hb)) fun _ => ?_
    infer_instance

instance (l : List α) (f f' : α → AnalysisM β) [h : ∀ a, Agree g F (f a) (f' a)] : Agree g F (l.mapM f) (l.mapM f') :=
  mapM l fun a _ => h a

theorem foldlM {f f' : β → α → AnalysisM β} (l : List α) (b : β) (h : ∀ b, ∀ a ∈ l, Agree g F (f b a) (f' b a)) :
    Agree g F (l.foldlM f b) (l.foldlM f' b) := by
  induction l generalizing b with
  | nil => exact inferInstanceAs (Agree g F (pure _) (pure _))
  | cons a l ih =>
    rw [List.foldlM_cons, List.foldlM_cons]
    exact seq (h b a List.mem_cons_self) fun b => ih b fun b c hc => h b c (List.mem_cons_of_mem _ hc)

instance (l : List α) (f f' : β → α → AnalysisM β) (b : β) [h : ∀ b a, Agree g F (f b a) (f' b a)] :
    Agree g F (l.foldlM f b) (l.foldlM f' b) := foldlM l b fun b a _ => h b a

instance (l : List α) (f f' : α → AnalysisM Bool) [h : ∀ a, Agree g F (f a) (f' a)] :
    Agree g F (l.allM f) (l.allM f') := by
  induction l with
  | nil => exact inferInstanceAs (Agree g F (pure _) (pure _))
  | cons a l ih =>
    refine seq (h a) fun b => ?_
    cases b
    · exact inferInstanceAs (Agree g F (pure _) (pure _))
    · exact ih

theorem forIn {f f' : α → β → AnalysisM (ForInStep β)} (l : List α) (b : β)
    (h : ∀ a ∈ l, ∀ b, Agree g F (f a b) (f' a b)) : Agree g F (forIn l b f) (forIn l b f') := by
  induction l generalizing b with
  | nil => exact inferInstanceAs (Agree g F (pure _) (pure _))
  | cons a l ih =>
    rw [List.forIn_cons, List.forIn_cons]
    refine seq (h a List.mem_cons_self b) fun r => ?_
    cases r
    · exact inferInstanceAs (Agree g F (pure _) (pure _))
    · exact ih _ fun c hc => h c (List.mem_cons_of_mem _ hc)

instance (l : List α) (f f' : α → β → AnalysisM (ForInStep β)) (b : β) [h : ∀ a b, Agree g F (f a b) (f' a b)] :
    Agree g F (ForIn.forIn l b f) (ForIn.forIn l b f') := forIn l b fun a _ => h a

/-! ## Primitive changes -/

/-- A change of what neither run has a view of. -/
theorem note {f : Analysis → Analysis} (h : ∀ s v, f (s.vary g v) = (f s).vary g v)
    (hf : ∀ s, (f s).result = s.result ∧ (f s).sink = s.sink ∧ (f s).options = s.options ∧ (f s).prints = s.prints ∧
      (f s).requests = s.requests ∧ (f s).matchOf = s.matchOf) : Agree g F (modify f) (modify f) := by
  refine ⟨fun s v => .modify ?_ fun ha => ⟨v, ?_, h s v⟩⟩
  · obtain ⟨hresult, hsink, hoptions, hprints, hrequests, -⟩ := hf s
    refine Aside.later ⟨hoptions, ?_, ?_, hprints, hrequests, ?_⟩
    · rw [hsink]
      exact List.Subset.refl _
    · rw [hresult]
      exact fun _ => id
    · rw [hresult]
      exact .refl _
  · obtain ⟨hresult, hsink, hoptions, -, -, hmatch⟩ := hf s
    refine ⟨?_, ?_, ?_, ?_, ?_, ?_⟩
    · rw [hresult]
      exact ha.tree
    · rw [hresult]
      exact ha.scopes
    · rw [hsink]
      exact ha.sink
    · rw [hresult]
      exact ha.written
    · rw [hresult, hmatch]
      exact ha.arms
    · rw [hoptions]
      exact ha.depth

/-- A change of the results besides the tree and the scope table. -/
theorem noteResult {f : AnalysisResult → AnalysisResult}
    (h : ∀ (r : AnalysisResult) tree scopes, f { r with tree, scopes } = { f r with tree, scopes }) :
    Agree g F (modifyResult f) (modifyResult f) := by
  refine ⟨fun s v => ?_⟩
  have hsame := h s.result s.result.tree s.result.scopes
  have htree : (f s.result).tree = s.result.tree := by
    have h := congrArg AnalysisResult.tree hsame
    exact h
  have hscopes : (f s.result).scopes = s.result.scopes := by
    have h := congrArg AnalysisResult.scopes hsame
    exact h
  refine .modify (Aside.of_result ?_ ?_).later fun ha => ⟨v, ⟨?_, ?_, ha.sink, ?_, ?_, ha.depth⟩, ?_⟩
  · rw [htree]
    exact fun _ => id
  · rw [hscopes]
    exact .refl _
  · rw [htree]
    exact ha.tree
  · rw [hscopes]
    exact ha.scopes
  · rw [htree]
    exact ha.written
  · rw [htree]
    exact ha.arms
  · change ({ s.vary g v with result := f { s.result with tree := v.tree, scopes := v.scopes } } : Analysis) = _
    rw [h]

instance (f : TypeTable → α × TypeTable) : Agree g F (withTypes f) (withTypes f) :=
  ⟨fun _ v => .modifyGet (Aside.later ⟨rfl, List.Subset.refl _, fun _ => id, rfl, rfl, .refl _⟩) fun ha =>
    ⟨v, { ha with }, rfl⟩⟩

theorem stepScopes {f f' : ScopeTable → α × ScopeTable} (hi : ∀ t : ScopeTable, t.SameInstances (f t).2)
    (h : ∀ t t', g.RespellsScopes t t' → (f' t').1 = (f t).1 ∧ g.RespellsScopes (f t).2 (f' t').2) :
    Agree g F (withScopes f) (withScopes f') :=
  ⟨fun _ _ => .stepScopes (Aside.of_scopes (hi _)).later fun t ht => h _ t ht⟩

theorem changeScopes {f f' : ScopeTable → ScopeTable} (hi : ∀ t : ScopeTable, t.SameInstances (f t))
    (h : ∀ t t', g.RespellsScopes t t' → g.RespellsScopes (f t) (f' t')) :
    Agree g F (modifyScopes f) (modifyScopes f') :=
  ⟨fun _ v => .modify (Aside.of_scopes (hi _)).later fun ha =>
    ⟨{ v with scopes := f' v.scopes }, { ha with scopes := h _ _ ha.scopes }, rfl⟩⟩

theorem changeSymbol (id : SymbolId) {f : Symbol → Symbol} (hf : ∀ s, (f s).instances? = s.instances?) :
    Agree g F (modifyScopes (·.modifySymbol id f)) (modifyScopes (·.modifySymbol id f)) :=
  changeScopes (fun t => t.sameInstances_modifySymbol id hf) fun _ _ ht => ht.modifySymbol id f

end Agree

/-- An edit of a node that does not touch its names. A node that comes to be listed has one spelling. -/
theorem AgreeFrom.changeNode {s : Analysis} {v : View} (id : NodeId) {f f' : Node → Node}
    (hf : ∀ n w, f' (Node.spelled n w) = (f n).spelled w)
    (hn : ∀ n, (f n).name = n.name ∧ (f n).path = n.path ∧ (f n).bind = n.bind)
    (hk : ∀ n, n.kind ∉ listingKinds → (f n).kind ∉ listingKinds)
    (hw : ∀ n, s.result.tree.get? id = some n → ∀ c ∈ (f n).written id, c ∈ n.written id ∨ c ∈ F) :
    AgreeFrom g F s v (modifyNode id f) (modifyNode id f') := by
  have hf' (n : Node) : (f' n).name = n.name := (Node.names_of_spelled hf n).1
  refine .modify (Aside.later ⟨rfl, List.Subset.refl _, Tree.plain_modify id hk, rfl, rfl, .refl _⟩) fun ha => ?_
  have grown {c : NodeId} (hc : g.Written s.result.tree v.tree c) :
      g.Written (s.result.tree.modify id f) (v.tree.modify id f') c :=
    hc.mono (Dialect.keepsNames_modify _ id fun n => (hn n).1) (Dialect.keepsNames_modify _ id hf')
  refine ⟨{ v with tree := v.tree.modify id f' }, ⟨?_, ha.scopes, ha.sink, ?_, ?_, ha.depth⟩, rfl⟩
  · exact ha.tree.modify id hf hn fun n hget c hc => (hw n hget c hc).imp_right (ha.written c)
  · exact fun c hc => grown (ha.written c hc)
  · exact fun arm m hm => grown (ha.arms arm m hm)

/-- An edit of neither names nor kind nor list. -/
theorem Agree.editNode (id : NodeId) {f : Node → Node} (hf : ∀ n w, f (Node.spelled n w) = (f n).spelled w)
    (hn : ∀ n, (f n).kind = n.kind ∧ (f n).list = n.list) : Agree g F (modifyNode id f) (modifyNode id f) := by
  refine ⟨fun s v => .changeNode id hf (Node.names_of_spelled hf) (fun n hk => ?_) fun n _ c hc => ?_⟩
  · rw [(hn n).1]
    exact hk
  · rw [Node.written_congr (hn n).1 (hn n).2] at hc
    exact .inl hc

end Analysis

end TreeCompiler
