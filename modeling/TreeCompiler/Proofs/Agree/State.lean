import TreeCompiler.Proofs.Agree.Basic

/-!
# Two runs in step: the primitives of an analysis

What both runs read is the same, except that a tree and a scope table come in two spellings. Two steps can tell the runs
apart: at its limit the first run refuses a speculative step, and has met its limit then; and in a strict sweep it reports a
node that a lenient run leaves for later.

* `Tree.SameShape` : what is read of a tree besides its nodes;
* `Agree.castNode_bind` : a new cast has one spelling in both runs;
* `Agree.reportWithAs` : a report in two wordings.
-/

namespace TreeCompiler

/-- Trees of one shape. -/
structure Tree.SameShape (t t' : Tree) : Prop where
  kind : ∀ id, t'.kind id = t.kind id
  span : ∀ id, t'.span id = t.span id
  size : t'.size = t.size
  roots : t'.roots = t.roots
  walk : ∀ enter id, t'.walk enter id = t.walk enter id

theorem Dialect.Respells.sameShape {d : Dialect} {t t' : Tree} (h : d.Respells t t') : t.SameShape t' :=
  ⟨h.kind, h.span, h.size, h.roots, h.walk⟩

namespace Analysis

variable {g : Pace} {F : List NodeId} {α β : Type}

theorem AgreeFrom.tree_bind {s : Analysis} {v : View} {f f' : Tree → AnalysisM β}
    (h : ∀ t, s.result.tree.SameShape t → AgreeFrom g F s v (f s.result.tree) (f' t)) :
    AgreeFrom g F s v (tree >>= f) (tree >>= f') :=
  ⟨(h s.result.tree ⟨fun _ => rfl, fun _ => rfl, rfl, rfl, fun _ _ => rfl⟩).later,
    fun ha => (h v.tree ha.tree.sameShape).agree ha⟩

namespace Agree

theorem tree_bind {f f' : Tree → AnalysisM β} (h : ∀ t t', t.SameShape t' → Agree g F (f t) (f' t')) :
    Agree g F (tree >>= f) (tree >>= f') :=
  ⟨fun s v => .tree_bind fun t ht => (h s.result.tree t ht).agrees s v⟩

/-! ## Access -/

instance : Agree g F types types := by unfold types; infer_instance

instance (id : NodeId) (cause : InternalCause) : Agree g F (internal id cause : AnalysisM α) (internal id cause) := by
  unfold internal; infer_instance

instance (id : NodeId) : Agree g F (discard (node id)) (discard (node id)) :=
  inferInstanceAs (Agree g F (node id >>= fun _ => pure PUnit.unit) (node id >>= fun _ => pure PUnit.unit))

instance (id : NodeId) : Agree g F (spanOf id) (spanOf id) := by
  unfold spanOf
  refine tree_bind fun t t' ht => ?_
  rw [ht.span]
  infer_instance

instance (id : SymbolId) : Agree g F (symbol id) (symbol id) := by
  unfold symbol
  refine scopes_bind fun t t' ht => ?_
  rw [ht.symbol?]
  split <;> infer_instance

instance (id : SymbolId) : Agree g F (symbolName id) (symbolName id) := by
  unfold symbolName
  refine scopes_bind fun t t' ht => ?_
  rw [ht.symbolName]
  infer_instance

theorem scopeInfo_bind_eq (id : ScopeId) (f : Scope → AnalysisM β) : (scopeInfo id >>= f) = scopes >>= fun t =>
    (match t.scope? id with
      | some s => f s
      | none => throw .brokenReference) := by
  unfold scopeInfo
  rw [bind_assoc]
  refine congrArg (scopes >>= ·) (funext fun t => ?_)
  cases t.scope? id <;> rfl

/-- A scope is read, which keeps spellings. -/
theorem scopeInfo_bind {id : ScopeId} {f f' : Scope → AnalysisM β}
    (h : ∀ sc name imports, Agree g F (f sc) (f' (Scope.spelled sc name imports))) :
    Agree g F (scopeInfo id >>= f) (scopeInfo id >>= f') := by
  rw [scopeInfo_bind_eq, scopeInfo_bind_eq]
  refine scopes_bind fun t t' ht => ?_
  obtain ⟨hn, hn'⟩ | ⟨s, s', hs, hs', name, imports, -, -, rfl⟩ := ht.scope?_cases id
  · rw [hn, hn']
    infer_instance
  · rw [hs, hs']
    exact h s name imports

instance {id : ScopeId} {f f' : Scope → AnalysisM β}
    [h : ∀ sc name imports, Agree g F (f sc) (f' (Scope.spelled sc name imports))] :
    Agree g F (scopeInfo id >>= f) (scopeInfo id >>= f') := scopeInfo_bind h

instance (id : SymbolId) (t : TypeId) :
    Agree g F (setSymbolType id t) (setSymbolType id t) := changeSymbol id fun _ => rfl

theorem internAs {x y : String} (hx : g.Same x y) : Agree g F (internName x) (internName y) :=
  stepScopes (fun t => t.sameInstances_intern x) fun _ _ ht => ht.intern hx

instance (x : String) : Agree g F (internName x) (internName x) := internAs (g.refl x)

instance (id : TypeId) : Agree g F (typeInfo id) (typeInfo id) := by
  unfold typeInfo
  refine bind fun t => ?_
  split <;> infer_instance

instance (id : TypeId) : Agree g F (bareType id) (bareType id) := by unfold bareType; infer_instance

instance (id : TypeId) : Agree g F (typeText id) (typeText id) := by unfold typeText; infer_instance

instance (ids : List TypeId) : Agree g F (typeTexts ids) (typeTexts ids) := by unfold typeTexts; infer_instance

instance (t : TypeId) : Agree g F (isResolved t) (isResolved t) := by unfold isResolved; infer_instance

/-! ## Scopes of nodes -/

instance (id : NodeId) (scope : ScopeId) : Agree g F (setScope id scope) (setScope id scope) :=
  note (fun _ _ => rfl) fun _ => ⟨rfl, rfl, rfl, rfl, rfl, rfl⟩

instance (id : NodeId) : Agree g F (scopeOf id) (scopeOf id) := by
  unfold scopeOf
  refine ⟨fun s v => .get_bind ?_⟩
  dsimp only
  split
  · exact .inst
  · refine .tree_bind fun t ht => ?_
    rw [ht.kind]
    exact .inst

instance (id : NodeId) : Agree g F (seqOf id) (seqOf id) := by unfold seqOf; infer_instance

instance (id : NodeId) : Agree g F (query id) (query id) := by unfold query; infer_instance

instance (id like : NodeId) : Agree g F (adopt id like) (adopt id like) := by
  have hseq (seq : Nat) : Agree g F (modify fun s => { s with nodeSeq := s.nodeSeq.insert id seq })
      (modify fun s => { s with nodeSeq := s.nodeSeq.insert id seq }) :=
    note (fun _ _ => rfl) fun _ => ⟨rfl, rfl, rfl, rfl, rfl, rfl⟩
  unfold adopt
  infer_instance

/-! ## Reports -/

/-- A step of the sink. -/
theorem modifySink {k k' : Sink → Sink} (hk : ∀ l : Sink, l.history ⊆ (k l).history)
    (h : ∀ l l', l.Alike l' → (k l).Alike (k' l')) :
    Agree g F (modify fun s => { s with sink := k s.sink }) (modify fun s => { s with sink := k' s.sink }) :=
  ⟨fun s v => .modify (Aside.of_sink (hk s.sink)).later fun ha =>
    ⟨{ v with sink := k' v.sink }, { ha with sink := h _ _ ha.sink }, rfl⟩⟩

theorem reportWithAs {p p' : Problem} (hp : p'.code = p.code) (span : Span) (notes notes' : List Note) :
    Agree g F (reportWith p span notes) (reportWith p' span notes') := by
  refine modifySink (fun l => ?_) fun l l' hl => hl.report ?_
  · rw [Sink.history_report]
    exact List.subset_append_left _ _
  · rw [Diagnostic.place, Diagnostic.place, hp]

theorem reportAs {p p' : Problem} (hp : p'.code = p.code) (span : Span) : Agree g F (report p span) (report p' span) :=
  reportWithAs hp span [] []

instance (p : Problem) (span : Span) (notes : List Note) :
    Agree g F (reportWith p span notes) (reportWith p span notes) := reportWithAs rfl span notes notes

instance (p : Problem) (span : Span) : Agree g F (report p span) (report p span) := reportAs rfl span

instance : Agree g F (modify fun s => { s with sink := s.sink.openBuffer })
    (modify fun s => { s with sink := s.sink.openBuffer }) :=
  modifySink (fun _ => List.Subset.refl _) fun _ _ hl => hl.openBuffer

instance :
    Agree g F (modify fun s => { s with sink := s.sink.discard }) (modify fun s => { s with sink := s.sink.discard }) :=
  modifySink (fun _ => List.Subset.refl _) fun _ _ hl => hl.discard

instance :
    Agree g F (modify fun s => { s with sink := s.sink.commit }) (modify fun s => { s with sink := s.sink.commit }) := by
  refine modifySink (fun l => ?_) fun _ _ hl => hl.commit
  rw [Sink.history_commit]
  exact List.Subset.refl _

/-- A step that is tried. -/
def attempt (step : AnalysisM (Bool × α)) : AnalysisM (Bool × α) := do
  modify fun s => { s with sink := s.sink.openBuffer }
  let (ok, a) ← step
  if ok && !(← get).sink.heldErrors then
    modify fun s => { s with sink := s.sink.commit }
    return (true, a)
  modify fun s => { s with sink := s.sink.discard }
  return (false, a)

instance (step step' : AnalysisM (Bool × α)) [hstep : Agree g F step step'] :
    Agree g F (attempt step) (attempt step') := by
  unfold attempt
  refine bind fun _ => bind fun (ok, a) => ⟨fun s v => .sink_bind fun k hk => ?_⟩
  dsimp only
  rw [hk.heldErrors]
  exact .inst

/-- A step that is not tried, because of the limit. -/
def refuse (limit : Nat) (a : α) : AnalysisM (Bool × α) := do
  report (.tryTooDeep limit) {}
  return (false, a)

theorem tryingFor_eq (refused : α) (step : AnalysisM (Bool × α)) : tryingFor refused step = (do
    let s ← get
    if s.options.maxTryDepth ≤ s.sink.depth then refuse s.options.maxTryDepth refused else attempt step) := rfl

theorem lost_refuse {s : Analysis} (hne : s.options.maxTryDepth ≠ g.depth) (limit : Nat) (a : α) :
    Lost g (after (refuse limit a) s) := by
  have hhistory : (after (refuse limit a) s).sink.history = s.sink.history ++
      [⟨s.sink.held.length, ⟨.error, .tryDepthExceeded, (Problem.tryTooDeep limit).message, {}, []⟩⟩] :=
    s.sink.history_report _
  refine ⟨hne, ⟨s.sink.held.length, ⟨.error, .tryDepthExceeded, (Problem.tryTooDeep limit).message, {}, []⟩⟩, ?_, rfl⟩
  rw [hhistory]
  exact List.mem_append_right _ (List.mem_singleton_self _)

/-- The only place where the depth of speculation is looked at. -/
instance (refused : α) (step step' : AnalysisM (Bool × α)) [hstep : Agree g F step step'] :
    Agree g F (tryingFor refused step) (tryingFor refused step') := by
  refine ⟨fun s v => ?_⟩
  rw [tryingFor_eq, tryingFor_eq]
  refine .get_bind ?_
  dsimp only
  by_cases hlimit : s.options.maxTryDepth ≤ s.sink.depth
  · have hrefuse : Agree g F (refuse s.options.maxTryDepth refused) (refuse g.depth refused) :=
      seq (@reportAs g F (.tryTooDeep s.options.maxTryDepth) (.tryTooDeep g.depth) rfl {}) fun _ => inferInstance
    rw [if_pos hlimit]
    refine ⟨(hrefuse.agrees s v).later, fun ha => ?_⟩
    by_cases hd : s.options.maxTryDepth = g.depth
    · rw [if_pos (by rw [ha.sink.depth, ← hd]; exact hlimit)]
      exact (hrefuse.agrees s v).agree ha
    · exact .inl (.inl (lost_refuse hd _ refused))
  · have hattempt : AgreeFrom g F s v (attempt step) (attempt step') := .inst
    rw [if_neg hlimit]
    refine ⟨hattempt.later, fun ha => ?_⟩
    have hdepth := ha.depth
    rw [if_neg (by rw [ha.sink.depth]; omega)]
    exact hattempt.agree ha

instance (step step' : AnalysisM Bool) [Agree g F step step'] : Agree g F (trying step) (trying step') := by
  unfold trying
  infer_instance

/-! ## Completion -/

instance (id : NodeId) (t : TypeId) : Agree g F (finish id t) (finish id t) := by
  have hdone : Agree g F (modifyNode id fun n => { n with valueType := t, completed := true })
      (modifyNode id fun n => { n with valueType := t, completed := true }) :=
    @editNode _ _ id (fun n => { n with valueType := t, completed := true }) (fun _ _ => rfl) fun _ => ⟨rfl, rfl⟩
  have hopen :
      Agree g F (modifyNode id fun n => { n with valueType := t }) (modifyNode id fun n => { n with valueType := t }) :=
    @editNode _ _ id (fun n => { n with valueType := t }) (fun _ _ => rfl) fun _ => ⟨rfl, rfl⟩
  have hprogress :
      Agree g F (modify fun s => { s with progress := true }) (modify fun s => { s with progress := true }) :=
    note (fun _ _ => rfl) fun _ => ⟨rfl, rfl, rfl, rfl, rfl, rfl⟩
  have hpending : Agree g F (modify fun s => { s with pending := s.pending + 1 })
      (modify fun s => { s with pending := s.pending + 1 }) :=
    note (fun _ _ => rfl) fun _ => ⟨rfl, rfl, rfl, rfl, rfl, rfl⟩
  unfold finish
  exact node_bind fun n w _ => inferInstance

instance (id : NodeId) : Agree g F (fail id) (fail id) := by unfold fail; infer_instance

instance : Agree g F pendingType pendingType := by
  have hpending : Agree g F (modify fun s => { s with pending := s.pending + 1 })
      (modify fun s => { s with pending := s.pending + 1 }) :=
    note (fun _ _ => rfl) fun _ => ⟨rfl, rfl, rfl, rfl, rfl, rfl⟩
  unfold pendingType
  infer_instance

/-- A node is given up because it cannot be inferred. -/
def giveUp (id : NodeId) : AnalysisM TypeId := do
  let t ← tree
  report (.notInferable (t.kind id).name) (t.span id)
  fail id

theorem pendingOrFail_eq (id : NodeId) : pendingOrFail id = (do if !(← get).strict then pendingType else giveUp id) := rfl

instance (id : NodeId) : Agree g F (giveUp id) (giveUp id) := by
  unfold giveUp
  refine ⟨fun s v => .tree_bind fun t ht => ?_⟩
  rw [ht.kind, ht.span]
  exact .inst

/-- Whoever gives up says so. -/
theorem reported_giveUp (id : NodeId) (s : Analysis) :
    ∃ r ∈ (after (giveUp id) s).sink.history, r.diagnostic.code = .inferenceUnavailable := by
  let tell : AnalysisM Unit := report (.notInferable (s.result.tree.kind id).name) (s.result.tree.span id)
  have hfail : Agree { Dialect.exact with depth := 0 } [] (fail id) (fail id) := inferInstance
  have hafter : after (giveUp id) s = after (fail id) (after tell s) := rfl
  let told : Reported := ⟨s.sink.held.length, ⟨.error, .inferenceUnavailable,
    (Problem.notInferable (s.result.tree.kind id).name).message, s.result.tree.span id, []⟩⟩
  have htold : (after tell s).sink.history = s.sink.history ++ [told] := s.sink.history_report _
  refine ⟨told, ?_, rfl⟩
  rw [hafter]
  refine (hfail.agrees (after tell s) (after tell s).view).later.history ?_
  rw [htold]
  exact List.mem_append_right _ (List.mem_singleton_self _)

/-- The only place where it is looked at whether a sweep is strict. -/
instance (id : NodeId) : Agree g F (pendingOrFail id) (pendingOrFail id) := by
  rw [pendingOrFail_eq]
  refine ⟨fun s v => .get_bind ?_⟩
  dsimp only
  have hpend : AgreeFrom g F s v pendingType pendingType := .inst
  have hgive : AgreeFrom g F s v (giveUp id) (giveUp id) := .inst
  by_cases hs : s.strict = true
  · rw [if_neg (by simp [hs])]
    by_cases hg : g.lenient = true
    · exact ⟨hgive.later, fun _ => .inl (.inr ⟨hg, reported_giveUp id s⟩)⟩
    · rw [if_neg (by simp [hs, hg])]
      exact hgive
  · rw [if_pos (by simp [hs]), if_pos (by simp [hs])]
    exact hpend

instance (id : NodeId) (parts : List TypeId) : Agree g F (settle id parts) (settle id parts) := by
  unfold settle; infer_instance

/-! ## Conversions -/

end Agree

namespace AgreeFrom

variable {s : Analysis} {v : View}

/-- A node is added that nothing is compared with. It has one spelling in both runs. -/
theorem addNode_bind {n : Node} (hn : ∀ id, n.written id = []) {f f' : NodeId → AnalysisM β}
    (h : ∀ c s₁ v₁, s.result.tree.Extends s₁.result.tree → AgreeFrom g (c :: F) s₁ v₁ (f c) (f' c)) :
    AgreeFrom g F s v (addNode n >>= f) (addNode n >>= f') := by
  let s₁ : Analysis := { s with result := { s.result with tree := (s.result.tree.push n).2 } }
  let v₁ : View := { v with tree := (v.tree.push n).2 }
  have hext : s.result.tree.Extends s₁.result.tree := Tree.extends_push _ n
  have hnew := h (s.result.tree.size + 1) s₁ v₁ hext
  have hrun : (addNode n >>= f) s = f (s.result.tree.size + 1) s₁ := rfl
  have hrun' : (addNode n >>= f') (s.vary g v) = f' (v.tree.size + 1) (s₁.vary g v₁) := rfl
  refine ⟨?_, fun ha => ?_⟩
  · rw [after, hrun]
    exact (Aside.later ⟨rfl, List.Subset.refl _, hext.plain, rfl, rfl, .refl _⟩ : Later s s₁).trans hnew.later
  · have hpush : g.Respells s₁.result.tree v₁.tree :=
      ha.tree.push (g.spells_refl n) fun c hc => by rw [hn] at hc; exact absurd hc List.not_mem_nil
    have grown {c : NodeId} (hc : g.Written s.result.tree v.tree c) : g.Written s₁.result.tree v₁.tree c :=
      hc.mono (.of_extends hext) (.of_extends (Tree.extends_push _ n))
    have hnamed : ∀ c ∈ (s.result.tree.size + 1) :: F, g.Written s₁.result.tree v₁.tree c := by
      intro c hc
      rcases List.mem_cons.1 hc with rfl | hc
      · exact ha.tree.written_push (n := n) (w := n.spelling) rfl
      · exact grown (ha.written c hc)
    rw [after, hrun, hrun', ha.tree.size]
    refine (hnew.agree ⟨hpush, ha.scopes, ha.sink, hnamed, fun arm m hm => grown (ha.arms arm m hm), ha.depth⟩).imp_right ?_
    rintro ⟨v₂, ha₂, hf⟩
    exact ⟨v₂, { ha₂ with written := fun c hc => ha₂.written c (List.mem_cons_of_mem _ hc) }, hf⟩

theorem castNode_bind {inner : NodeId} {t : TypeId} {f f' : NodeId → AnalysisM β}
    (h : ∀ c s₁ v₁, s.result.tree.Extends s₁.result.tree → AgreeFrom g (c :: F) s₁ v₁ (f c) (f' c)) :
    AgreeFrom g F s v (castNode inner t >>= f) (castNode inner t >>= f') := by
  have hrun (f : NodeId → AnalysisM β) : castNode inner t >>= f = (do
      let span ← spanOf inner
      let c ← addNode { kind := .cast, span, flags := .implicit, a := inner, valueType := t, completed := true }
      adopt c inner
      f c) := by
    simp only [castNode, bind_assoc, pure_bind]
  rw [hrun, hrun]
  refine .seq fun span _ _ hspan => ?_
  cases hspan
  refine addNode_bind (fun _ => rfl) fun c s₁ v₁ hext => .seq fun _ s₂ v₂ hadopt => h c s₂ v₂ ?_
  rw [adopt_ok hadopt]
  exact hext

/-- A conversion gives the value itself or a new node. -/
theorem coerce_bind {value : NodeId} {want : TypeId} {code : Code} {f f' : Bool × NodeId → AnalysisM β}
    (h : ∀ ok c G s₁ v₁, s.result.tree.Extends s₁.result.tree → c = value ∨ c ∈ G →
      AgreeFrom g (G ++ F) s₁ v₁ (f (ok, c)) (f' (ok, c))) :
    AgreeFrom g F s v (coerce value want code >>= f) (coerce value want code >>= f') := by
  have hrun (f : Bool × NodeId → AnalysisM β) : coerce value want code >>= f = (do
      let n ← node value
      let got ← isResolved n.valueType
      let wanted ← isResolved want
      if !got || !wanted then f (false, value)
      else
        let ts ← types
        if ts.accepts want n.valueType then f (true, value)
        else if ts.implicitCast n.valueType want then
          let c ← castNode value want
          f (true, c)
        else
          let span ← spanOf value
          report (.cannotUse code (ts.format n.valueType) (ts.format want)) span
          f (true, value)) := by
    simp only [coerce, bind_assoc]
    refine congrArg (node value >>= ·) (funext fun n => congrArg (isResolved n.valueType >>= ·) (funext fun got =>
      congrArg (isResolved want >>= ·) (funext fun wanted => ?_)))
    split
    · rw [pure_bind]
    · rw [bind_assoc]
      refine congrArg (types >>= ·) (funext fun ts => ?_)
      split
      · rw [pure_bind]
      · split
        · rw [bind_assoc]
          refine congrArg (castNode value want >>= ·) (funext fun c => ?_)
          rw [pure_bind]
        · simp only [bind_assoc, pure_bind]
  have hsame (ok : Bool) (s₁ : Analysis) (v₁ : View) (hext : s.result.tree.Extends s₁.result.tree) :
      AgreeFrom g F s₁ v₁ (f (ok, value)) (f' (ok, value)) := h ok value [] s₁ v₁ hext (.inl rfl)
  have hrefl : s.result.tree.Extends s.result.tree := .refl _
  rw [hrun, hrun]
  refine .node_bind fun n w _ _ => .seq fun got s₁ v₁ h₁ => .seq fun wanted s₂ v₂ h₂ => ?_
  cases h₁
  cases h₂
  refine .ite (fun _ => hsame _ _ _ hrefl) fun _ => .seq fun ts s₃ v₃ h₃ => ?_
  cases h₃
  refine .ite (fun _ => hsame _ _ _ hrefl) fun _ => .ite (fun _ => ?_) fun _ =>
    .seq fun span s₄ v₄ h₄ => .seq fun _ s₅ v₅ h₅ => ?_
  · refine .castNode_bind fun c s₄ v₄ hext => h true c [c] s₄ v₄ hext (.inr (List.mem_singleton_self c))
  · cases h₄
    cases h₅
    exact hsame _ _ _ hrefl

end AgreeFrom

end Analysis

end TreeCompiler
