import TreeCompiler.Proofs.Analysis.Within
import TreeCompiler.Tree.Builder

/-!
# Analyzing a finished tree

The resolution of a finished tree types its functions once more and stops at every node it comes to.

* `Analysis.Resting V t B` : the declaration pass is over and met the functions `B`; `IdlesFrom V t B` : a computation
  succeeds from such a state, reports nothing and leaves nothing for later;
* `funcType_idles`, `resolveBody_idles` : one function; `sweep_finished` : a sweep;
* `Tree.analyze_finished` : the analysis of a finished tree;
* `reentered` : a tree that its first analysis does not finish, although it reports nothing.
-/

namespace TreeCompiler

namespace Analysis

variable {α β : Type} {V : List NodeId} {t : Tree} {s : Analysis}

/-! ## The resolution pass -/

/-- The declaration pass is over; the functions that it met are those of `B`. -/
structure Resting (V : List NodeId) (t : Tree) (B : Array SymbolId) (s : Analysis) : Prop extends Within V t s where
  met : s.bodies = B
  symbols : ∀ fn ∈ B, ∃ sym, s.result.scopes.symbol? fn = some sym

/-- Nothing was reported and nothing was left for later. -/
structure Calm (s s' : Analysis) : Prop where
  sink : s'.sink = s.sink
  pending : s'.pending = s.pending
  sweeps : s'.result.sweeps = s.result.sweeps

/-- The computation succeeds with nothing to do. -/
def IdlesFrom (V : List NodeId) (t : Tree) (B : Array SymbolId) (s : Analysis) (m : AnalysisM α) : Prop :=
  Resting V t B s → ∃ a s', m s = .ok a s' ∧ Resting V t B s' ∧ Calm s s'

namespace IdlesFrom

variable {B : Array SymbolId}

theorem pure (a : α) : IdlesFrom V t B s (pure a) := fun h => ⟨a, s, rfl, h, rfl, rfl, rfl⟩

theorem bind {x : AnalysisM α} {f : α → AnalysisM β} (hx : IdlesFrom V t B s x)
    (hf : ∀ a s', x s = .ok a s' → IdlesFrom V t B s' (f a)) : IdlesFrom V t B s (x >>= f) := by
  intro h
  obtain ⟨a, s₁, h₁, hr₁, hc₁⟩ := hx h
  obtain ⟨b, s₂, h₂, hr₂, hc₂⟩ := hf a s₁ h₁ hr₁
  exact ⟨b, s₂, (bind_apply h₁).trans h₂, hr₂, hc₂.sink.trans hc₁.sink, hc₂.pending.trans hc₁.pending,
    hc₂.sweeps.trans hc₁.sweeps⟩

/-- The first part only looks at the state. -/
theorem read {x : AnalysisM α} {f : α → AnalysisM β} {a : α} (hx : x s = .ok a s) (hf : IdlesFrom V t B s (f a)) :
    IdlesFrom V t B s (x >>= f) := by
  intro h
  obtain ⟨b, s', hm, rest⟩ := hf h
  exact ⟨b, s', (bind_apply hx).trans hm, rest⟩

theorem of_resting {m : AnalysisM α} (h : Resting V t B s → IdlesFrom V t B s m) : IdlesFrom V t B s m := fun hs => h hs hs

theorem ite {c : Prop} [Decidable c] {x y : AnalysisM α} (hx : c → IdlesFrom V t B s x) (hy : ¬c → IdlesFrom V t B s y) :
    IdlesFrom V t B s (if c then x else y) := by
  split
  · exact hx ‹_›
  · exact hy ‹_›

theorem node_bind {id : NodeId} {n : Node} {f : Node → AnalysisM β} (hn : t.get? id = some n) (h : IdlesFrom V t B s (f n)) :
    IdlesFrom V t B s (node id >>= f) := by
  refine .of_resting fun hs => .read ?_ h
  rw [node_apply, hs.tree, hn]
  rfl

theorem symbol_bind {fn : SymbolId} {f : Symbol → AnalysisM β} (hfn : fn ∈ B) (h : ∀ sym, IdlesFrom V t B s (f sym)) :
    IdlesFrom V t B s (symbol fn >>= f) := by
  refine .of_resting fun hs => ?_
  obtain ⟨sym, hsym⟩ := hs.symbols fn hfn
  exact .read (symbol_ok hsym) (h sym)

theorem funcInfo_bind {fn : SymbolId} {f : FuncInfo → AnalysisM β} (hfn : fn ∈ B)
    (h : ∀ info, info.In V t → IdlesFrom V t B s (f info)) : IdlesFrom V t B s (funcInfo fn >>= f) := by
  refine .of_resting fun hs => ?_
  obtain ⟨info, hinfo⟩ := hs.bodies fn (hs.met ▸ hfn)
  refine .read ?_ (h info (hs.funcs fn info hinfo))
  rw [funcInfo_apply, hinfo]
  rfl

theorem edit {g : Analysis → Analysis} (hr : Resting V t B s → Resting V t B (g s)) (hc : Calm s (g s)) :
    IdlesFrom V t B s (modify g) := fun h => ⟨⟨⟩, g s, rfl, hr h, hc⟩

theorem setSymbolType (id : SymbolId) (type : TypeId) : IdlesFrom V t B s (setSymbolType id type) := by
  refine .edit (fun hs => ⟨⟨hs.tree, hs.funcs, hs.bodies, hs.instances⟩, hs.met, fun fn hfn => ?_⟩) ⟨rfl, rfl, rfl⟩
  obtain ⟨sym, hsym⟩ := hs.symbols fn hfn
  change ∃ sym, (s.result.scopes.modifySymbol id _).symbol? fn = some sym
  rw [ScopeTable.symbol?_modifySymbol, hsym]
  split
  · exact ⟨_, rfl⟩
  · exact ⟨_, rfl⟩

theorem modifyFunc {fn : SymbolId} {f : FuncInfo → FuncInfo} (hfn : fn ∈ B)
    (h : ∀ i, (f i).node = i.node ∧ (f i).returns = i.returns) : IdlesFrom V t B s (modifyFunc fn f) := by
  refine .funcInfo_bind hfn fun info hinfo => .edit (fun hs => ⟨hs.learn ?_, hs.met, hs.symbols⟩) ⟨rfl, rfl, rfl⟩
  obtain ⟨hnode, hreturns⟩ := h info
  exact ⟨hnode ▸ hinfo.node, hnode ▸ hinfo.func, fun r hr => hinfo.returns r (hreturns ▸ hr)⟩

theorem whileTyping {sym : SymbolId} {step : AnalysisM α} (h : ∀ s, IdlesFrom V t B s step) :
    IdlesFrom V t B s (whileTyping sym step) := by
  have mark (g : IdMap Unit → IdMap Unit) (s : Analysis) : IdlesFrom V t B s (modify fun s => { s with typing := g s.typing }) :=
    .edit (fun hs => ⟨⟨hs.tree, hs.funcs, hs.bodies, hs.instances⟩, hs.met, hs.symbols⟩) ⟨rfl, rfl, rfl⟩
  refine .bind (mark (·.insert sym ()) s) fun _ s₁ _ => .bind (h s₁) fun v s₂ _ => ?_
  exact .bind (mark (·.erase sym) s₂) fun _ s₃ _ => .pure v

/-- A completed node is not completed again. -/
theorem finish {id : NodeId} {n : Node} (hn : t.get? id = some n) (hdone : n.completed = true)
    (hknown : isResolved n.valueType s = .ok true s) : IdlesFrom V t B s (finish id n.valueType) := by
  refine .node_bind hn (.read hknown ?_)
  have hmodify : IdlesFrom V t B s (modifyNode id fun m => { m with valueType := n.valueType, completed := true }) := by
    refine .edit (fun hs => ⟨⟨?_, hs.funcs, hs.bodies, hs.instances⟩, hs.met, hs.symbols⟩) ⟨rfl, rfl, rfl⟩
    change s.result.tree.modify id _ = t
    rw [hs.tree]
    refine Tree.modify_eq_self fun m hm => ?_
    cases hn.symm.trans hm
    rw [← hdone]
  refine .bind hmodify fun _ s₁ _ => .ite (fun hopen => ?_) fun _ => .pure _
  rw [hdone] at hopen
  cases hopen

end IdlesFrom

section Resolution

variable {B : Array SymbolId} {k : Nat} (hf : t.Finished V) (ht : t.Formed)

include hf in
theorem completed_apply {id : NodeId} {n : Node} (hid : id ∈ V) (hn : t.get? id = some n) (hs : s.result.tree = t)
    (rest : Node → AnalysisM TypeId) :
    (do
      if id = 0 then return TypeTable.void
      let n ← node id
      if n.completed then return n.valueType
      rest n : AnalysisM TypeId) s = .ok n.valueType s := by
  have h0 : id ≠ 0 := by
    rintro rfl
    cases hn
  have hnode : node id s = .ok n s := by
    rw [node_apply, hs, hn]
    rfl
  rw [if_neg h0, bind_apply hnode, if_pos (hf.nodes id hid n hn).completed]
  rfl

include hf in
theorem resolve_apply {id : NodeId} {n : Node} (hid : id ∈ V) (hn : t.get? id = some n) (hs : s.result.tree = t) :
    (resolver (k + 1)).resolve id s = .ok n.valueType s := completed_apply hf hid hn hs _

include hf in
theorem typeExpr_apply {id : NodeId} {n : Node} (hid : id ∈ V) (hn : t.get? id = some n) (hs : s.result.tree = t) :
    (resolver (k + 1)).typeExpr id s = .ok n.valueType s := completed_apply hf hid hn hs _

include hf in
theorem resolve_idles {id : NodeId} (hid : id = 0 ∨ id ∈ V) (hhas : t.Has id) :
    IdlesFrom V t B s ((resolver (k + 1)).resolve id) := by
  rintro hs
  rcases hhas with rfl | ⟨n, hn⟩
  · exact ⟨TypeTable.void, s, rfl, hs, rfl, rfl, rfl⟩
  · have h0 : id ≠ 0 := by
      rintro rfl
      cases hn
    exact ⟨n.valueType, s, resolve_apply hf (hid.resolve_left h0) hn hs.tree, hs, rfl, rfl, rfl⟩

include hf in
/-- A parameter is given the type that it has. -/
theorem finishParam_idles {p : NodeId} {n : Node} (hp : p ∈ V) (hn : t.get? p = some n) {type : TypeId}
    (htype : n.valueType = type) : IdlesFrom V t B s (do
      if ← isResolved type then
        if let some sym := (← get).result.decls.get? p then setSymbolType sym type
        discard <| finish p type
      return type) := by
  subst htype
  have hfinish (s' : Analysis) (hknown : isResolved n.valueType s' = .ok true s') :
      IdlesFrom V t B s' (do discard <| finish p n.valueType; return n.valueType) :=
    .bind (.bind (.finish hn (hf.nodes p hp n hn).completed hknown) fun _ _ _ => .pure _) fun _ _ _ => .pure _
  refine .read rfl (.ite (fun hknown => .read rfl ?_) fun _ => .pure _)
  have hresolved (s' : Analysis) (htypes : s'.result.types = s.result.types) :
      isResolved n.valueType s' = .ok true s' := by
    rw [← hknown, ← htypes]
    rfl
  split
  · refine .bind (.setSymbolType _ _) fun _ s₁ h₁ => ?_
    cases h₁
    exact hfinish _ (hresolved _ rfl)
  · exact hfinish s (hresolved s rfl)

include hf ht in
theorem paramType_idles {p : NodeId} {n : Node} (hp : p ∈ V) (hn : t.get? p = some n) (hk : n.kind = .param) :
    IdlesFrom V t B s (paramType (resolver (k + 1)) p) := by
  have hin := hf.inside_of_kind hp hn (by rw [hk]; decide)
  have htype := (hf.nodes p hp n hn).param hk
  unfold paramType
  refine .node_bind hn (.of_resting fun hs => .ite (fun h0 => ?_) fun h0 => ?_)
  · exact .read rfl (finishParam_idles hf hp hn (htype.trans (if_pos h0)))
  · obtain ⟨m, hm⟩ := ((ht.get hn).has_slot (.inl rfl)).resolve_left h0
    refine .read (typeExpr_apply hf (hin.a.resolve_left h0) hm hs.tree) (finishParam_idles hf hp hn ?_)
    rw [htype, if_neg h0, Tree.typeOf, hm]
    rfl

include hf ht in
theorem paramList_idles {l : List NodeId} (hl : ∀ p ∈ l, p ∈ V ∧ ∃ n, t.get? p = some n ∧ n.kind = .param) :
    IdlesFrom V t B s (paramList? (resolver (k + 1)) l) := by
  induction l generalizing s with
  | nil => exact .pure _
  | cons p l ih =>
    obtain ⟨⟨hp, n, hn, hk⟩, hl⟩ := List.forall_mem_cons.1 hl
    unfold paramList?
    refine .bind (paramType_idles hf ht hp hn hk) fun type s₁ _ => .read rfl (.ite (fun _ => .pure _) fun _ => ?_)
    exact .bind (ih hl) fun _ _ _ => .pure _

include hf ht in
theorem paramTypes_idles {fn : SymbolId} (hfn : fn ∈ B) : IdlesFrom V t B s (paramTypes (resolver (k + 1)) fn) := by
  unfold paramTypes
  refine .funcInfo_bind hfn fun info hinfo => .ite (fun _ => .pure _) fun _ => ?_
  obtain ⟨n, hn, hk, hplain⟩ := hinfo.func
  have hin := hf.inside hinfo.node hn hplain
  have hparams : ∀ p ∈ n.list, p ∈ V ∧ ∃ m, t.get? p = some m ∧ m.kind = .param := fun p hp =>
    ⟨hin.list p hp, (ht.get hn).has_part (by rw [hk]; rfl) hp⟩
  refine .node_bind hn (.bind (paramList_idles hf ht hparams) fun params s₁ _ => ?_)
  cases params with
  | none => exact .pure _
  | some params => exact .bind (.modifyFunc hfn fun _ => ⟨rfl, rfl⟩) fun _ _ _ => .pure _

include hf ht in
theorem firstReturn_idles {l : List NodeId} (hl : ∀ r ∈ l, r ∈ V ∧ ∃ n, t.get? r = some n ∧ n.kind = .returnStmt) :
    IdlesFrom V t B s (firstReturn (resolver (k + 1)) l) := by
  induction l generalizing s with
  | nil => exact .pure _
  | cons r l ih =>
    obtain ⟨⟨hr, n, hn, hk⟩, hl⟩ := List.forall_mem_cons.1 hl
    have hin := hf.inside_of_kind hr hn (by rw [hk]; decide)
    unfold firstReturn
    refine .node_bind hn (.ite (fun _ => .pure _) fun _ => ?_)
    refine .bind (resolve_idles hf hin.a ((ht.get hn).has_slot (.inl rfl))) fun type s₁ _ => ?_
    exact .read rfl (.ite (fun _ => .pure _) fun _ => ih hl)

include hf ht in
theorem funcResult_idles {fn : SymbolId} (hfn : fn ∈ B) : IdlesFrom V t B s (funcResult (resolver (k + 1)) fn) := by
  have keep (type : TypeId) (s' : Analysis) : IdlesFrom V t B s' (do
      if ← isResolved type then modifyFunc fn fun i => { i with result := type }
      return type) :=
    .read rfl (.ite (fun _ => .bind (.modifyFunc hfn fun _ => ⟨rfl, rfl⟩) fun _ _ _ => .pure _) fun _ => .pure _)
  unfold funcResult
  refine .funcInfo_bind hfn fun info hinfo => .read rfl (.ite (fun _ => .pure _) fun _ => ?_)
  obtain ⟨n, hn, hk, hplain⟩ := hinfo.func
  have hin := hf.inside hinfo.node hn hplain
  refine .node_bind hn (.of_resting fun hs => .ite (fun h0 => ?_) fun _ => .ite (fun _ => keep _ s) fun _ => ?_)
  · obtain ⟨m, hm⟩ := ((ht.get hn).has_slot (.inl rfl)).resolve_left h0
    exact .read (typeExpr_apply hf (hin.a.resolve_left h0) hm hs.tree) (keep _ s)
  · refine .read rfl (.ite (fun _ => .pure _) fun _ => .whileTyping fun s₁ => ?_)
    exact .bind (firstReturn_idles hf ht hinfo.returns) fun type s₂ _ => keep type s₂

include hf ht in
theorem funcType_idles {fn : SymbolId} (hfn : fn ∈ B) : IdlesFrom V t B s (funcType (resolver (k + 1)) fn) := by
  have intern (f : TypeTable → TypeId × TypeTable) (s : Analysis) : IdlesFrom V t B s (withTypes f) :=
    fun hs => ⟨_, _, rfl, ⟨⟨hs.tree, hs.funcs, hs.bodies, hs.instances⟩, hs.met, hs.symbols⟩, rfl, rfl, rfl⟩
  have compute (s : Analysis) : IdlesFrom V t B s (do
      if !(← paramTypes (resolver (k + 1)) fn) then return TypeTable.pending
      let result ← funcResult (resolver (k + 1)) fn
      if !(← isResolved result) then return TypeTable.pending
      let info ← funcInfo fn
      let t ← withTypes (·.func info.params info.variadic result)
      setSymbolType fn t
      return t) := by
    refine .bind (paramTypes_idles hf ht hfn) fun _ s₁ _ => .ite (fun _ => .pure _) fun _ => ?_
    refine .bind (funcResult_idles hf ht hfn) fun _ s₂ _ => .read rfl (.ite (fun _ => .pure _) fun _ => ?_)
    refine .funcInfo_bind hfn fun info _ => .bind (intern _ _) fun _ s₃ _ => ?_
    exact .bind (.setSymbolType _ _) fun _ _ _ => .pure _
  unfold funcType
  refine .symbol_bind hfn fun sym => .read rfl (.of_resting fun hs => ?_)
  obtain ⟨info, hinfo⟩ := hs.bodies fn (hs.met ▸ hfn)
  simp only [hinfo]
  exact .read rfl (.ite (fun _ => .pure _) fun _ => compute s)

/-- The function of a body is typed again, and the body itself is completed. -/
theorem resolveBody_idles (hf : t.Finished V) (ht : t.Formed) {fn : SymbolId} (hfn : fn ∈ B) :
    IdlesFrom V t B s (resolveBody (resolver (k + 1)) fn) := by
  unfold resolveBody
  refine .symbol_bind hfn fun sym => .read rfl (.ite (fun _ => .pure _) fun _ => ?_)
  refine .bind (.bind (funcType_idles hf ht hfn) fun _ _ _ => .pure _) fun _ s₁ _ => .funcInfo_bind hfn fun info hinfo => ?_
  obtain ⟨n, hn, hk, hplain⟩ := hinfo.func
  have hin := hf.inside hinfo.node hn hplain
  refine .node_bind hn (.ite (fun _ => ?_) fun _ => .pure _)
  exact .bind (resolve_idles hf hin.b ((ht.get hn).has_slot (.inr (.inl rfl)))) fun _ _ _ => .pure _

theorem visitBodies_idles {visit : SymbolId → AnalysisM Unit} (hvisit : ∀ fn ∈ B, ∀ s, IdlesFrom V t B s (visit fn)) (fuel : Nat) :
    ∀ s i, i ≤ B.size → B.size < fuel + i → IdlesFrom V t B s (visitGrowing (·.bodies) visit fuel i) := by
  induction fuel with
  | zero => exact fun s i hle hlt => absurd hlt (by omega)
  | succ fuel ih =>
    intro s i hle hlt
    unfold visitGrowing
    refine .of_resting fun hs => .read rfl ?_
    rw [hs.met]
    cases hi : B[i]? with
    | none => exact .pure _
    | some fn =>
      have hlt' : i < B.size := (Array.getElem?_eq_some_iff.1 hi).1
      exact .bind (hvisit fn (Array.mem_of_getElem? hi) s) fun _ s₁ _ => ih s₁ (i + 1) hlt' (by omega)

theorem visitRoots_idles (hf : t.Finished V) (ht : t.Formed) {l : List NodeId} (hl : ∀ r ∈ l, r ∈ t.roots) :
    IdlesFrom V t B s (forIn l PUnit.unit fun root _ => do
      discard <| (resolver (k + 1)).resolve root
      pure (ForInStep.yield PUnit.unit)) := by
  induction l generalizing s with
  | nil => exact .pure _
  | cons r l ih =>
    obtain ⟨hr, hl⟩ := List.forall_mem_cons.1 hl
    have hhas : t.Has r := .inr (Option.isSome_iff_exists.1 (ht.roots r hr))
    rw [List.forIn_cons]
    refine .bind (.bind (.bind (resolve_idles hf (.inr (hf.roots r hr)) hhas) fun _ _ _ => .pure _) fun _ _ _ => .pure _) ?_
    intro step s₁ hstep
    obtain ⟨_, s₂, h₂, h₃⟩ := bind_ok hstep
    cases h₃
    exact ih hl

/-- A sweep over a finished tree leaves nothing for the next one. -/
theorem sweep_finished (hf : t.Finished V) (ht : t.Formed) (hB : B.size < sweepLimit) (hs : Resting V t B s) (fuel : Nat) :
    ∃ s', sweep (resolver (fuel + 1)) s = .ok ⟨⟩ s' ∧ Resting V t B s' ∧ s'.pending = 0 ∧ s'.sink = s.sink ∧
      s'.result.sweeps = s.result.sweeps := by
  let s₁ : Analysis := { s with progress := false, pending := 0 }
  have hs₁ : Resting V t B s₁ := ⟨⟨hs.tree, hs.funcs, hs.bodies, hs.instances⟩, hs.met, hs.symbols⟩
  have hrest : IdlesFrom V t B s₁ (do
      for root in (← tree).roots do discard <| (resolver (fuel + 1)).resolve root
      visitGrowing (·.bodies) (resolveBody (resolver (fuel + 1))) sweepLimit 0
      visitGrowing (·.instances) (fun id => discard <| (resolver (fuel + 1)).resolve id) sweepLimit 0) := by
    refine .of_resting fun hs₁ => .read rfl ?_
    rw [hs₁.tree]
    refine .bind (visitRoots_idles hf ht fun r hr => hr) fun _ s₂ _ => ?_
    refine .bind (visitBodies_idles (fun fn hfn s => resolveBody_idles hf ht hfn) _ s₂ 0 (Nat.zero_le _) hB) fun _ s₃ _ => ?_
    unfold visitGrowing
    refine .of_resting fun hs₃ => .read rfl ?_
    rw [hs₃.instances]
    exact .pure _
  obtain ⟨_, s', hm, hs', hcalm⟩ := hrest hs₁
  exact ⟨s', hm, hs', hcalm.pending, hcalm.sink, hcalm.sweeps⟩

/-- What a step leaves behind does not depend on the trace. -/
theorem traced_ok {name : String} {parent : Nat} {extra : Analysis → List (String × String)} {step : Nat → AnalysisM Unit}
    {P : Analysis → Prop} (hstep : ∀ span tracer, ∃ s', step span { s with tracer } = .ok ⟨⟩ s' ∧ P s')
    (hP : ∀ s' tracer, P s' → P { s' with tracer }) : ∃ s', traced name parent extra step s = .ok ⟨⟩ s' ∧ P s' := by
  obtain ⟨s', hs', hp⟩ := hstep (s.tracer.start 2 name parent).1.id (s.tracer.start 2 name parent).2
  refine ⟨_, (bind_apply hs' : (step _ >>= _) _ = _), hP s' _ hp⟩

/-- The resolution of a finished tree is over: it took `sweeps` sweeps and reported nothing. -/
structure Over (t : Tree) (sink : Sink) (sweeps : Nat) (s : Analysis) : Prop where
  tree : s.result.tree = t
  pending : s.pending = 0
  sink : s.sink = sink
  sweeps : s.result.sweeps = sweeps

theorem tracedSweep_finished (hf : t.Finished V) (ht : t.Formed) (hB : B.size < sweepLimit) (hs : Resting V t B s) (fuel parent : Nat) :
    ∃ s', tracedSweep (resolver (fuel + 1)) parent s = .ok ⟨⟩ s' ∧ Over t s.sink (s.result.sweeps + 1) s' := by
  have hsweep : ∃ s', traced "resolve_sweep" parent (fun s => [("pending", toString s.pending), ("strict", toString s.strict)])
      (fun _ => sweep (resolver (fuel + 1))) { s with result := { s.result with sweeps := s.result.sweeps + 1 } } = .ok ⟨⟩ s' ∧
      Over t s.sink (s.result.sweeps + 1) s' := by
    refine traced_ok (fun _ tracer => ?_) fun s' tracer h => ⟨h.tree, h.pending, h.sink, h.sweeps⟩
    have hcounted : Resting V t B { s with result := { s.result with sweeps := s.result.sweeps + 1 }, tracer } :=
      ⟨⟨hs.tree, hs.funcs, hs.bodies, hs.instances⟩, hs.met, hs.symbols⟩
    obtain ⟨s', hm, hs', hpending, hsink, hsweeps⟩ := sweep_finished hf ht hB hcounted fuel
    exact ⟨s', hm, hs'.tree, hpending, hsink, hsweeps⟩
  exact hsweep

theorem resolveSweeps_finished (hf : t.Finished V) (ht : t.Formed) (hB : B.size < sweepLimit) (hs : Resting V t B s) 
    (fuel parent budget : Nat) :
    ∃ s', resolveSweeps (resolver (fuel + 1)) parent budget s = .ok ⟨⟩ s' ∧ Over t s.sink (s.result.sweeps + 1) s' := by
  cases budget with
  | zero =>
    have hstrict : Resting V t B { s with strict := true } :=
      ⟨⟨hs.tree, hs.funcs, hs.bodies, hs.instances⟩, hs.met, hs.symbols⟩
    unfold resolveSweeps
    exact tracedSweep_finished hf ht hB hstrict fuel parent
  | succ budget =>
    obtain ⟨s', hm, hover⟩ := tracedSweep_finished hf ht hB hs fuel parent
    refine ⟨s', ?_, hover⟩
    unfold resolveSweeps
    rw [bind_apply hm]
    change (if s'.pending = 0 then pure ⟨⟩ else _ : AnalysisM Unit) s' = _
    rw [if_pos hover.pending]
    rfl

theorem resolvePass_finished (hf : t.Finished V) (ht : t.Formed) (hB : B.size < sweepLimit) (hs : Resting V t B s) :
    ∃ s', resolvePass s = .ok ⟨⟩ s' ∧ Over t s.sink (s.result.sweeps + 1) s' := by
  have hpass : ∃ s', traced "resolve" 0 (fun s => [("sweeps", toString s.result.sweeps)])
      (fun span => resolveSweeps (resolver (4 * s.result.tree.size + 4095 + 1)) span s.options.maxSweeps) s = .ok ⟨⟩ s' ∧
      Over t s.sink (s.result.sweeps + 1) s' := by
    refine traced_ok (fun span tracer => ?_) fun s' tracer h => ⟨h.tree, h.pending, h.sink, h.sweeps⟩
    have htraced : Resting V t B { s with tracer } := ⟨⟨hs.tree, hs.funcs, hs.bodies, hs.instances⟩, hs.met, hs.symbols⟩
    exact resolveSweeps_finished hf ht hB htraced _ span s.options.maxSweeps
  exact hpass

end Resolution

end Analysis

/-- An analysis changes no node of a finished tree. It takes one sweep, which reports nothing: what is reported was reported
by the declaration pass. -/
theorem Tree.analyze_finished {V : List NodeId} {t : Tree} (hf : t.Finished V) (ht : t.Formed) (options : AnalysisOptions)
    (tracer : Tracer) : ∃ s, Analysis.declarePass (.initial t options tracer) = .ok ⟨⟩ s ∧
      (s.bodies.size < Analysis.sweepLimit →
        let e := t.analyze options tracer
        e.failure = none ∧ e.state.result.tree = t ∧ e.diagnostics = s.sink.delivered ∧ e.state.result.sweeps = 1) := by
  have hinit : Analysis.Within V t (.initial t options tracer) :=
    ⟨rfl, nofun, fun fn h => absurd h (Array.not_mem_empty fn), rfl⟩
  obtain ⟨_, s, hpass, -⟩ := Analysis.declarePass_covers ht _ (Analysis.initial_ready t options tracer)
  obtain ⟨hwithin, hsweeps⟩ := (Analysis.declarePass_stays hf ht).stays _ _ _ hinit hpass
  have hwalks : Analysis.Walks Analysis.declarePass := Analysis.Walks.traced _ _ _ fun _ => inferInstance
  have hsound := ((hwalks.walks _).of_ok (Analysis.initial_sound t options tracer) hpass).sound
    (Analysis.initial_sound t options tracer)
  refine ⟨s, hpass, fun hB => ?_⟩
  have hresting : Analysis.Resting V t s.bodies s := by
    refine ⟨hwithin, rfl, fun fn hfn => ?_⟩
    obtain ⟨info, hinfo⟩ := hwithin.bodies fn hfn
    obtain ⟨sym, hsym, -⟩ := hsound.infos fn info hinfo
    exact ⟨sym, hsym⟩
  obtain ⟨s', hm, hover⟩ := Analysis.resolvePass_finished hf ht hB hresting
  have hrun : Analysis.run.run (.initial t options tracer) = .ok ⟨⟩ s' := by
    change Analysis.run (.initial t options tracer) = _
    rw [Analysis.run_eq, Analysis.bind_apply hpass, hm]
  have hanalyze : t.analyze options tracer = { state := s' } := by
    unfold Tree.analyze
    rw [hrun]
  rw [hanalyze]
  refine ⟨rfl, hover.tree, ?_, ?_⟩
  · change s'.sink.delivered = _
    rw [hover.sink]
  · exact hover.sweeps.trans (by rw [hsweeps]; rfl)

/-- A variable whose initial value is cast, a function whose result is inferred, and a generic function. -/
def inferred : Tree where
  nodes := #[
    .typeName ["real"], .intLit 1, .letDecl "x" 1 2,
    .typeName ["int"], .param "p" 4, .ident ["p"], .returnStmt 6, .block [7], .func "f" [5] 0 8,
    .typeName ["T"], .param "q" 10, .block [], { Node.func "g" [11] 0 12 with params := ["T"] },
    .ident ["f"], .intLit 2, .call 14 [15], .exprStmt 16, { kind := .file, list := [3, 9, 13, 17] }]
  roots := [18]

/-- The nodes outside of the generic function; the last one is the cast. -/
def inferredNodes : List NodeId := [18, 3, 1, 2, 9, 5, 4, 8, 7, 6, 13, 17, 16, 14, 15, 19]

theorem inferred_again :
    let t := (inferred.analyze {} {}).state.result.tree
    t.Formed ∧ t.Finished inferredNodes ∧ (t.analyze {} {}).failure = none ∧ (t.analyze {} {}).state.result.tree = t ∧
      (t.analyze {} {}).diagnostics = [] ∧ (t.analyze {} {}).state.result.sweeps = 1 := by
  obtain ⟨hformed, hfinished, hquiet, hbodies⟩ :
      let t := (inferred.analyze {} {}).state.result.tree
      t.Formed ∧ t.Finished inferredNodes ∧ (t.analyze {} {}).diagnostics = [] ∧
        (Analysis.after Analysis.declarePass (.initial t {} {})).bodies.size = 1 := by decide +kernel
  obtain ⟨s, hpass, h⟩ := Tree.analyze_finished hfinished hformed {} {}
  rw [Analysis.after, hpass] at hbodies
  have hone : s.bodies.size = 1 := hbodies
  obtain ⟨hfailure, htree, -, hsweeps⟩ := h (by rw [hone]; decide)
  exact ⟨hformed, hfinished, hfailure, htree, hquiet, hsweeps⟩

/-- A call weighs a method whose parameter type is reached again, through a function literal, while it is resolved. The inner
visit completes a node and the outer one completes it once more with the pending type; the reports of both are dropped. -/
def reentered : Tree where
  nodes := #[
    .typeName ["dynamic"], .typeArray 1, .intLit 1, .arrayLit [3], .letDecl "z" 2 4,
    .typeName ["O"], .letDecl "x" 6 0, .ident ["x"], .member 8 "m", .call 9 [], .letDecl "y" 0 10,
    .typeName ["dynamic"], .field "m" 12 0, .typeStruct [13], .typeDecl "O" 14,
    .typeName ["dynamic"], .typeName ["dynamic"], .typeArray 17, .intLit 1, .arrayLit [19], .field "list" 18 20,
    .typeName ["T"], .field "self" 22 0, .typeName ["dynamic"], .ident ["y"], .field "last" 24 25,
    .typeStruct [21, 23, 26], .param "p" 27, .typeName ["dynamic"], .ident ["p"], .field "a" 29 30, .typeStruct [31],
    .typeDecl "T" 32, .block [33], .func "" [28] 0 34, .field "h" 16 35, .typeStruct [36], .param "q" 37, .block [],
    .func "m" [38] 0 39, .nameSpace "O" [40], .typeName ["int"], .block [], .func "f" [] 42 43,
    .typeName ["real"], .block [], .func "g" [] 45 46, { kind := .file, list := [5, 7, 11, 15, 41, 44, 47] }]
  roots := [48]

/-- The first analysis ends without a report and leaves the parameter type open. The second one resolves it, and types its
parts by numbers that the table of the first one gave out. -/
theorem reentered_again :
    let first := reentered.analyze {} {}
    reentered.Formed ∧ first.failure = none ∧ first.diagnostics = [] ∧
      (first.state.result.tree.analyze {} {}).hasErrors = true := by
  decide +kernel

end TreeCompiler
