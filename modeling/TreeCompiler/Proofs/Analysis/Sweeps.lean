import TreeCompiler.Proofs.Agree.Run
import TreeCompiler.Proofs.Analysis.Coverage
import TreeCompiler.Proofs.Analysis.Visits
import TreeCompiler.Tree.Builder

/-!
# The limit of sweeps

A lenient sweep leaves for later what it cannot infer; the sweep at the limit is strict and reports it. A strict sweep that
has nothing to report does what a lenient one does. So a higher limit gives the same analysis as long as the further sweeps, if
there are any, find nothing to do.

* `Analysis.Complete` : what a sweep goes to is complete; `sweep_complete` : such a sweep changes nothing;
* `Analysis.exactly` : the pace of a run with another limit of sweeps; `Alike.run` : both runs do the same, the second one
  lenient, unless the first reports a node as not inferable;
* `resolveSweepsWith` : the sweeps of a run, each with a resolver of its own; `run_settles` : a last sweep that leaves nothing
  pending comes to completed nodes only;
* `resolveSweeps_more` : the sweeps of two runs; `Tree.analyze_more_sweeps` : two analyses;
* `Tree.analyze_late_body` : a body that the last sweep does not go to.
-/

namespace TreeCompiler

namespace Analysis

variable {s s' s₁ s₂ : Analysis}

/-! ## Nothing to do -/

/-- Nothing is left to do for a function: it was refused, it is still generic, or its type is known and its body complete. -/
def completes (s : Analysis) (fn : SymbolId) : Bool :=
  match s.result.scopes.symbol? fn, s.funcs.get? fn with
  | some sym, some info =>
    sym.rejected || sym.templateArgs.any s.result.types.hasParams ||
      info.signed && (sym.type ≠ 0 && s.result.types.isResolved sym.type) &&
        (s.result.tree.get? info.node).any fun n => n.b = 0 || s.result.tree.done n.b
  | _, _ => false

/-- All that a sweep goes to is complete: files, functions, and instances of variables. There are not more functions and
variables than a sweep may meet. -/
structure Complete (s : Analysis) : Prop where
  roots : ∀ r ∈ s.result.tree.roots, s.result.tree.done r = true
  bodies : ∀ fn ∈ s.bodies, s.completes fn = true
  instances : ∀ id ∈ s.instances, s.result.tree.done id = true
  few : s.bodies.size < sweepLimit ∧ s.instances.size < sweepLimit

instance : Decidable (Complete s) :=
  decidable_of_iff
    ((∀ r ∈ s.result.tree.roots, s.result.tree.done r = true) ∧ (∀ fn ∈ s.bodies, s.completes fn = true) ∧
      (∀ id ∈ s.instances, s.result.tree.done id = true) ∧ s.bodies.size < sweepLimit ∧ s.instances.size < sweepLimit)
    ⟨fun ⟨roots, bodies, instances, few⟩ => ⟨roots, bodies, instances, few⟩,
      fun h => ⟨h.roots, h.bodies, h.instances, h.few⟩⟩

variable (fuel : Nat)

theorem resolve_done {id : NodeId} (h : s.result.tree.done id = true) :
    ∃ t, (resolver (fuel + 1)).resolve id s = .ok t s := by
  obtain ⟨n, hn, hdone⟩ := (Option.any_eq_true _ _).1 h
  have h0 : id ≠ 0 := by
    rintro rfl
    cases hn
  have hnode : node id s = .ok n s := by
    rw [node_apply, hn]
    rfl
  refine ⟨n.valueType, ?_⟩
  change (if id = 0 then _ else node id >>= _ : AnalysisM TypeId) s = _
  rw [if_neg h0, bind_apply hnode, if_pos hdone]
  rfl

theorem discard_done {id : NodeId} (h : s.result.tree.done id = true) :
    (discard <| (resolver (fuel + 1)).resolve id) s = .ok ⟨⟩ s := by
  obtain ⟨t, ht⟩ := resolve_done fuel h
  exact bind_apply ht

theorem resolveBody_complete {fn : SymbolId} (h : s.completes fn = true) :
    resolveBody (resolver (fuel + 1)) fn s = .ok ⟨⟩ s := by
  unfold completes at h
  split at h
  case h_2 => cases h
  case h_1 sym info hsym hinfo =>
    have hparams : anyParams sym.templateArgs s = .ok (sym.templateArgs.any s.result.types.hasParams) s := rfl
    unfold resolveBody
    rw [bind_apply (symbol_ok hsym), bind_apply hparams]
    by_cases hskip : (sym.rejected || sym.templateArgs.any s.result.types.hasParams) = true
    · rw [if_pos hskip]
      rfl
    · rw [if_neg hskip]
      simp only [hskip, Bool.false_or, Bool.and_eq_true] at h
      obtain ⟨⟨hsigned, hknown⟩, hbody⟩ := h
      obtain ⟨n, hn, hb⟩ := (Option.any_eq_true _ _).1 hbody
      have htype : funcType (resolver (fuel + 1)) fn s = .ok sym.type s := by
        have hresolved : isResolved sym.type s = .ok true s := by
          rw [← Bool.and_eq_true] at hknown
          exact congrArg (EStateM.Result.ok · s) hknown
        have hget : (get : AnalysisM Analysis) s = .ok s s := rfl
        unfold funcType
        rw [bind_apply (symbol_ok hsym), bind_apply hget]
        simp only [hinfo]
        rw [bind_apply hresolved, if_pos (by simp [hsigned])]
        rfl
      have hinfo' : funcInfo fn s = .ok info s := by
        rw [funcInfo_apply, hinfo]
        rfl
      have hnode : node info.node s = .ok n s := by
        rw [node_apply, hn]
        rfl
      have hfunc : (discard <| funcType (resolver (fuel + 1)) fn) s = .ok ⟨⟩ s := bind_apply htype
      rw [bind_apply hfunc, bind_apply hinfo', bind_apply hnode]
      split
      · exact discard_done fuel (by simpa [‹n.b ≠ 0›] using hb)
      · rfl

theorem visitGrowing_complete {α : Type} {list : Analysis → Array α} {visit : α → AnalysisM Unit}
    (h : ∀ a ∈ list s, visit a s = .ok ⟨⟩ s) (limit i : Nat) (hi : i ≤ (list s).size) (hlt : (list s).size < limit + i) :
    visitGrowing list visit limit i s = .ok ⟨⟩ s := by
  induction limit generalizing i with
  | zero => omega
  | succ limit ih =>
    have hget : (get : AnalysisM Analysis) s = .ok s s := rfl
    unfold visitGrowing
    rw [bind_apply hget]
    cases hx : (list s)[i]? with
    | none => rfl
    | some x =>
      have hlt' : i < (list s).size := (Array.getElem?_eq_some_iff.1 hx).1
      have hvisit := h x (Array.mem_of_getElem? hx)
      exact (bind_apply hvisit).trans (ih (i + 1) hlt' (by omega))

theorem visitRoots_complete {l : List NodeId} (hl : ∀ r ∈ l, s.result.tree.done r = true) :
    (forIn l PUnit.unit fun root _ => do
      discard <| (resolver (fuel + 1)).resolve root
      pure (ForInStep.yield PUnit.unit) : AnalysisM PUnit) s = .ok ⟨⟩ s := by
  induction l with
  | nil => rfl
  | cons r l ih =>
    obtain ⟨hr, hl⟩ := List.forall_mem_cons.1 hl
    have hstep : (do
        discard <| (resolver (fuel + 1)).resolve r
        pure (ForInStep.yield PUnit.unit) : AnalysisM (ForInStep PUnit)) s = .ok (.yield ⟨⟩) s :=
      bind_apply (discard_done fuel hr)
    rw [List.forIn_cons, bind_apply hstep]
    exact ih hl

/-- A sweep that has nothing to do changes nothing. -/
theorem sweep_complete (h : Complete s) :
    sweep (resolver (fuel + 1)) s = .ok ⟨⟩ { s with progress := false, pending := 0 } := by
  let s₁ : Analysis := { s with progress := false, pending := 0 }
  have hs₁ : Complete s₁ := ⟨h.roots, h.bodies, h.instances, h.few⟩
  have hroots : (forIn s₁.result.tree.roots PUnit.unit fun root _ => do
      discard <| (resolver (fuel + 1)).resolve root
      pure (ForInStep.yield PUnit.unit) : AnalysisM PUnit) s₁ = .ok ⟨⟩ s₁ := visitRoots_complete fuel hs₁.roots
  have hbodies : visitGrowing (·.bodies) (resolveBody (resolver (fuel + 1))) sweepLimit 0 s₁ = .ok ⟨⟩ s₁ :=
    visitGrowing_complete (fun fn hfn => resolveBody_complete fuel (hs₁.bodies fn hfn)) _ 0 (Nat.zero_le _) hs₁.few.1
  have hinstances : visitGrowing (·.instances) (fun id => discard <| (resolver (fuel + 1)).resolve id) sweepLimit 0 s₁ =
      .ok ⟨⟩ s₁ :=
    visitGrowing_complete (fun id hid => discard_done fuel (hs₁.instances id hid)) _ 0 (Nat.zero_le _) hs₁.few.2
  have hreset : (modify fun s => { s with progress := false, pending := 0 } : AnalysisM Unit) s = .ok ⟨⟩ s₁ := rfl
  have htree : tree s₁ = .ok s₁.result.tree s₁ := rfl
  unfold sweep
  rw [bind_apply hreset, bind_apply htree, bind_apply hroots, bind_apply hbodies]
  exact hinstances

/-! ## Spans -/

section Span

variable {name : String} {parent : Nat} {extra : Analysis → List (String × String)} {step : Nat → AnalysisM Unit}

theorem traced_of_ok (h : step (s.tracer.start 2 name parent).1.id { s with tracer := (s.tracer.start 2 name parent).2 } =
    .ok ⟨⟩ s₁) : ∃ tracer, traced name parent extra step s = .ok ⟨⟩ { s₁ with tracer } :=
  ⟨_, (bind_apply h : (step _ >>= _) _ = _)⟩

theorem ok_of_traced (h : traced name parent extra step s = .ok ⟨⟩ s') : ∃ s₁ tracer, s' = { s₁ with tracer } ∧
    step (s.tracer.start 2 name parent).1.id { s with tracer := (s.tracer.start 2 name parent).2 } = .ok ⟨⟩ s₁ := by
  obtain ⟨span, s₀, hopen, hrest⟩ := bind_ok h
  cases hopen
  obtain ⟨_, s₁, hstep, hclose⟩ := bind_ok hrest
  cases hclose
  exact ⟨s₁, _, rfl, hstep⟩

end Span

/-- The state in which the next sweep runs. -/
def nextSweep (parent : Nat) (s : Analysis) : Analysis :=
  { s with
    result := { s.result with sweeps := s.result.sweeps + 1 }
    tracer := (s.tracer.start 2 "resolve_sweep" parent).2 }

theorem tracedSweep_of_ok {rec : Resolver} {parent : Nat} (h : sweep rec (nextSweep parent s) = .ok ⟨⟩ s₁) :
    ∃ tracer, tracedSweep rec parent s = .ok ⟨⟩ { s₁ with tracer } := by
  change ∃ tracer, traced "resolve_sweep" parent _ (fun _ => sweep rec)
    { s with result := { s.result with sweeps := s.result.sweeps + 1 } } = _
  exact traced_of_ok h

theorem ok_of_tracedSweep {rec : Resolver} {parent : Nat} (h : tracedSweep rec parent s = .ok ⟨⟩ s') :
    ∃ s₁ tracer, s' = { s₁ with tracer } ∧ sweep rec (nextSweep parent s) = .ok ⟨⟩ s₁ := by
  change traced "resolve_sweep" parent _ (fun _ => sweep rec)
    { s with result := { s.result with sweeps := s.result.sweeps + 1 } } = _ at h
  exact ok_of_traced h

/-! ## The last sweep -/

/-- The sweeps of a run, each of which has the resolver for its number. -/
def resolveSweepsWith (rec : Nat → Resolver) (parent : Nat) : Nat → AnalysisM Unit
  | 0 => do
    modify fun s => { s with strict := true }
    tracedSweep (rec ((← get).result.sweeps + 1)) parent
  | budget + 1 => do
    tracedSweep (rec ((← get).result.sweeps + 1)) parent
    let s ← get
    if s.pending = 0 then return
    resolveSweepsWith rec parent (if s.progress then budget else 0)
termination_by budget => budget
decreasing_by split <;> omega

/-- Sweeps that all have the same resolver are the ones of a run. -/
theorem resolveSweepsWith_const (rec : Resolver) (parent budget : Nat) :
    resolveSweepsWith (fun _ => rec) parent budget = resolveSweeps rec parent budget := by
  induction budget using Nat.strong_induction_on with
  | h budget ih =>
    cases budget with
    | zero =>
      unfold resolveSweepsWith resolveSweeps
      rfl
    | succ budget =>
      have hnext (s : Analysis) : resolveSweepsWith (fun _ => rec) parent (if s.progress then budget else 0) =
          resolveSweeps rec parent (if s.progress then budget else 0) := ih _ (by split <;> omega)
      unfold resolveSweepsWith resolveSweeps
      simp only [hnext]
      rfl

/-- A sweep counts itself, and when it leaves nothing pending it comes to no node that is not completed at its end. -/
theorem tracedSweep_settles {parent : Nat} (h : tracedSweep (resolver fuel) parent s = .ok ⟨⟩ s') :
    s'.result.sweeps = s.result.sweeps + 1 ∧
      (s'.pending = 0 → tracedSweep (confined s'.result.tree.done fuel) parent s = .ok ⟨⟩ s') := by
  obtain ⟨_, s₁, hcount, hrest⟩ := bind_ok h
  cases hcount
  obtain ⟨span, s₂, hopen, hrest⟩ := bind_ok hrest
  cases hopen
  obtain ⟨_, s₃, hsweep, hclose⟩ := bind_ok hrest
  cases hclose
  let rec' : Resolver := confined s₃.result.tree.done fuel
  have hheeds : s₃.result.sweeps = s.result.sweeps + 1 ∧
      (s₃.pending = 0 → (∀ id, s₃.result.tree.done id = true → s₃.result.tree.done id = true) → sweep rec' _ = .ok ⟨⟩ s₃) :=
    sweep_heeds hsweep
  refine ⟨hheeds.1, fun hpending => ?_⟩
  exact (bind_apply (hheeds.2 hpending fun _ => id) : (sweep rec' >>= _) _ = _)

/-- When nothing is left pending, the last sweep comes to no node that is not completed at its end. -/
theorem resolveSweeps_settles {parent budget : Nat} (h : resolveSweeps (resolver fuel) parent budget s = .ok ⟨⟩ s') :
    s.result.sweeps < s'.result.sweeps ∧ (s'.pending = 0 → resolveSweepsWith (fun k =>
      if k = s'.result.sweeps then confined s'.result.tree.done fuel else resolver fuel) parent budget s = .ok ⟨⟩ s') := by
  let rec' (k : Nat) : Resolver := if k = s'.result.sweeps then confined s'.result.tree.done fuel else resolver fuel
  have hlast : rec' s'.result.sweeps = confined s'.result.tree.done fuel := if_pos rfl
  induction budget using Nat.strong_induction_on generalizing s with
  | h budget ih =>
    cases budget with
    | zero =>
      rw [resolveSweeps] at h
      obtain ⟨hsweeps, hsame⟩ := tracedSweep_settles fuel (s := { s with strict := true }) h
      refine ⟨hsweeps ▸ Nat.lt_succ_self _, fun hpending => ?_⟩
      rw [resolveSweepsWith]
      change tracedSweep (rec' (s.result.sweeps + 1)) parent { s with strict := true } = _
      rw [← hsweeps, hlast]
      exact hsame hpending
    | succ budget =>
      rw [resolveSweeps] at h
      obtain ⟨_, s₁, hsweep, hrest⟩ := bind_ok h
      obtain ⟨hsweeps, hsame⟩ := tracedSweep_settles fuel hsweep
      change (if s₁.pending = 0 then pure ⟨⟩ else resolveSweeps (resolver fuel) parent (if s₁.progress then budget else 0) :
        AnalysisM Unit) s₁ = _ at hrest
      have hwith {r : Resolver} (hr : rec' (s.result.sweeps + 1) = r) (h₁ : tracedSweep r parent s = .ok ⟨⟩ s₁) :
          resolveSweepsWith rec' parent (budget + 1) s = (if s₁.pending = 0 then pure ⟨⟩ else
            resolveSweepsWith rec' parent (if s₁.progress then budget else 0) : AnalysisM Unit) s₁ := by
        rw [resolveSweepsWith]
        change (tracedSweep (rec' (s.result.sweeps + 1)) parent >>= _) s = _
        rw [hr]
        exact bind_apply h₁
      by_cases hpending : s₁.pending = 0
      · rw [if_pos hpending] at hrest
        cases hrest
        refine ⟨hsweeps ▸ Nat.lt_succ_self _, fun _ => ?_⟩
        rw [hwith (hsweeps ▸ hlast) (hsame hpending), if_pos hpending]
        rfl
      · rw [if_neg hpending] at hrest
        -- a later sweep is the last one
        obtain ⟨hlt, hrest'⟩ := ih _ (by split <;> omega) hrest
        refine ⟨by omega, fun hend => ?_⟩
        rw [hwith (if_neg (by omega)) hsweep, if_neg hpending]
        exact hrest' hend

/-- Sweeps that have nothing to do end with the first one. -/
theorem resolveSweeps_complete (h : Complete s) (parent budget : Nat) :
    ∃ s', resolveSweeps (resolver (fuel + 1)) parent budget s = .ok ⟨⟩ s' ∧ Complete s' ∧ s'.sink = s.sink ∧
      s'.result = { s.result with sweeps := s.result.sweeps + 1 } := by
  have hsweep (s : Analysis) (h : Complete s) : ∃ tracer, tracedSweep (resolver (fuel + 1)) parent s = .ok ⟨⟩ { s with
      result := { s.result with sweeps := s.result.sweeps + 1 }, tracer, progress := false, pending := 0 } := by
    have hnext : Complete (nextSweep parent s) := ⟨h.roots, h.bodies, h.instances, h.few⟩
    exact tracedSweep_of_ok (sweep_complete fuel hnext)
  cases budget with
  | zero =>
    have hstrict : Complete { s with strict := true } := ⟨h.roots, h.bodies, h.instances, h.few⟩
    obtain ⟨tracer, hm⟩ := hsweep _ hstrict
    unfold resolveSweeps
    exact ⟨_, hm, ⟨h.roots, h.bodies, h.instances, h.few⟩, rfl, rfl⟩
  | succ budget =>
    obtain ⟨tracer, hm⟩ := hsweep s h
    unfold resolveSweeps
    rw [bind_apply hm]
    exact ⟨_, rfl, ⟨h.roots, h.bodies, h.instances, h.few⟩, rfl, rfl⟩

variable {fuel}

/-! ## Two runs -/

/-- The pace of a run with another limit of sweeps that may be lenient where the first run is strict. -/
def exactly (depth limit : Nat) (lenient : Bool) : Pace := { Dialect.exact with depth, lenient, sweeps := some limit }

theorem Alike.tree_eq {depth limit : Nat} {lenient : Bool} {v : View} (h : Alike (exactly depth limit lenient) [] s v) :
    v.tree = s.result.tree ∧ v.scopes = s.result.scopes :=
  ⟨h.tree.eq_of_strict Dialect.strict_exact, h.scopes.eq_of_strict Dialect.strict_exact⟩

/-- The second run does what the first one does, unless it is lenient and the first one reports a node as not inferable. -/
theorem Alike.run {α : Type} {depth limit : Nat} {lenient : Bool} {v : View} {m : AnalysisM α} {a : α}
    (h : Alike (exactly depth limit lenient) [] s v) [hm : Agree (exactly depth limit lenient) [] m m]
    (hdepth : s.options.maxTryDepth = depth) (hok : m s = .ok a s₁)
    (hnone : lenient = true → ∀ r ∈ s₁.sink.history, r.diagnostic.code ≠ .inferenceUnavailable) :
    s₁.options = s.options ∧ ∃ v', Alike (exactly depth limit lenient) [] s₁ v' ∧
      m (s.vary (exactly depth limit lenient) v) = .ok a (s₁.vary (exactly depth limit lenient) v') := by
  have hlater := (hm.agrees s v).of_ok hok
  have hagree := (hm.agrees s v).agree h
  rw [after, hok] at hagree
  refine ⟨hlater.options, ?_⟩
  rcases hagree with (⟨hne, -⟩ | ⟨hlenient, r, hr, hcode⟩) | hagree
  · exact absurd ((congrArg AnalysisOptions.maxTryDepth hlater.options).trans hdepth) hne
  · exact absurd hcode (hnone hlenient r hr)
  · exact hagree

/-- Two runs end alike, the second one after a further sweep or not. -/
structure SameEnd (s s' : Analysis) : Prop where
  result : { s'.result with sweeps := s.result.sweeps } = s.result
  sweeps : s'.result.sweeps = s.result.sweeps ∨ s'.result.sweeps = s.result.sweeps + 1
  sink : s.sink.Alike s'.sink
  complete : Complete s → Complete s'
  pending : s.pending = 0 → s'.pending = 0

section More

variable {depth limit parent : Nat} {v : View}

theorem Alike.sameEnd {lenient : Bool} (h : Alike (exactly depth limit lenient) [] s v) (tracer tracer' : Tracer) :
    SameEnd { s with tracer } { s.vary (exactly depth limit lenient) v with tracer := tracer' } := by
  obtain ⟨htree, hscopes⟩ := h.tree_eq
  have hsink := h.sink
  obtain ⟨tree, scopes, sink⟩ := v
  cases htree
  cases hscopes
  exact ⟨rfl, .inl rfl, hsink, fun hs => ⟨hs.roots, hs.bodies, hs.instances, hs.few⟩, id⟩

theorem resolveSweeps_same (ha : Alike (exactly depth limit false) [] s v) (hdepth : s.options.maxTryDepth = depth) {n : Nat}
    (hok : resolveSweeps (resolver fuel) parent n s = .ok ⟨⟩ s₁) :
    ∃ s₁', resolveSweeps (resolver fuel) parent n (s.vary (exactly depth limit false) v) = .ok ⟨⟩ s₁' ∧ SameEnd s₁ s₁' := by
  have hsteady : (exactly depth limit false).Steady := ⟨rfl⟩
  have hagree : Agree (exactly depth limit false) [] (resolveSweeps (resolver fuel) parent n)
      (resolveSweeps (resolver fuel) parent n) := Agree.resolveSweeps_agree parent n
  obtain ⟨-, v₁, ha₁, hok'⟩ := ha.run hdepth hok fun h => absurd h Bool.false_ne_true
  exact ⟨_, hok', ha₁.sameEnd s₁.tracer s₁.tracer⟩

/-- A strict sweep that reports nothing as not inferable, in place of a lenient one. -/
theorem strictSweep_more (ha : Alike (exactly depth limit false) [] s v) (hdepth : s.options.maxTryDepth = depth)
    (hok : resolveSweeps (resolver (fuel + 1)) parent 0 s = .ok ⟨⟩ s₁)
    (hnone : ∀ r ∈ s₁.sink.history, r.diagnostic.code ≠ .inferenceUnavailable) (hend : s₁.pending = 0 ∨ Complete s₁)
    (m : Nat) :
    ∃ s₁', resolveSweeps (resolver (fuel + 1)) parent (m + 1) (s.vary (exactly depth limit false) v) = .ok ⟨⟩ s₁' ∧
      SameEnd s₁ s₁' := by
  let begun : Analysis := { s with strict := true }
  let pace := exactly depth limit (!s.strict)
  have hstrict : tracedSweep (resolver (fuel + 1)) parent begun = .ok ⟨⟩ s₁ := by
    unfold resolveSweeps at hok
    exact hok
  obtain ⟨x, tracer, rfl, hx⟩ := ok_of_tracedSweep hstrict
  have hbegun : Alike pace [] (nextSweep parent begun) v := ⟨ha.tree, ha.scopes, ha.sink, ha.written, ha.arms, ha.depth⟩
  obtain ⟨-, v₁, ha₁, hx'⟩ := hbegun.run hdepth hx fun _ => hnone
  have hsame : (nextSweep parent begun).vary pace v = nextSweep parent (s.vary (exactly depth limit false) v) := by
    simp [nextSweep, begun, pace, exactly]
  rw [hsame] at hx'
  obtain ⟨tracer', hsweep⟩ := tracedSweep_of_ok hx'
  have hends := ha₁.sameEnd tracer tracer'
  have hnext : resolveSweeps (resolver (fuel + 1)) parent (m + 1) (s.vary (exactly depth limit false) v) =
      (if x.pending = 0 then pure ⟨⟩ else resolveSweeps (resolver (fuel + 1)) parent (if x.progress then m else 0) :
        AnalysisM Unit) { x.vary pace v₁ with tracer := tracer' } := by
    rw [resolveSweeps, bind_apply hsweep]
    rfl
  rw [hnext]
  by_cases hpending : x.pending = 0
  · rw [if_pos hpending]
    exact ⟨_, rfl, hends⟩
  · rw [if_neg hpending]
    obtain ⟨s₂, hok₂, hcomplete, hsink, hresult⟩ :=
      resolveSweeps_complete fuel (hends.complete (hend.resolve_left hpending)) parent (if x.progress then m else 0)
    refine ⟨s₂, hok₂, ?_, ?_, ?_, fun _ => hcomplete, fun h => absurd h hpending⟩
    · rw [hresult]
      exact hends.result
    · rw [hresult]
      exact .inr rfl
    · rw [hsink]
      exact hends.sink

theorem resolveSweeps_more {n m : Nat} (hnm : n ≤ m) (ha : Alike (exactly depth limit false) [] s v)
    (hdepth : s.options.maxTryDepth = depth) (hok : resolveSweeps (resolver (fuel + 1)) parent n s = .ok ⟨⟩ s₁)
    (hnone : ∀ r ∈ s₁.sink.history, r.diagnostic.code ≠ .inferenceUnavailable) (hend : s₁.pending = 0 ∨ Complete s₁) :
    ∃ s₁', resolveSweeps (resolver (fuel + 1)) parent m (s.vary (exactly depth limit false) v) = .ok ⟨⟩ s₁' ∧
      SameEnd s₁ s₁' := by
  induction n generalizing m s v with
  | zero =>
    cases m with
    | zero => exact resolveSweeps_same ha hdepth hok
    | succ m => exact strictSweep_more ha hdepth hok hnone hend m
  | succ n ih =>
    obtain ⟨m, rfl⟩ : ∃ k, m = k + 1 := ⟨m - 1, by omega⟩
    have hsteady : (exactly depth limit false).Steady := ⟨rfl⟩
    rw [resolveSweeps] at hok
    obtain ⟨_, s₂, hsweep, hrest⟩ := bind_ok hok
    obtain ⟨hoptions, v₂, ha₂, hsweep'⟩ := ha.run hdepth hsweep fun h => absurd h Bool.false_ne_true
    have hdepth₂ : s₂.options.maxTryDepth = depth := (congrArg AnalysisOptions.maxTryDepth hoptions).trans hdepth
    have hnext : resolveSweeps (resolver (fuel + 1)) parent (m + 1) (s.vary (exactly depth limit false) v) =
        (if s₂.pending = 0 then pure ⟨⟩ else resolveSweeps (resolver (fuel + 1)) parent (if s₂.progress then m else 0) :
          AnalysisM Unit) (s₂.vary (exactly depth limit false) v₂) := by
      rw [resolveSweeps, bind_apply hsweep']
      rfl
    change (if s₂.pending = 0 then pure ⟨⟩ else resolveSweeps (resolver (fuel + 1)) parent (if s₂.progress then n else 0) :
      AnalysisM Unit) s₂ = _ at hrest
    rw [hnext]
    by_cases hpending : s₂.pending = 0
    · rw [if_pos hpending] at hrest ⊢
      cases hrest
      exact ⟨_, rfl, ha₂.sameEnd _ _⟩
    · rw [if_neg hpending] at hrest ⊢
      cases hprogress : s₂.progress with
      | true =>
        rw [hprogress, if_pos rfl] at hrest
        rw [if_pos rfl]
        exact ih (by omega) ha₂ hdepth₂ hrest
      | false =>
        rw [hprogress, if_neg Bool.false_ne_true] at hrest
        rw [if_neg Bool.false_ne_true]
        exact resolveSweeps_same ha₂ hdepth₂ hrest

end More

theorem SameEnd.traced (h : SameEnd s s') (tracer tracer' : Tracer) :
    SameEnd { s with tracer } { s' with tracer := tracer' } := by
  refine ⟨h.result, h.sweeps, h.sink, fun hs => ?_, h.pending⟩
  have hs' := h.complete ⟨hs.roots, hs.bodies, hs.instances, hs.few⟩
  exact ⟨hs'.roots, hs'.bodies, hs'.instances, hs'.few⟩

theorem resolvePass_apply (s : Analysis) : resolvePass s =
    traced "resolve" 0 (fun s => [("sweeps", toString s.result.sweeps)])
      (fun span => resolveSweeps (resolver (4 * s.result.tree.size + 4095 + 1)) span s.options.maxSweeps) s := rfl

/-- A run whose sweep number `k` comes to the nodes of `P` only. -/
def runWithin (k : Nat) (P : NodeId → Bool) : AnalysisM Unit := do
  declarePass
  let fuel := 4 * (← tree).size + 4096
  let budget := (← get).options.maxSweeps
  traced "resolve" 0 (fun s => [("sweeps", toString s.result.sweeps)]) fun span =>
    resolveSweepsWith (fun i => if i = k then confined P fuel else resolver fuel) span budget

theorem run_settles (h : run s = .ok ⟨⟩ s') (hpending : s'.pending = 0) :
    runWithin s'.result.sweeps s'.result.tree.done s = .ok ⟨⟩ s' := by
  rw [run_eq] at h
  obtain ⟨_, s₁, hpass, hresolve⟩ := bind_ok h
  rw [resolvePass_apply] at hresolve
  obtain ⟨span, s₂, hopen, hrest⟩ := bind_ok hresolve
  cases hopen
  obtain ⟨_, s₃, hsweeps, hclose⟩ := bind_ok hrest
  cases hclose
  unfold runWithin
  rw [bind_apply hpass]
  exact (bind_apply ((resolveSweeps_settles _ hsweeps).2 hpending) : (resolveSweepsWith _ _ _ >>= _) _ = _)

/-- A run with a higher limit. -/
theorem run_more {tree : Tree} {options : AnalysisOptions} {tracer : Tracer} {n m : Nat} (hnm : n ≤ m)
    (hok : run (initial tree { options with maxSweeps := n } tracer) = .ok ⟨⟩ s)
    (hnone : ∀ r ∈ s.sink.history, r.diagnostic.code ≠ .inferenceUnavailable) (hend : s.pending = 0 ∨ Complete s) :
    ∃ s', run (initial tree { options with maxSweeps := m } tracer) = .ok ⟨⟩ s' ∧ SameEnd s s' := by
  let pace := exactly options.maxTryDepth m false
  have hstart : Alike pace [] (initial tree { options with maxSweeps := n } tracer) ⟨tree, declareBuiltins {}, {}⟩ :=
    alike_initial (Dialect.respells_refl Dialect.strict_exact tree) (Nat.le_refl _) tracer
  have hdeclare : Agree pace [] declarePass declarePass := Agree.traced_agree _ _ (fun _ _ => rfl) fun _ => inferInstance
  rw [run_eq] at hok ⊢
  obtain ⟨_, s₁, hpass, hresolve⟩ := bind_ok hok
  obtain ⟨hoptions, v₁, ha₁, hpass'⟩ := hstart.run rfl hpass fun h => absurd h Bool.false_ne_true
  have hlimit : s₁.options.maxSweeps = n := congrArg AnalysisOptions.maxSweeps hoptions
  have hdepth : s₁.options.maxTryDepth = options.maxTryDepth := by
    rw [hoptions]
    rfl
  rw [resolvePass_apply, hlimit] at hresolve
  obtain ⟨x, tracer₁, rfl, hx⟩ := ok_of_traced hresolve
  have hbegun : Alike pace [] { s₁ with tracer := (s₁.tracer.start 2 "resolve" 0).2 } v₁ := { ha₁ with }
  obtain ⟨x', hx', hsame⟩ := resolveSweeps_more hnm hbegun hdepth hx hnone
    (hend.imp_right fun h => ⟨h.roots, h.bodies, h.instances, h.few⟩)
  have hsize : (s₁.vary pace v₁).result.tree.size = s₁.result.tree.size := congrArg Tree.size ha₁.tree_eq.1
  have hresolve' : ∃ tracer₂, resolvePass (s₁.vary pace v₁) = .ok ⟨⟩ { x' with tracer := tracer₂ } := by
    rw [resolvePass_apply, hsize]
    exact traced_of_ok hx'
  obtain ⟨tracer₂, hresolve'⟩ := hresolve'
  exact ⟨_, (bind_apply hpass').trans hresolve', hsame.traced tracer₁ tracer₂⟩

end Analysis

/-- Every node that the last sweep of an analysis comes to is completed at its end: the analysis is the same when that sweep
ends with a failure at any other node. -/
def Tree.EndsCompleted (tree : Tree) (options : AnalysisOptions) (tracer : Tracer) : Prop :=
  let s := (tree.analyze options tracer).state
  Analysis.runWithin s.result.sweeps s.result.tree.done (.initial tree options tracer) = .ok ⟨⟩ s

theorem Tree.analyze_ok {tree : Tree} {options : AnalysisOptions} {tracer : Tracer}
    (h : (tree.analyze options tracer).failure = none) :
    Analysis.run (.initial tree options tracer) = .ok ⟨⟩ (tree.analyze options tracer).state := by
  unfold Tree.analyze EStateM.run at h ⊢
  split at h
  case h_1 s hrun => rw [hrun]
  case h_2 => cases h

/-- With a higher limit of sweeps an analysis ends alike, unless the strict sweep reports a node as not inferable, or leaves
something open and does not complete all that a sweep goes to. A last sweep that leaves nothing open has completed every node
that it came to, in both analyses. -/
theorem Tree.analyze_more_sweeps (tree : Tree) (options : AnalysisOptions) (tracer : Tracer) {n m : Nat} (hnm : n ≤ m)
    (hfailure : (tree.analyze { options with maxSweeps := n } tracer).failure = none)
    (hnone : ∀ r ∈ (tree.analyze { options with maxSweeps := n } tracer).state.sink.history,
      r.diagnostic.code ≠ .inferenceUnavailable)
    (hend : (tree.analyze { options with maxSweeps := n } tracer).state.pending = 0 ∨
      (tree.analyze { options with maxSweeps := n } tracer).state.Complete) :
    let e := tree.analyze { options with maxSweeps := n } tracer
    let e' := tree.analyze { options with maxSweeps := m } tracer
    e'.failure = none ∧ e'.hasErrors = e.hasErrors ∧
      e'.state.sink.history.map Reported.place = e.state.sink.history.map Reported.place ∧
      { e'.state.result with sweeps := e.state.result.sweeps } = e.state.result ∧
      (e'.state.result.sweeps = e.state.result.sweeps ∨ e'.state.result.sweeps = e.state.result.sweeps + 1) ∧
      (e.state.pending = 0 → tree.EndsCompleted { options with maxSweeps := n } tracer ∧
        tree.EndsCompleted { options with maxSweeps := m } tracer) ∧
      (e.state.Complete → e'.state.Complete) := by
  intro e e'
  have hok := analyze_ok hfailure
  obtain ⟨s', hok', hsame⟩ := Analysis.run_more hnm hok hnone hend
  have he' : e' = { state := s' } := by
    unfold e' Tree.analyze EStateM.run
    rw [hok']
  refine ⟨?_, ?_, ?_, ?_, ?_, fun hpending => ⟨Analysis.run_settles hok hpending, ?_⟩, ?_⟩
  · rw [he']
  · rw [he']
    exact decide_eq_decide.2 hsame.sink.errorCount_pos
  · rw [he']
    exact hsame.sink.history
  · rw [he']
    exact hsame.result
  · rw [he']
    exact hsame.sweeps
  · change Analysis.runWithin e'.state.result.sweeps e'.state.result.tree.done _ = .ok ⟨⟩ e'.state
    rw [he']
    exact Analysis.run_settles hok' (hsame.pending hpending)
  · rw [he']
    exact hsame.complete

/-- A function that calls itself in its first return statement. -/
def selfCalling : Tree where
  nodes := #[
    .ident ["f"], .call 1 [], .returnStmt 2, .intLit 1, .returnStmt 4, .block [3, 5], .func "f" [] 0 6,
    { kind := .file, list := [7] }]
  roots := [8]

/-- The first run ends with a strict sweep that leaves nothing open and reports nothing, and the second run does the same in a
lenient sweep. -/
theorem selfCalling_more_sweeps :
    let e := selfCalling.analyze { maxSweeps := 1 } {}
    let e' := selfCalling.analyze { maxSweeps := 2 } {}
    e.failure = none ∧ e.state.sink.history = [] ∧ e.state.strict = true ∧ e.state.pending = 0 ∧ e'.failure = none ∧
      e'.state.sink.history = [] ∧ selfCalling.EndsCompleted { maxSweeps := 1 } {} ∧
      selfCalling.EndsCompleted { maxSweeps := 2 } {} := by
  obtain ⟨hfailure, hhistory, hstrict, hpending⟩ :
      let e := selfCalling.analyze { maxSweeps := 1 } {}
      e.failure = none ∧ e.state.sink.history = [] ∧ e.state.strict = true ∧ e.state.pending = 0 := by decide +kernel
  have hnone {h : List Reported} (hh : h = []) : ∀ r ∈ h, r.diagnostic.code ≠ .inferenceUnavailable := by
    rw [hh]
    exact fun r hr => absurd hr List.not_mem_nil
  obtain ⟨hfailure', -, hhistory', -, -, hcompleted, -⟩ :=
    selfCalling.analyze_more_sweeps {} {} (show 1 ≤ 2 by decide) hfailure (hnone hhistory) (.inl hpending)
  rw [hhistory] at hhistory'
  exact ⟨hfailure, hhistory, hstrict, hpending, hfailure', List.map_eq_nil_iff.1 hhistory', hcompleted hpending⟩

/-- A generic function `g` whose parameter type has a default that calls `g`, and generic variables: `v` is asked for, its
initial value calls `first`, and the body of `first` calls `first` and `g` and asks for `w`, whose initial value calls
`second`. -/
def reified : Tree where
  nodes := #[
    .typeName ["int"], .ident ["g"], .intLit 1, .call 2 [3], .field "a" 1 4, .typeStruct [5], .param "s" 6, .block [],
    { Node.func "g" [7] 0 8 with params := ["T"] },
    .param "z" 0, .intLit 0, .returnStmt 11, .block [12], .func "g" [10] 0 13,
    .typeName ["int"], .instanceIdent "first" [15], .call 16 [], .returnStmt 17, .intLit 1, .returnStmt 19,
    .ident ["g"], .intLit 1, .call 21 [22], .exprStmt 23, .typeName ["int"], .instanceIdent "w" [25], .exprStmt 26,
    .block [18, 20, 24, 27], { Node.func "first" [] 0 28 with params := ["T"] },
    .typeName ["int"], .stringLit "s", .returnStmt 31, .block [32], { Node.func "second" [] 30 33 with params := ["T"] },
    .typeName ["int"], .typeName ["int"], .instanceIdent "first" [36], .call 37 [],
    { Node.letDecl "v" 35 38 with params := ["T"] },
    .typeName ["int"], .typeName ["int"], .instanceIdent "second" [41], .call 42 [],
    { Node.letDecl "w" 40 43 with params := ["T"] },
    .typeName ["int"], .instanceIdent "v" [45], .exprStmt 46,
    { kind := .file, list := [9, 14, 29, 34, 39, 44, 47] }]
  roots := [48]

/-- The initial value of `w` makes an instance of `second` when the sweep has passed the functions. With a limit of one that
was the last sweep, and nothing is reported; with a limit of two there is another one, which goes to the new body and reports
its return. -/
theorem Tree.analyze_late_body :
    let e := reified.analyze { maxSweeps := 1 } {}
    let e' := reified.analyze { maxSweeps := 2 } {}
    e.failure = none ∧ e.state.sink.history = [] ∧ e'.failure = none ∧ e'.hasErrors = true ∧
      e.state.result.tree.done 76 = false ∧ e'.state.result.tree.done 76 = true := by
  obtain ⟨hfailure, hhistory, hopen⟩ : let e := reified.analyze { maxSweeps := 1 } {}
      e.failure = none ∧ e.state.sink.history = [] ∧ e.state.result.tree.done 76 = false := by decide +kernel
  obtain ⟨hfailure', herrors, hdone⟩ : let e' := reified.analyze { maxSweeps := 2 } {}
      e'.failure = none ∧ e'.hasErrors = true ∧ e'.state.result.tree.done 76 = true := by decide +kernel
  exact ⟨hfailure, hhistory, hfailure', herrors, hopen, hdone⟩

end TreeCompiler
