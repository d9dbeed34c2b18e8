import TreeCompiler.Proofs.Analysis.Advance
import TreeCompiler.Proofs.Analysis.Reach

/-!
# What a sweep goes to

A node that resolution comes to is completed when it is left, or something is left pending for the next sweep. So the nodes
that a sweep comes to are all completed at its end when it leaves nothing pending.

* `confined P fuel` : the functions of resolution, which come to the nodes of `P` only;
* `Heeds P c m m'` : a run of `m` that leaves nothing pending is one of `m'` too when `P` are the nodes that are completed at
  its end, and it completes the node `c`. One instance for each function of resolution;
* `sweep_heeds` : a sweep that leaves nothing pending is the same when it is confined to the nodes that it completes.
-/

namespace TreeCompiler.Analysis

variable {α β : Type} {s s' : Analysis}

/-! ## Sweeps that are confined to some nodes -/

section Confined

variable (P : NodeId → Bool)

/-- Goes to a node only if it is one of `P`. -/
def goTo (step : NodeId → AnalysisM TypeId) (id : NodeId) : AnalysisM TypeId :=
  if id = 0 || P id then step id else throw .unbounded

/-- The functions of resolution, which end with a failure when they come to a node that is not one of `P`. -/
def confined : Nat → Resolver
  | 0 => resolver 0
  | fuel + 1 =>
    { resolve := goTo P (resolveStep (confined fuel))
      typeExpr := goTo P (typeExprStep (confined fuel))
      varType := varTypeStep (confined fuel) }

end Confined

variable {P : NodeId → Bool} {c : Option NodeId}

/-- A run of `m` that leaves nothing pending is one of `m'` too, where `P` are the nodes that are completed at its end. It
completes the node `c` or leaves something pending. -/
class Heeds (P : NodeId → Bool) (c : Option NodeId) (m m' : AnalysisM α) : Prop where
  onward : ∀ s a s', m s = .ok a s' → Onward s s'
  closes : ∀ s a s', m s = .ok a s' → ∀ id ∈ c, s'.result.tree.done id = true ∨ s.pending < s'.pending
  heeds : ∀ s a s', m s = .ok a s' → s'.pending = s.pending → (∀ id, s'.result.tree.done id = true → P id = true) →
    m' s = .ok a s'

namespace Heeds

instance (m : AnalysisM α) [h : Advances m] : Heeds P none m m := ⟨h.advances, fun _ _ _ _ => nofun, fun _ _ _ h _ _ => h⟩

instance (id : NodeId) (cause : InternalCause) : Heeds P c (internal id cause : AnalysisM α) (internal id cause) := by
  refine ⟨fun s a s' h => ?_, fun s a s' h => ?_, fun s a s' h _ _ => h⟩ <;> unfold internal at h <;> cases h

theorem seq {x x' : AnalysisM α} {f f' : α → AnalysisM β} (hx : Heeds P none x x') (hf : ∀ a, Heeds P c (f a) (f' a)) :
    Heeds P c (x >>= f) (x' >>= f') := by
  refine ⟨fun s b s' h => ?_, fun s b s' h => ?_, fun s b s' h hpending hP => ?_⟩ <;> obtain ⟨a, s₁, h₁, h₂⟩ := bind_ok h
  · exact (hx.onward _ _ _ h₁).trans ((hf a).onward _ _ _ h₂)
  · exact fun id hid => ((hf a).closes _ _ _ h₂ id hid).imp_right (hx.onward _ _ _ h₁).pending.trans_lt
  · have o₁ := hx.onward _ _ _ h₁
    have o₂ := (hf a).onward _ _ _ h₂
    -- the parts leave nothing pending either
    have hfirst : s₁.pending = s.pending := le_antisymm (o₂.pending.trans hpending.le) o₁.pending
    rw [bind_apply (hx.heeds _ _ _ h₁ hfirst fun id hid => hP id (o₂.done id hid))]
    exact (hf a).heeds _ _ _ h₂ (hpending.trans hfirst.symm) hP

/-- The first part is found by instance. -/
theorem bind {x x' : AnalysisM α} {f f' : α → AnalysisM β} [hx : Heeds P none x x'] (hf : ∀ a, Heeds P c (f a) (f' a)) :
    Heeds P c (x >>= f) (x' >>= f') := seq hx hf

instance {x x' : AnalysisM α} {f f' : α → AnalysisM β} [hx : Heeds P none x x'] [hf : ∀ a, Heeds P c (f a) (f' a)] :
    Heeds P c (x >>= f) (x' >>= f') := seq hx hf

instance {x x' : AnalysisM α} {f : α → β} [hx : Heeds P none x x'] : Heeds P none (f <$> x) (f <$> x') :=
  seq hx fun a => inferInstanceAs (Heeds P none (pure (f a)) (pure (f a)))

instance {x x' : AnalysisM α} [hx : Heeds P none x x'] : Heeds P none (discard x) (discard x') :=
  inferInstanceAs (Heeds P none ((fun _ => PUnit.unit) <$> x) ((fun _ => PUnit.unit) <$> x'))

theorem ite {p : Prop} [Decidable p] {x x' y y' : AnalysisM α} (hx : Heeds P c x x') (hy : Heeds P c y y') :
    Heeds P c (if p then x else y) (if p then x' else y') := by
  split
  · exact hx
  · exact hy

instance {p : Prop} [Decidable p] {x x' y y' : AnalysisM α} [hx : Heeds P c x x'] [hy : Heeds P c y y'] :
    Heeds P c (if p then x else y) (if p then x' else y') := ite hx hy

theorem forM {f f' : α → AnalysisM PUnit} (l : List α) (h : ∀ a, Heeds P none (f a) (f' a)) :
    Heeds P none (l.forM f) (l.forM f') := by
  induction l with
  | nil => exact inferInstanceAs (Heeds P none (pure _) (pure _))
  | cons a l ih => exact seq (h a) fun _ => ih

instance (l : List α) (f f' : α → AnalysisM PUnit) [h : ∀ a, Heeds P none (f a) (f' a)] :
    Heeds P none (l.forM f) (l.forM f') := forM l h

theorem mapM {f f' : α → AnalysisM β} (l : List α) (h : ∀ a, Heeds P none (f a) (f' a)) :
    Heeds P none (l.mapM f) (l.mapM f') := by
  induction l with
  | nil =>
    rw [List.mapM_nil, List.mapM_nil]
    infer_instance
  | cons a l ih =>
    rw [List.mapM_cons, List.mapM_cons]
    exact seq (h a) fun _ => seq ih fun _ => inferInstance

instance (l : List α) (f f' : α → AnalysisM β) [h : ∀ a, Heeds P none (f a) (f' a)] :
    Heeds P none (l.mapM f) (l.mapM f') := mapM l h

theorem foldlM {f f' : β → α → AnalysisM β} (l : List α) (b : β) (h : ∀ b a, Heeds P none (f b a) (f' b a)) :
    Heeds P none (l.foldlM f b) (l.foldlM f' b) := by
  induction l generalizing b with
  | nil => exact inferInstanceAs (Heeds P none (pure _) (pure _))
  | cons a l ih => exact seq (h b a) fun b => ih b

instance (l : List α) (f f' : β → α → AnalysisM β) (b : β) [h : ∀ b a, Heeds P none (f b a) (f' b a)] :
    Heeds P none (l.foldlM f b) (l.foldlM f' b) := foldlM l b h

theorem allM {f f' : α → AnalysisM Bool} (l : List α) (h : ∀ a, Heeds P none (f a) (f' a)) :
    Heeds P none (l.allM f) (l.allM f') := by
  induction l with
  | nil => exact inferInstanceAs (Heeds P none (pure _) (pure _))
  | cons a l ih =>
    unfold List.allM
    refine seq (h a) fun b => ?_
    cases b
    · infer_instance
    · exact ih

instance (l : List α) (f f' : α → AnalysisM Bool) [h : ∀ a, Heeds P none (f a) (f' a)] :
    Heeds P none (l.allM f) (l.allM f') := allM l h

theorem forIn {f f' : α → β → AnalysisM (ForInStep β)} (l : List α) (b : β) (h : ∀ a b, Heeds P none (f a b) (f' a b)) :
    Heeds P none (forIn l b f) (forIn l b f') := by
  induction l generalizing b with
  | nil => exact inferInstanceAs (Heeds P none (pure _) (pure _))
  | cons a l ih =>
    rw [List.forIn_cons, List.forIn_cons]
    refine seq (h a b) fun r => ?_
    cases r
    · infer_instance
    · exact ih _

instance (l : List α) (f f' : α → β → AnalysisM (ForInStep β)) (b : β) [h : ∀ a b, Heeds P none (f a b) (f' a b)] :
    Heeds P none (ForIn.forIn l b f) (ForIn.forIn l b f') := forIn l b h

/-! ### Completion -/

theorem of_closes {m : AnalysisM α} (hm : Advances m) {id : NodeId} (h : ∀ s a s', m s = .ok a s' →
    s'.result.tree.done id = true ∨ s.pending < s'.pending) : Heeds P (some id) m m :=
  ⟨hm.advances, fun s a s' hs i hi => by cases hi; exact h s a s' hs, fun _ _ _ h _ _ => h⟩

instance (id : NodeId) (t : TypeId) : Heeds P (some id) (finish id t) (finish id t) := by
  refine of_closes inferInstance fun s a s' h => ?_
  unfold finish at h
  obtain ⟨n, s₁, hn, hrest⟩ := bind_ok h
  obtain ⟨rfl, hn⟩ := node_ok hn
  obtain ⟨known, s₂, hknown, hrest⟩ := bind_ok hrest
  cases hknown
  split at hrest <;> obtain ⟨_, s₃, h₃, hrest⟩ := bind_ok hrest <;> cases h₃
  · have hdone : (s₁.result.tree.modify id fun n => { n with valueType := t, completed := true }).done id = true := by
      unfold Tree.done
      rw [Tree.get?_modify, if_pos rfl, hn]
      rfl
    have hprogress : Advances (modify fun s : Analysis => { s with progress := true }) := .note fun _ => ⟨rfl, rfl, rfl⟩
    exact .inl (Onward.done (Advances.advances _ _ _ hrest) id hdone)
  · cases hrest
    exact .inr (Nat.lt_succ_self _)

instance (id : NodeId) : Heeds P (some id) (fail id) (fail id) := inferInstanceAs (Heeds P _ (finish id _) (finish id _))

instance : Heeds P c pendingType pendingType :=
  ⟨Advances.advances, fun s a s' h id _ => by cases h; exact .inr (Nat.lt_succ_self _), fun _ _ _ h _ _ => h⟩

instance (id : NodeId) : Heeds P (some id) (pendingOrFail id) (pendingOrFail id) := by
  unfold pendingOrFail
  infer_instance

instance (id : NodeId) (parts : List TypeId) : Heeds P (some id) (settle id parts) (settle id parts) := by
  unfold settle
  infer_instance

/-- That it completes a node need not be used. -/
theorem opened {m m' : AnalysisM α} (h : Heeds P c m m') : Heeds P none m m' := ⟨h.onward, fun _ _ _ _ => nofun, h.heeds⟩

/-- What is completed by the first part is completed at the end. -/
theorem seq_onward {x x' : AnalysisM α} {f f' : α → AnalysisM β} (hx : Heeds P c x x') (hf : ∀ a, Heeds P none (f a) (f' a)) :
    Heeds P c (x >>= f) (x' >>= f') := by
  have hopen := seq hx.opened hf
  refine ⟨hopen.onward, fun s b s' h id hid => ?_, hopen.heeds⟩
  obtain ⟨a, s₁, h₁, h₂⟩ := bind_ok h
  have o := (hf a).onward _ _ _ h₂
  exact (hx.closes _ _ _ h₁ id hid).imp (o.done id) fun hlt => hlt.trans_le o.pending

instance (id : NodeId) (t : TypeId) : Heeds P (some id) (finishRef id t) (finishRef id t) := by
  unfold finishRef
  infer_instance

/-! ### Trials -/

theorem tryingFor (refused : α) {step step' : AnalysisM (Bool × α)} (h : Heeds P none step step') :
    Heeds P none (tryingFor refused step) (tryingFor refused step') := by
  have hsink (g : Sink → Sink) : Advances (modify fun s : Analysis => { s with sink := g s.sink }) := .note fun _ => ⟨rfl, rfl, rfl⟩
  unfold Analysis.tryingFor
  infer_instance

instance (refused : α) (step step' : AnalysisM (Bool × α)) [h : Heeds P none step step'] :
    Heeds P none (Analysis.tryingFor refused step) (Analysis.tryingFor refused step') := tryingFor refused h

instance (step step' : AnalysisM Bool) [h : Heeds P none step step'] : Heeds P none (trying step) (trying step') := by
  unfold trying
  infer_instance

theorem whileTyping {sym : SymbolId} {step step' : AnalysisM α} (h : Heeds P none step step') :
    Heeds P none (whileTyping sym step) (whileTyping sym step') := by
  have hmark : Advances (modify fun s : Analysis => { s with typing := s.typing.insert sym () }) := .note fun _ => ⟨rfl, rfl, rfl⟩
  have hclear : Advances (modify fun s : Analysis => { s with typing := s.typing.erase sym }) := .note fun _ => ⟨rfl, rfl, rfl⟩
  unfold Analysis.whileTyping
  infer_instance

end Heeds

/-! ## Resolution -/

/-- What resolution calls back goes to completed nodes only. -/
class Heeding (P : NodeId → Bool) (rec rec' : Resolver) : Prop where
  resolve : ∀ id, Heeds P none (rec.resolve id) (rec'.resolve id)
  typeExpr : ∀ id, Heeds P none (rec.typeExpr id) (rec'.typeExpr id)
  varType : ∀ id, Heeds P none (rec.varType id) (rec'.varType id)

attribute [instance] Heeding.resolve Heeding.typeExpr Heeding.varType

namespace Heeds

variable {rec rec' : Resolver} [Heeding P rec rec']

/-! ### Types -/

instance (n : Node) : Heeds P none (typeArgsReady rec n) (typeArgsReady rec' n) := by unfold typeArgsReady; infer_instance

instance (l : List NodeId) : Heeds P none (typeList? rec l) (typeList? rec' l) := by
  induction l with
  | nil => exact inferInstanceAs (Heeds P none (pure _) (pure _))
  | cons id rest ih =>
    unfold typeList?
    infer_instance

instance (n : Node) : Heeds P none (typeArgs? rec n) (typeArgs? rec' n) := inferInstanceAs (Heeds P none (typeList? rec _) (typeList? rec' _))

instance (clause : NodeId) : Heeds P none (whereHolds rec clause) (whereHolds rec' clause) := by
  unfold whereHolds
  refine bind fun n => bind fun r => ?_
  dsimp only
  split <;> infer_instance

instance (kind : SymbolKind) (args : List TypeId) (clone : NodeId) (ts : ScopeId) (inst : SymbolId) :
    Heeds P none (openInstance rec kind args clone ts inst) (openInstance rec' kind args clone ts inst) := by
  have hdeclare : Advances (outsideLoops <| withScope ts do
      setScope clone ts
      declareInstance kind clone inst args) := .outsideLoops inferInstance
  unfold openInstance
  refine seq inferInstance fun _ => bind fun n => bind fun _ => ?_
  dsimp only
  infer_instance

instance (gen : SymbolId) (args : List TypeId) : Heeds P none (instanceOf rec gen args) (instanceOf rec' gen args) := by
  rw [instanceOf_eq, instanceOf_eq]
  refine bind fun g => ?_
  split
  · infer_instance
  · refine bind fun key => ?_
    split
    · infer_instance
    · infer_instance

instance (gen : SymbolId) (args : List TypeId) : Heeds P none (instantiate rec gen args) (instantiate rec' gen args) := by
  have hask (inst : SymbolId) : Advances (modify fun s : Analysis =>
      { s with requests := { generic := gen, args, inst } :: s.requests }) := .note fun _ => ⟨rfl, rfl, rfl⟩
  unfold instantiate
  infer_instance

instance (ts : ScopeId) (ids : List NodeId) : Heeds P none (patternTypes rec ts ids) (patternTypes rec' ts ids) := by
  induction ids with
  | nil => exact inferInstanceAs (Heeds P none (pure _) (pure _))
  | cons p rest ih =>
    unfold patternTypes
    refine bind fun pn => ?_
    dsimp only
    split
    · infer_instance
    · refine bind fun t => ?_
      split <;> infer_instance

instance (gen : SymbolId) : Heeds P none (pattern? rec gen) (pattern? rec' gen) := by
  unfold pattern?
  refine bind fun g => ?_
  split
  · split
    · infer_instance
    · refine bind fun holders => bind fun ts => bind fun n => bind fun r => ?_
      split <;> infer_instance
  · infer_instance

instance (gen : SymbolId) (actuals : List TypeId) : Heeds P none (derive? rec gen actuals) (derive? rec' gen actuals) := by
  unfold derive?
  refine bind fun r => ?_
  split <;> infer_instance

instance (id : SymbolId) (n : Node) (name : String) :
    Heeds P none (declaredType rec id n name) (declaredType rec' id n name) := by
  have hdefaults (t : TypeId) (ds : List NodeId) :
      Advances (modifyResult fun r => { r with fieldDefaults := r.fieldDefaults.insert t ds }) := .noteResult fun _ => ⟨rfl, rfl⟩
  unfold declaredType
  refine bind fun base => bind fun sym => bind fun _ => bind fun _ => ite inferInstance (ite inferInstance ?_)
  refine bind fun t => bind fun _ => bind fun s => ?_
  dsimp only
  split <;> infer_instance

instance (ids : List NodeId) : Heeds P none (variantFields rec ids) (variantFields rec' ids) := by
  induction ids with
  | nil => exact inferInstanceAs (Heeds P none (pure _) (pure _))
  | cons v rest ih =>
    unfold variantFields
    refine bind fun vn => ?_
    dsimp only
    split <;> infer_instance

instance (id : SymbolId) (n : Node) (name : String) : Heeds P none (unionType rec id n name) (unionType rec' id n name) := by
  unfold unionType
  refine bind fun r => ?_
  split <;> infer_instance

instance (id : SymbolId) : Heeds P none (typeOfSymbol rec id) (typeOfSymbol rec' id) := by
  unfold typeOfSymbol
  refine bind fun sym => bind fun known => ite inferInstance (bind fun name => bind fun typing => ite inferInstance ?_)
  refine whileTyping (bind fun n => ?_)
  split <;> infer_instance

instance (id : SymbolId) : Heeds P none (variantTypes rec id) (variantTypes rec' id) := by
  unfold variantTypes
  refine bind fun v => bind fun union => bind fun known => ite inferInstance (bind fun u => ?_)
  split
  · split <;> infer_instance
  · infer_instance

instance (id : NodeId) (n : Node) : Heeds P none (namedType rec id n) (namedType rec' id n) := by
  unfold namedType
  refine bind fun ready => ite inferInstance (bind fun r => ?_)
  split
  · refine bind fun sym => ite inferInstance ?_
    split <;> infer_instance
  · infer_instance

instance (seen : List String) (ids : List NodeId) : Heeds P none (structFields rec seen ids) (structFields rec' seen ids) := by
  have hset (f value : NodeId) : Advances (modifyNode f fun n => { n with b := value }) := .modifyNode f fun _ h => h
  induction ids generalizing seen with
  | nil => exact inferInstanceAs (Heeds P none (pure _) (pure _))
  | cons f rest ih =>
    unfold structFields
    refine bind fun n => bind fun t => bind fun _ => ite inferInstance ?_
    have htail : Heeds P none (do
        let fn ← node f
        discard <| finish f t
        return (← structFields rec (n.name :: seen) rest).map (({ name := n.name, type := t }, fn.b) :: ·)) (do
        let fn ← node f
        discard <| finish f t
        return (← structFields rec' (n.name :: seen) rest).map (({ name := n.name, type := t }, fn.b) :: ·)) := inferInstance
    refine ite (bind fun _ => ?_) ?_
    all_goals exact ite (bind fun _ => bind fun _ => ite inferInstance (bind fun m => bind fun x => bind fun _ => htail)) htail

instance (n : Node) : Heeds P none (structType rec n) (structType rec' n) := by
  have hdefaults (t : TypeId) (ds : List NodeId) :
      Advances (modifyResult fun r => { r with fieldDefaults := r.fieldDefaults.insert t ds }) := .noteResult fun _ => ⟨rfl, rfl⟩
  unfold structType
  refine bind fun r => ?_
  split <;> infer_instance

/-! ### Functions and variables -/

instance (p : NodeId) : Heeds P none (paramType rec p) (paramType rec' p) := by
  have hknown (t : TypeId) : Advances (do
      if ← isResolved t then
        if let some sym := (← get).result.decls.get? p then setSymbolType sym t
        discard <| finish p t
      return t) := by
    refine .bind fun known => ?_
    split
    · refine .bind fun s => ?_
      dsimp only
      split <;> infer_instance
    · infer_instance
  unfold paramType
  exact bind fun n => ite (bind fun t => inferInstance) (bind fun t => inferInstance)

instance (ids : List NodeId) : Heeds P none (paramList? rec ids) (paramList? rec' ids) := by
  induction ids with
  | nil => exact inferInstanceAs (Heeds P none (pure _) (pure _))
  | cons p rest ih =>
    unfold paramList?
    infer_instance

instance (fn : SymbolId) : Heeds P none (paramTypes rec fn) (paramTypes rec' fn) := by
  unfold paramTypes
  refine bind fun info => ite inferInstance (bind fun n => bind fun r => ?_)
  split <;> infer_instance

instance (ids : List NodeId) : Heeds P none (firstReturn rec ids) (firstReturn rec' ids) := by
  induction ids with
  | nil => exact inferInstanceAs (Heeds P none (pure _) (pure _))
  | cons r rest ih =>
    unfold firstReturn
    infer_instance

instance (fn : SymbolId) : Heeds P none (funcResult rec fn) (funcResult rec' fn) := by
  unfold funcResult
  refine bind fun info => bind fun known => ite inferInstance ?_
  have hkeep (t : TypeId) : Advances (do
      if ← isResolved t then modifyFunc fn fun i => { i with result := t }
      return t) := inferInstance
  dsimp only
  refine bind fun n => ite inferInstance (ite inferInstance (bind fun typing => ite inferInstance ?_))
  exact whileTyping (bind fun t => inferInstance)

instance (fn : SymbolId) : Heeds P none (funcType rec fn) (funcType rec' fn) := by
  unfold funcType
  refine bind fun sym => bind fun s => ?_
  split
  · exact bind fun _ => ite inferInstance (bind fun _ => ite inferInstance (bind fun _ => bind fun _ => inferInstance))
  · infer_instance

instance (id : NodeId) : Heeds P none (letType rec id) (letType rec' id) := by
  unfold letType
  refine bind fun n => bind fun s => bind fun sym => bind fun _ => ite inferInstance (bind fun _ => ite inferInstance ?_)
  exact whileTyping (ite (bind fun t => inferInstance) (ite (bind fun t => inferInstance) (bind fun t => inferInstance)))

instance (id : NodeId) : Heeds P none (foreachTypes rec id) (foreachTypes rec' id) := by
  have hknown (value key : TypeId) : Advances (do
      let r := (← get).result
      if let some sym := r.decls.get? id then setSymbolType sym value
      if let some sym := r.keys.get? id then setSymbolType sym key
      return (value, key)) := by
    refine .bind fun s => ?_
    dsimp only
    split <;> split <;> infer_instance
  unfold foreachTypes
  refine bind fun n => bind fun it => bind fun _ => ite inferInstance (bind fun t => ?_)
  split
  · exact bind fun (value, key) => inferInstance
  · exact bind fun (value, key) => inferInstance
  · exact bind fun (value, key) => inferInstance
  · exact bind fun (value, key) => inferInstance
  · exact bind fun _ => bind fun _ => bind fun _ => bind fun (value, key) => inferInstance

instance (arm : NodeId) : Heeds P none (armBindType rec arm) (armBindType rec' arm) := by
  have hknown (t : TypeId) : Advances (do
      if let some sym := (← get).result.decls.get? arm then setSymbolType sym t
      return t) := by
    refine .bind fun s => ?_
    dsimp only
    split <;> infer_instance
  unfold armBindType
  refine bind fun s => ?_
  split
  · refine bind fun m => bind fun st => bind fun _ => ite inferInstance (bind fun n => bind fun t => ?_)
    dsimp only
    infer_instance
  · infer_instance

theorem varTypeStep (id : SymbolId) : Heeds P none (varTypeStep rec id) (varTypeStep rec' id) := by
  unfold Analysis.varTypeStep
  refine bind fun sym => bind fun known => ite inferInstance ?_
  dsimp only
  refine ite inferInstance (ite inferInstance (bind fun t => ?_))
  split <;> infer_instance

/-! ### Calls -/

instance (gen : SymbolId) (tpl : Template) (explicit : Option (List TypeId)) (acts : List Actual) :
    Heeds P none (instanceFor rec gen tpl explicit acts) (instanceFor rec' gen tpl explicit acts) := by
  have hargs (args : Option (List TypeId)) : Heeds P none (do
      let some args := args | return .error .derivation
      let inst ← instantiate rec gen args
      if (← symbol inst).rejected then return .error .whereClause
      return (.ok inst : Except Rejection SymbolId)) (do
      let some args := args | return .error .derivation
      let inst ← instantiate rec' gen args
      if (← symbol inst).rejected then return .error .whereClause
      return (.ok inst : Except Rejection SymbolId)) := by
    split <;> infer_instance
  unfold instanceFor
  split
  · exact bind hargs
  · exact bind hargs

instance (q : Query) (explicit : Option (List TypeId)) (acts : List Actual) (spread : Bool) (tally : Tally) (c : SymbolId) :
    Heeds P none (weigh rec q explicit acts spread tally c) (weigh rec' q explicit acts spread tally c) := by
  have hfn (sym : Symbol) (fn : Except Rejection SymbolId) : Heeds P none (do
      match fn with
      | .error r => return tally.reject c r
      | .ok fn =>
        if !(← paramTypes rec fn) then return { tally with pending := true }
        let info ← funcInfo fn
        match (← types).classify info.params info.variadic acts spread with
        | .error r => return tally.reject fn r
        | .ok (cls, casts) =>
          return { tally with ranked := tally.ranked ++ [(⟨cls, sym.isGeneric⟩, { fn, casts })] }) (do
      match fn with
      | .error r => return tally.reject c r
      | .ok fn =>
        if !(← paramTypes rec' fn) then return { tally with pending := true }
        let info ← funcInfo fn
        match (← types).classify info.params info.variadic acts spread with
        | .error r => return tally.reject fn r
        | .ok (cls, casts) =>
          return { tally with ranked := tally.ranked ++ [(⟨cls, sym.isGeneric⟩, { fn, casts })] }) := by
    split
    · infer_instance
    · refine bind fun _ => ite inferInstance (bind fun info => bind fun ts => ?_)
      split <;> infer_instance
  unfold weigh
  refine bind fun tab => ite inferInstance (bind fun sym => ?_)
  split
  · exact bind (hfn sym)
  · exact bind (hfn sym)

instance (q : Query) (cands : List SymbolId) (explicit : Option (List TypeId)) (acts : List Actual) (spread : Bool) :
    Heeds P none (selectOverload rec q cands explicit acts spread) (selectOverload rec' q cands explicit acts spread) := by
  unfold selectOverload
  infer_instance

instance (call : NodeId) (args : CallArgs) (i : Nat) : Heeds P none (addActual rec call args i) (addActual rec' call args i) := by
  unfold addActual
  refine bind fun n => bind fun an => ite inferInstance (bind fun inner => bind fun known => ite inferInstance ?_)
  refine bind fun m => bind fun r => ?_
  split <;> infer_instance

instance (call : NodeId) : Heeds P none (callActuals rec call) (callActuals rec' call) := by
  unfold callActuals
  infer_instance

omit [Heeding P rec rec'] in
instance (id : NodeId) (state : ArgState) : Heeds P (some id) (waitForArgs id state) (waitForArgs id state) := by
  unfold waitForArgs
  infer_instance

instance (list : List NodeId) : Heeds P none (touchArgs rec list) (touchArgs rec' list) := by
  unfold touchArgs
  infer_instance

instance (id callee : NodeId) (cand : Candidate) (acts : List Actual) (method : Bool) :
    Heeds P (some id) (finishCall rec id callee cand acts method) (finishCall rec' id callee cand acts method) := by
  unfold finishCall
  exact bind fun ft => bind fun _ => ite inferInstance (bind fun info => bind fun _ => bind fun sym => inferInstance)

instance (id : NodeId) (cands : List SymbolId) : Heeds P (some id) (callOverloads rec id cands) (callOverloads rec' id cands) := by
  unfold callOverloads
  refine bind fun args => ite inferInstance (bind fun n => bind fun cn => ?_)
  have hselect (explicit : Option (List TypeId)) : Heeds P (some id) (do
      match ← selectOverload rec (← query id) cands explicit args.acts args.spread with
      | .pending => pendingOrFail id
      | .chosen c _ => finishCall rec id n.a c args.acts false
      | sel =>
        reportSelection id cn.qualifiedName sel args.acts
        discard <| fail n.a
        fail id) (do
      match ← selectOverload rec' (← query id) cands explicit args.acts args.spread with
      | .pending => pendingOrFail id
      | .chosen c _ => finishCall rec' id n.a c args.acts false
      | sel =>
        reportSelection id cn.qualifiedName sel args.acts
        discard <| fail n.a
        fail id) := by
    refine bind fun q => bind fun sel => ?_
    split <;> infer_instance
  exact ite (bind fun r => hselect r) (bind fun r => inferInstance)

omit [Heeding P rec rec'] in
instance (id : NodeId) (ft : TypeId) (args : CallArgs) : Heeds P (some id) (callTyped id ft args) (callTyped id ft args) := by
  unfold callTyped
  refine bind fun n => bind fun t => ?_
  split
  · refine bind fun ts => ?_
    split <;> infer_instance
  · infer_instance
  · infer_instance

instance (id : NodeId) : Heeds P (some id) (callValue rec id) (callValue rec' id) := by
  unfold callValue
  infer_instance

instance (id : NodeId) (variant : SymbolId) : Heeds P (some id) (callVariant rec id variant) (callVariant rec' id variant) := by
  unfold callVariant
  refine bind fun (payload, union) => bind fun _ => bind fun _ => bind fun _ => ite inferInstance (bind fun n => ?_)
  have hdone : Heeds P (some id) (do
      setCall id { kind := .variant, target := variant }
      bindNode n.a variant
      discard <| finish n.a (← symbol variant).type
      finish id union) (do
      setCall id { kind := .variant, target := variant }
      bindNode n.a variant
      discard <| finish n.a (← symbol variant).type
      finish id union) := inferInstance
  dsimp only
  split
  · exact ite hdone inferInstance
  · refine ite inferInstance (bind fun an => ite inferInstance ?_)
    exact bind fun _ => ite inferInstance (bind fun _ => hdone)

instance (id : NodeId) : Heeds P (some id) (abandonCall rec id) (abandonCall rec' id) := by
  unfold abandonCall
  infer_instance

instance (id : NodeId) : Heeds P (some id) (callNamed rec id) (callNamed rec' id) := by
  unfold callNamed
  refine bind fun n => bind fun cn => bind fun ready => ite inferInstance (bind fun r => ?_)
  split
  · refine bind fun sym => ?_
    split <;> infer_instance
  · infer_instance

instance (id : NodeId) (args : CallArgs) : Heeds P (some id) (callField rec id args) (callField rec' id args) := by
  unfold callField
  infer_instance

instance (id : NodeId) : Heeds P (some id) (callMember rec id) (callMember rec' id) := by
  unfold callMember
  refine bind fun n => bind fun m => bind fun recv => bind fun args => ite inferInstance ?_
  refine bind fun _ => ite inferInstance (bind fun rt => bind fun cn => ?_)
  dsimp only
  refine ite inferInstance (bind fun set? => ?_)
  split
  · infer_instance
  · refine bind fun (found, sel) => ?_
    dsimp only
    split <;> infer_instance

instance (id : NodeId) : Heeds P (some id) (resolveCall rec id) (resolveCall rec' id) := by
  unfold resolveCall
  refine bind fun n => bind fun cn => ?_
  split <;> infer_instance

/-! ### Names and operators -/

instance (n : Node) (gen : SymbolId) : Heeds P none (explicitInstance rec n gen) (explicitInstance rec' n gen) := by
  unfold explicitInstance
  refine bind fun r => ?_
  split
  · refine bind fun g => ?_
    split <;> infer_instance
  · infer_instance

instance (id : NodeId) (n : Node) (sym : SymbolId) :
    Heeds P none (functionValue rec id n sym) (functionValue rec' id n sym) := by
  unfold functionValue
  refine bind fun s => bind fun q => bind fun tab => ?_
  dsimp only
  split
  · split <;> infer_instance
  · split <;> infer_instance

instance (id : NodeId) (n : Node) (sym : SymbolId) :
    Heeds P none (variableValue rec id n sym) (variableValue rec' id n sym) := by
  unfold variableValue
  infer_instance

instance (id : NodeId) (n : Node) : Heeds P (some id) (resolveName rec id n) (resolveName rec' id n) := by
  unfold resolveName
  refine bind fun ready => ite inferInstance (bind fun r => ?_)
  split
  · refine bind fun sym => ?_
    split
    · refine bind fun r => ?_
      split <;> infer_instance
    · refine bind fun r => ?_
      split <;> infer_instance
    · refine bind fun r => ?_
      split <;> infer_instance
    · refine bind fun (payload, union) => ?_
      infer_instance
    · infer_instance
  · infer_instance

instance (id : NodeId) (operands : List NodeId) :
    Heeds P (some id) (rewriteOperator rec id operands) (rewriteOperator rec' id operands) := by
  have hset (callee : NodeId) : Advances (modifyNode id fun n =>
      { n with kind := .call, op := .none, a := callee, b := 0, list := operands }) := .modifyNode id fun _ h => h
  unfold rewriteOperator
  infer_instance

instance (id : NodeId) : Heeds P (some id) (resolveBinary rec id) (resolveBinary rec' id) := by
  unfold resolveBinary
  refine bind fun _ => bind fun l => bind fun _ => bind fun r => bind fun _ => bind fun _ => ite inferInstance ?_
  refine bind fun n => bind fun t => ?_
  split <;> infer_instance

instance (id : NodeId) : Heeds P (some id) (resolveUnary rec id) (resolveUnary rec' id) := by
  unfold resolveUnary
  refine bind fun _ => bind fun x => bind fun _ => ite inferInstance (bind fun n => bind fun t => ?_)
  split <;> infer_instance

instance (id : NodeId) : Heeds P (some id) (resolveAssign rec id) (resolveAssign rec' id) := by
  unfold resolveAssign
  refine bind fun _ => bind fun target => bind fun _ => bind fun value => bind fun _ => bind fun _ => ite inferInstance ?_
  infer_instance

instance (id : NodeId) : Heeds P (some id) (resolveIndex rec id) (resolveIndex rec' id) := by
  unfold resolveIndex
  refine bind fun _ => bind fun x => bind fun _ => bind fun k => bind fun _ => bind fun _ => ite inferInstance ?_
  refine bind fun t => ?_
  split
  · infer_instance
  · infer_instance
  · infer_instance
  · refine bind fun _ => bind fun kn => ?_
    split <;> infer_instance
  · infer_instance
  · infer_instance

instance (id : NodeId) : Heeds P (some id) (resolveMember rec id) (resolveMember rec' id) := by
  have hfield (i : Nat) : Advances (modifyResult fun r => { r with fields := r.fields.insert id i }) := .noteResult fun _ => ⟨rfl, rfl⟩
  unfold resolveMember
  refine bind fun _ => bind fun x => bind fun _ => ite inferInstance (bind fun n => bind fun t => ?_)
  dsimp only
  split
  · split <;> infer_instance
  · infer_instance
  · infer_instance

/-! ### Literals and conversions -/

instance (elems : List NodeId) : Heeds P none (unifyElems rec elems) (unifyElems rec' elems) := by
  unfold unifyElems
  refine bind fun ready => ite inferInstance ?_
  split <;> infer_instance

instance (id : NodeId) : Heeds P (some id) (resolveArray rec id) (resolveArray rec' id) := by
  have hset (list : List NodeId) : Advances (modifyNode id fun n => { n with list }) := .modifyNode id fun _ h => h
  unfold resolveArray
  refine bind fun n => bind fun r => ?_
  split <;> infer_instance

instance (id : NodeId) : Heeds P (some id) (resolveMap rec id) (resolveMap rec' id) := by
  have hset (p k v : NodeId) : Advances (modifyNode p fun n => { n with a := k, b := v }) := .modifyNode p fun _ h => h
  unfold resolveMap
  refine bind fun n => bind fun entries => bind fun keys => bind fun values => ?_
  dsimp only
  split <;> infer_instance

instance (elems : List NodeId) : Heeds P none (elemTypes? rec elems) (elemTypes? rec' elems) := by
  induction elems with
  | nil => exact inferInstanceAs (Heeds P none (pure _) (pure _))
  | cons e rest ih =>
    unfold elemTypes?
    infer_instance

instance (id : NodeId) : Heeds P (some id) (resolveTuple rec id) (resolveTuple rec' id) := by
  unfold resolveTuple
  refine bind fun n => bind fun r => ?_
  split <;> infer_instance

omit [Heeding P rec rec'] in
instance (id : NodeId) (list : List NodeId) : Heeds P (some id) (anonymousStruct id list) (anonymousStruct id list) := by
  unfold anonymousStruct
  infer_instance

instance (id : NodeId) : Heeds P (some id) (resolveStruct rec id) (resolveStruct rec' id) := by
  unfold resolveStruct
  refine bind fun n => bind fun ready => ite inferInstance (ite inferInstance (bind fun st => bind fun _ => ite inferInstance ?_))
  refine bind fun t => ?_
  split <;> infer_instance

instance (id : NodeId) : Heeds P (some id) (resolveCast rec id) (resolveCast rec' id) := by
  unfold resolveCast
  refine bind fun _ => bind fun source => bind fun _ => bind fun target => bind fun _ => bind fun _ => ite inferInstance ?_
  infer_instance

instance (id : NodeId) : Heeds P (some id) (resolveTypeIs rec id) (resolveTypeIs rec' id) := by
  have hset (same : Bool) : Advances (modifyNode id fun n =>
      { n with flags := n.flags.union .folded, int := if same then 1 else 0 }) := .modifyNode id fun _ h => h
  unfold resolveTypeIs
  exact bind fun _ => bind fun _ => bind fun _ => bind fun _ => bind fun _ => bind fun _ => ite inferInstance (bind fun _ => inferInstance)

instance (id : NodeId) (n : Node) : Heeds P (some id) (resolveExpr rec id n) (resolveExpr rec' id n) := by
  unfold resolveExpr
  split <;> infer_instance

/-! ### Statements -/

instance (id : NodeId) (list : List NodeId) : Heeds P (some id) (resolveList rec id list) (resolveList rec' id list) := by
  unfold resolveList
  infer_instance

omit [Heeding P rec rec'] in
instance (id : NodeId) (n : Node) : Heeds P (some id) (resolveImport id n) (resolveImport id n) := by
  unfold resolveImport
  infer_instance

instance (cond : NodeId) : Heeds P none (condition rec cond) (condition rec' cond) := by
  unfold condition
  exact bind fun t => bind fun _ => ite (bind fun t => inferInstance) inferInstance

instance (id : NodeId) (n : Node) : Heeds P (some id) (resolveLet rec id n) (resolveLet rec' id n) := by
  unfold resolveLet
  refine ite inferInstance (bind fun s => ?_)
  split <;> infer_instance

instance (id : NodeId) (n : Node) : Heeds P (some id) (resolveFunc rec id n) (resolveFunc rec' id n) := by
  unfold resolveFunc
  refine bind fun s => ?_
  dsimp only
  split <;> infer_instance

instance (id : NodeId) (n : Node) : Heeds P (some id) (resolveTypeDecl rec id n) (resolveTypeDecl rec' id n) := by
  unfold resolveTypeDecl
  refine bind fun s => ?_
  dsimp only
  split <;> infer_instance

instance (id : NodeId) (n : Node) : Heeds P (some id) (resolveReturn rec id n) (resolveReturn rec' id n) := by
  unfold resolveReturn
  refine bind fun tab => bind fun scope => ?_
  dsimp only
  infer_instance

instance (id : NodeId) (n : Node) : Heeds P (some id) (resolveForeach rec id n) (resolveForeach rec' id n) := by
  unfold resolveForeach
  exact bind fun (value, key) => inferInstance

instance (st : TypeId) (variants : List TyField) (arms : Arms) (arm : NodeId) :
    Heeds P none (resolveArm rec st variants arms arm) (resolveArm rec' st variants arms arm) := by
  have hcase (tag : Int) : Advances (modifyResult fun r => { r with cases := r.cases.insert arm tag }) :=
    .noteResult fun _ => ⟨rfl, rfl⟩
  unfold resolveArm
  exact bind fun (tag, arms) => inferInstance

instance (id : NodeId) (n : Node) : Heeds P (some id) (resolveMatch rec id n) (resolveMatch rec' id n) := by
  unfold resolveMatch
  refine bind fun st => ?_
  dsimp only
  refine bind fun known => ite inferInstance (bind fun t => ?_)
  split <;> infer_instance

/-! ### Nodes -/

/-- A node that is completed already keeps its type. -/
theorem unless_completed {id : NodeId} {f f' : Node → AnalysisM TypeId} (h : ∀ n, Heeds P (some id) (f n) (f' n)) :
    Heeds P (some id) (do
      let n ← node id
      if n.completed then return n.valueType
      f n) (do
      let n ← node id
      if n.completed then return n.valueType
      f' n) := by
  have hrest (n : Node) : Heeds P none (if n.completed then pure n.valueType else f n)
      (if n.completed then pure n.valueType else f' n) := ite inferInstance (h n).opened
  have hnode : Heeds P none (node id) (node id) := inferInstance
  have hopen := seq hnode hrest
  refine ⟨hopen.onward, fun s t s' hrun k hk => ?_, hopen.heeds⟩
  cases hk
  obtain ⟨n, s₁, hn, hrest⟩ := bind_ok hrun
  obtain ⟨rfl, hn⟩ := node_ok hn
  split at hrest
  · cases hrest
    exact .inl ((Option.any_eq_true _ _).2 ⟨n, hn, ‹_›⟩)
  · exact (h n).closes _ _ _ hrest id rfl

/-- The node that a call is for, if there is one. -/
abbrev asked (id : NodeId) : Option NodeId := if id = 0 then none else some id

theorem typeExprStep (id : NodeId) : Heeds P (asked id) (typeExprStep rec id) (typeExprStep rec' id) := by
  unfold Analysis.typeExprStep asked
  by_cases h0 : id = 0
  · rw [if_pos h0, if_pos h0, if_pos h0]
    infer_instance
  · rw [if_neg h0, if_neg h0, if_neg h0]
    refine unless_completed fun n => ?_
    split
    · infer_instance
    · infer_instance
    · infer_instance
    · refine bind fun r => ?_
      split <;> infer_instance
    · refine bind fun r => bind fun result => bind fun _ => ?_
      split <;> infer_instance
    · infer_instance
    · infer_instance

theorem resolveKind {id : NodeId} (h0 : id ≠ 0) (n : Node) : Heeds P (some id) (resolveKind rec id n) (resolveKind rec' id n) := by
  have htype : Heeds P (some id) (Analysis.typeExprStep rec id) (Analysis.typeExprStep rec' id) := by
    have h : Heeds P (asked id) (Analysis.typeExprStep rec id) (Analysis.typeExprStep rec' id) := typeExprStep id
    unfold asked at h
    rwa [if_neg h0] at h
  unfold Analysis.resolveKind
  split <;> infer_instance

theorem resolveStep (id : NodeId) : Heeds P (asked id) (resolveStep rec id) (resolveStep rec' id) := by
  have henter : Advances (modify fun s : Analysis => { s with resolving := s.resolving.insert id () }) :=
    .note fun _ => ⟨rfl, rfl, rfl⟩
  have hleave : Advances (modify fun s : Analysis => { s with resolving := s.resolving.erase id }) :=
    .note fun _ => ⟨rfl, rfl, rfl⟩
  unfold Analysis.resolveStep asked
  by_cases h0 : id = 0
  · rw [if_pos h0, if_pos h0, if_pos h0]
    infer_instance
  · rw [if_neg h0, if_neg h0, if_neg h0]
    refine unless_completed fun n => bind fun s => ite inferInstance (bind fun _ => ?_)
    exact seq_onward (resolveKind h0 n) fun t => inferInstance

end Heeds

/-- When nothing is left pending, the node that was asked for is completed. -/
theorem goTo_heeds {step step' : NodeId → AnalysisM TypeId} {id : NodeId} (h : Heeds P (Heeds.asked id) (step id) (step' id)) :
    Heeds P none (step id) (goTo P step' id) := by
  refine ⟨h.onward, fun _ _ _ _ => nofun, fun s t s' hrun hpending hP => ?_⟩
  have hid : (decide (id = 0) || P id) = true := by
    by_cases h0 : id = 0
    · rw [decide_eq_true h0, Bool.true_or]
    · rcases h.closes _ _ _ hrun id (if_neg h0) with hdone | hlt
      · rw [hP id hdone, Bool.or_true]
      · exact absurd hlt (hpending ▸ lt_irrefl _)
  unfold goTo
  rw [if_pos hid]
  exact h.heeds _ _ _ hrun hpending hP

instance (P : NodeId → Bool) (fuel : Nat) : Heeding P (resolver fuel) (confined P fuel) := by
  have stop : Heeds P none (throw .unbounded : AnalysisM TypeId) (throw .unbounded) := inferInstance
  induction fuel with
  | zero => exact ⟨fun _ => stop, fun _ => stop, fun _ => stop⟩
  | succ fuel ih =>
    exact ⟨fun id => goTo_heeds (.resolveStep id), fun id => goTo_heeds (.typeExprStep id), fun id => .varTypeStep id⟩

/-! ## Sweeps -/

section Sweep

variable {rec rec' : Resolver} [Heeding P rec rec']

instance (fn : SymbolId) : Heeds P none (resolveBody rec fn) (resolveBody rec' fn) := by
  unfold resolveBody
  infer_instance

instance (list : Analysis → Array α) (visit visit' : α → AnalysisM Unit) [h : ∀ a, Heeds P none (visit a) (visit' a)]
    (fuel i : Nat) : Heeds P none (visitGrowing list visit fuel i) (visitGrowing list visit' fuel i) := by
  induction fuel generalizing i with
  | zero => exact inferInstanceAs (Heeds P none (throw _) (throw _))
  | succ fuel ih =>
    unfold visitGrowing
    refine .bind fun s => ?_
    split <;> infer_instance

/-- A sweep goes on from a state with nothing pending. -/
theorem sweep_heeds (h : sweep rec s = .ok ⟨⟩ s') : s'.result.sweeps = s.result.sweeps ∧
    (s'.pending = 0 → (∀ id, s'.result.tree.done id = true → P id = true) → sweep rec' s = .ok ⟨⟩ s') := by
  have hvisits : Heeds P none (do
      for root in (← tree).roots do discard <| rec.resolve root
      visitGrowing (·.bodies) (resolveBody rec) sweepLimit 0
      visitGrowing (·.instances) (fun id => discard <| rec.resolve id) sweepLimit 0) (do
      for root in (← tree).roots do discard <| rec'.resolve root
      visitGrowing (·.bodies) (resolveBody rec') sweepLimit 0
      visitGrowing (·.instances) (fun id => discard <| rec'.resolve id) sweepLimit 0) := inferInstance
  exact ⟨(hvisits.onward { s with progress := false, pending := 0 } _ _ h).sweeps,
    hvisits.heeds { s with progress := false, pending := 0 } _ _ h⟩

end Sweep

end TreeCompiler.Analysis
