import TreeCompiler.Proofs.Emit.Operands

/-!
# Spare registers

A register is taken only when every lower one is in use, and what is saved around a call is what is in use. So registers
that a run never comes to make no difference to it.

* `Pool.pad`, `EmitState.pad` : the same registers in use, with more free ones behind them;
* `Scales m` : the computation `m`, where it succeeds, gives the same result with any number of spare registers and leaves
  them free. The class finds its way through the control structures, and the instances lead from the primitives to the
  whole run;
* `AnalysisResult.generate_with_more_registers` : larger pools give the same program.
-/

namespace TreeCompiler

/-! ## Pools -/

namespace Pool

/-- The pool with `n` more registers, all of them free. -/
def pad (p : Pool) (n : Nat) : Pool :=
  { p with used := p.used ++ Array.replicate n false, held := p.held ++ Array.replicate n false }

variable {p q : Pool} {i : Nat}

theorem getD_append_free (a : Array Bool) (n i : Nat) : (a ++ Array.replicate n false).getD i false = a.getD i false := by
  rw [Array.getD_eq_getD_getElem?, Array.getD_eq_getD_getElem?, Array.getElem?_append]
  split
  · rfl
  · rename_i h
    rw [Array.getElem?_eq_none (Nat.le_of_not_lt h), Array.getElem?_replicate]
    split <;> rfl

@[simp] theorem isUsed_pad (p : Pool) (n i : Nat) : (p.pad n).isUsed i = p.isUsed i := getD_append_free p.used n i

@[simp] theorem isHeld_pad (p : Pool) (n i : Nat) : (p.pad n).isHeld i = p.isHeld i := getD_append_free p.held n i

theorem lt_size_of_isUsed (h : p.isUsed i = true) : i < p.used.size := by
  by_contra hge
  rw [isUsed, Array.getD_eq_getD_getElem?, Array.getElem?_eq_none (by omega)] at h
  cases h

theorem lt_size_of_isHeld (h : p.isHeld i = true) : i < p.held.size := by
  by_contra hge
  rw [isHeld, Array.getD_eq_getD_getElem?, Array.getElem?_eq_none (by omega)] at h
  cases h

theorem set_append_free {a : Array Bool} (h : i < a.size) (n : Nat) (b : Bool) :
    (a ++ Array.replicate n false).setIfInBounds i b = a.setIfInBounds i b ++ Array.replicate n false := by
  apply Array.ext_getElem?
  intro j
  rw [Array.getElem?_setIfInBounds, Array.getElem?_append, Array.getElem?_append, Array.size_setIfInBounds,
    Array.getElem?_setIfInBounds, Array.size_append]
  grind

/-- The lowest free register stays the lowest one. -/
theorem acquire?_pad {o : Operand} (n : Nat) (h : p.acquire? = some (o, q)) : (p.pad n).acquire? = some (o, q.pad n) := by
  unfold acquire? at h ⊢
  cases hi : p.used.findIdx? (!·) with
  | none =>
    rw [hi] at h
    cases h
  | some i =>
    rw [hi] at h
    cases h
    have hlt : i < p.used.size := (Array.findIdx?_eq_some_iff_getElem.1 hi).1
    have hfirst : (p.pad n).used.findIdx? (!·) = some i := by
      rw [pad, Array.findIdx?_append, hi]
      rfl
    rw [hfirst]
    simp [pad, register, set_append_free hlt]

/-- There is a mark for each register that it is held. -/
def Sized (p : Pool) : Prop := p.held.size = p.used.size

/-- A step that goes the same way with spare registers. -/
def Scales (step : Pool → Except EmitCause Pool) : Prop :=
  ∀ p q, p.Sized → step p = .ok q → q.Sized ∧ ∀ n, step (p.pad n) = .ok (q.pad n)

theorem scales_release (i : Nat) : Scales (·.release i) := by
  intro p q hp h
  dsimp only at h
  unfold release at h
  split at h
  · rename_i hheld
    cases h
    refine ⟨hp, fun n => ?_⟩
    show (p.pad n).release i = _
    rw [release, isHeld_pad, if_pos hheld]
  · rename_i hheld
    split at h
    · cases h
    rename_i hused
    cases h
    have hlt : i < p.used.size := lt_size_of_isUsed (by simpa using hused)
    refine ⟨by simpa [Sized] using hp, fun n => ?_⟩
    show (p.pad n).release i = _
    rw [release, isHeld_pad, isUsed_pad, if_neg hheld, if_neg hused]
    simp [pad, set_append_free hlt]

theorem scales_hold (i : Nat) : Scales (·.hold i) := by
  intro p q hp h
  dsimp only at h
  unfold hold at h
  split at h
  · cases h
  rename_i hfree
  cases h
  have hused : p.isUsed i = true := by
    simp only [Bool.or_eq_true, Bool.not_eq_true', not_or, Bool.not_eq_false] at hfree
    exact hfree.1
  have hlt : i < p.held.size := by
    rw [hp]
    exact lt_size_of_isUsed hused
  refine ⟨by simpa [Sized] using hp, fun n => ?_⟩
  show (p.pad n).hold i = _
  rw [hold, isHeld_pad, isUsed_pad, if_neg hfree]
  simp [pad, set_append_free hlt]

theorem scales_unhold (i : Nat) : Scales (·.unhold i) := by
  intro p q hp h
  dsimp only at h
  unfold unhold at h
  split at h
  · cases h
  rename_i hheld
  cases h
  have hlt : i < p.held.size := lt_size_of_isHeld (by simpa using hheld)
  have hlt' : i < p.used.size := by
    rw [← hp]
    exact hlt
  refine ⟨by simpa [Sized] using hp, fun n => ?_⟩
  show (p.pad n).unhold i = _
  rw [unhold, isHeld_pad, if_neg hheld]
  simp [pad, set_append_free hlt, set_append_free hlt']

/-- Spare registers are not in use. -/
theorem live_pad (p : Pool) (n : Nat) : (p.pad n).live = p.live := by
  have hsize : (p.pad n).size = p.size + n := by simp [size, pad]
  have hspare : ((List.range n).map (p.size + ·)).filter p.isUsed = [] := by
    rw [List.filter_eq_nil_iff]
    intro i hi hused
    obtain ⟨j, -, rfl⟩ := List.mem_map.1 hi
    have hlt := lt_size_of_isUsed hused
    unfold size at hlt
    omega
  have hfilter : (List.range (p.size + n)).filter (p.pad n).isUsed = (List.range p.size).filter p.isUsed := by
    rw [funext (isUsed_pad p n), List.range_add, List.filter_append, hspare, List.append_nil]
  rw [live, live, hsize, hfilter]
  rfl

theorem pad_ofSize (name : String) (kind : OperandKind) (m n : Nat) : (ofSize name kind m).pad n = ofSize name kind (m + n) := by
  simp [pad, ofSize]

end Pool

/-! ## States -/

/-- How many registers are spare in either pool. -/
structure Spares where
  values : Nat
  refs : Nat

namespace EmitState

/-- The state with more free registers. -/
def pad (s : EmitState) (d : Spares) : EmitState :=
  { s with values := s.values.pad d.values, refs := s.refs.pad d.refs }

structure Sized (s : EmitState) : Prop where
  values : s.values.Sized
  refs : s.refs.Sized

end EmitState

namespace Emit

class Scales {α : Type} (m : EmitM α) : Prop where
  pads : ∀ s a s', s.Sized → m s = .ok a s' → s'.Sized ∧ ∀ d, m (s.pad d) = .ok a (s'.pad d)

variable {α β : Type}

namespace Scales

instance (a : α) : Scales (pure a : EmitM α) := ⟨fun s _ _ hs h => by cases h; exact ⟨hs, fun _ => rfl⟩⟩

instance (e : EmitFailure) : Scales (throw e : EmitM α) := ⟨fun _ _ _ _ h => by cases h⟩

instance (id : NodeId) (cause : EmitCause) : Scales (fatal id cause : EmitM α) := ⟨fun _ _ _ _ h => by cases h⟩

theorem seq {x : EmitM α} {f : α → EmitM β} (hx : Scales x) (hf : ∀ a, Scales (f a)) : Scales (x >>= f) := by
  refine ⟨fun s c s' hs h => ?_⟩
  obtain ⟨a, s₁, hxs, hfs⟩ := bind_ok h
  obtain ⟨hs₁, hxd⟩ := hx.pads s a s₁ hs hxs
  obtain ⟨hs', hfd⟩ := (hf a).pads s₁ c s' hs₁ hfs
  refine ⟨hs', fun d => ?_⟩
  rw [bind_run (hxd d)]
  exact hfd d

/-- The first part is found by instance. -/
theorem bind {x : EmitM α} {f : α → EmitM β} [hx : Scales x] (hf : ∀ a, Scales (f a)) : Scales (x >>= f) := seq hx hf

instance {x : EmitM α} {f : α → EmitM β} [hx : Scales x] [hf : ∀ a, Scales (f a)] : Scales (x >>= f) := seq hx hf

/-- What follows looks at other parts of the state than the pools. -/
theorem get_bind {f : EmitState → EmitM β} (same : ∀ s d, f (s.pad d) = f s) (hf : ∀ s, Scales (f s)) :
    Scales (get >>= f) := by
  refine ⟨fun s c s' hs h => ?_⟩
  rw [get_bind_apply] at h
  obtain ⟨hs', hfd⟩ := (hf s).pads s c s' hs h
  refine ⟨hs', fun d => ?_⟩
  rw [get_bind_apply, same]
  exact hfd d

theorem ite {c : Prop} [Decidable c] {x y : EmitM α} (hx : Scales x) (hy : Scales y) : Scales (if c then x else y) := by
  split
  · exact hx
  · exact hy

instance {c : Prop} [Decidable c] {x y : EmitM α} [hx : Scales x] [hy : Scales y] : Scales (if c then x else y) := ite hx hy

theorem modify {f : EmitState → EmitState} (hs : ∀ s, s.Sized → (f s).Sized) (hf : ∀ s d, f (s.pad d) = (f s).pad d) :
    Scales (modify f : EmitM Unit) := by
  refine ⟨fun s a s' h hm => ?_⟩
  cases hm
  exact ⟨hs s h, fun d => congrArg (EStateM.Result.ok ()) (hf s d)⟩

theorem modifyGet {f : EmitState → α × EmitState} (hs : ∀ s, s.Sized → (f s).2.Sized)
    (hf : ∀ s d, f (s.pad d) = ((f s).1, (f s).2.pad d)) : Scales (modifyGet f : EmitM α) := by
  refine ⟨fun s a s' h hm => ?_⟩
  cases hm
  refine ⟨hs s h, fun d => ?_⟩
  show EStateM.Result.ok (f (s.pad d)).1 (f (s.pad d)).2 = _
  rw [hf]

theorem forM {f : α → EmitM PUnit} (l : List α) (h : ∀ a, Scales (f a)) : Scales (l.forM f) := by
  induction l with
  | nil => exact inferInstanceAs (Scales (pure _))
  | cons a l ih => exact seq (h a) fun _ => ih

instance (l : List α) (f : α → EmitM PUnit) [h : ∀ a, Scales (f a)] : Scales (l.forM f) := forM l h

theorem mapM {f : α → EmitM β} (l : List α) (h : ∀ a, Scales (f a)) : Scales (l.mapM f) := by
  induction l with
  | nil => exact inferInstanceAs (Scales (pure _))
  | cons a l ih =>
    rw [List.mapM_cons]
    exact seq (h a) fun _ => seq ih fun _ => inferInstance

instance (l : List α) (f : α → EmitM β) [h : ∀ a, Scales (f a)] : Scales (l.mapM f) := mapM l h

theorem foldlM {f : β → α → EmitM β} (l : List α) (b : β) (h : ∀ b a, Scales (f b a)) : Scales (l.foldlM f b) := by
  induction l generalizing b with
  | nil => exact inferInstanceAs (Scales (pure _))
  | cons a l ih => exact seq (h b a) ih

instance (l : List α) (f : β → α → EmitM β) (b : β) [h : ∀ b a, Scales (f b a)] : Scales (l.foldlM f b) := foldlM l b h

theorem forIn {f : α → β → EmitM (ForInStep β)} (l : List α) (b : β) (h : ∀ a b, Scales (f a b)) :
    Scales (forIn l b f) := by
  induction l generalizing b with
  | nil => exact inferInstanceAs (Scales (pure _))
  | cons a l ih =>
    rw [List.forIn_cons]
    refine seq (h a b) fun r => ?_
    cases r
    · exact inferInstanceAs (Scales (pure _))
    · exact ih _

instance (l : List α) (f : α → β → EmitM (ForInStep β)) (b : β) [h : ∀ a b, Scales (f a b)] : Scales (ForIn.forIn l b f) :=
  forIn l b h

/-! ### Looking -/

instance : Scales unit := get_bind (fun _ _ => rfl) fun _ => inferInstance

instance (id : NodeId) : Scales (node id) := by
  unfold node
  refine bind fun u => ?_
  split <;> infer_instance

instance (id : NodeId) : Scales (kindOf id) := by unfold kindOf; infer_instance

instance (id : SymbolId) : Scales (symbol id) := by
  unfold symbol
  refine bind fun u => ?_
  split <;> infer_instance

instance (sym : Symbol) : Scales (declaration sym) := by
  unfold declaration
  refine bind fun u => ?_
  split <;> infer_instance

instance (fn : SymbolId) : Scales (funcScope fn) := by
  unfold funcScope
  refine bind fun u => bind fun sym => ?_
  split <;> infer_instance

instance (t : TypeId) : Scales (typeInfo t) := by
  unfold typeInfo
  refine bind fun u => ?_
  split <;> infer_instance

instance (t : TypeId) : Scales (typeKind t) := by unfold typeKind; infer_instance

instance (t : TypeId) : Scales (isResolved t) := by unfold isResolved; infer_instance

instance (t : TypeId) : Scales (isValue t) := by
  unfold isValue
  refine bind fun k => ?_
  split <;> infer_instance

instance (fn : SymbolId) : Scales (funcName fn) := by unfold funcName; infer_instance

instance (id : NodeId) : Scales (binding id) := by
  unfold binding
  refine bind fun u => ?_
  split <;> infer_instance

instance (id : NodeId) : Scales (valueKind id) := by unfold valueKind; infer_instance

instance (id : NodeId) (op : Operator) (l r : NodeId) : Scales (binaryCode id op l r) := by
  unfold binaryCode
  split <;> infer_instance

instance (t : TypeId) : Scales (fieldDefaults t) := by
  unfold fieldDefaults
  refine bind fun u => ?_
  split <;> infer_instance

instance (list : List NodeId) : Scales (givenFields list) := by unfold givenFields; infer_instance

instance (id : NodeId) : Scales (stores id) := by
  unfold stores
  refine bind fun u => ?_
  dsimp only
  split <;> infer_instance

theorem storesAfter (ids : List NodeId) : Scales (storesAfter ids) := by
  fun_induction Emit.storesAfter ids with
  | case1 => infer_instance
  | case2 => infer_instance
  | case3 _ next rest ih => exact seq ih fun tail => inferInstance

instance (ids : List NodeId) : Scales (Emit.storesAfter ids) := storesAfter ids

instance (id : NodeId) (label : String) : Scales (loopTarget id label) := by
  refine get_bind (fun _ _ => rfl) fun s => ?_
  split <;> infer_instance

/-! ### Code and tables -/

instance (i : Instr) : Scales (emit i) := modify (fun _ h => ⟨h.values, h.refs⟩) fun _ _ => rfl

instance (span : Span) : Scales (note span) := modify (fun _ h => ⟨h.values, h.refs⟩) fun _ _ => rfl

instance : Scales newLabel := modifyGet (fun _ h => ⟨h.values, h.refs⟩) fun _ _ => rfl

instance (l : Label) : Scales (bindLabel l) := by
  refine get_bind (fun _ _ => rfl) fun s => ?_
  split
  · exact modify (fun _ h => ⟨h.values, h.refs⟩) fun _ _ => rfl
  · infer_instance

instance (ip slots : Nat) : Scales (patch ip slots) := by
  refine get_bind (fun _ _ => rfl) fun s => ?_
  split
  · exact modify (fun _ h => ⟨h.values, h.refs⟩) fun _ _ => rfl
  · infer_instance

instance : Scales reserve := modifyGet (fun _ h => ⟨h.values, h.refs⟩) fun _ _ => rfl

instance (text : String) : Scales (stringRef text) := modifyGet (fun _ h => ⟨h.values, h.refs⟩) fun _ _ => rfl

instance (fn : SymbolId) : Scales (funcRef fn) := by
  refine get_bind (fun _ _ => rfl) fun s => ?_
  split
  · infer_instance
  · exact bind fun sym => bind fun n => bind fun name => modifyGet (fun _ h => ⟨h.values, h.refs⟩) fun _ _ => rfl

instance (fn : SymbolId) : Scales (nativeRef fn) := by
  refine get_bind (fun _ _ => rfl) fun s => ?_
  split
  · infer_instance
  · exact bind fun sym => bind fun u => bind fun n => modifyGet (fun _ h => ⟨h.values, h.refs⟩) fun _ _ => rfl

instance (t : TypeId) : Scales (typeRef t) := by
  refine get_bind (fun _ _ => rfl) fun s => ?_
  split
  · infer_instance
  · exact bind fun ty => bind fun u => modifyGet (fun _ h => ⟨h.values, h.refs⟩) fun _ _ => rfl

instance (id : NodeId) (n : Node) : Scales (fieldOperand id n) := by
  unfold fieldOperand
  refine bind fun u => ?_
  split <;> infer_instance

instance (id : SymbolId) : Scales (storage id) := by
  refine bind fun sym => get_bind (fun _ _ => rfl) fun s => ?_
  dsimp only
  split <;> infer_instance

instance : Scales spill := modifyGet (fun _ h => ⟨h.values, h.refs⟩) fun _ _ => rfl

instance (n : Nat) : Scales (unspill n) := modify (fun _ h => ⟨h.values, h.refs⟩) fun _ _ => rfl

/-! ### Registers -/

theorem sized_acquire {p q : Pool} {o : Operand} (hp : p.Sized) (h : p.acquire? = some (o, q)) : q.Sized := by
  obtain ⟨i, -, -, -, rfl⟩ := Pool.acquire?_eq_some h
  simpa [Pool.Sized] using hp

instance (id : NodeId) : Scales (acquireValue id) := by
  refine ⟨fun s o s' hs h => ?_⟩
  obtain ⟨values, hget, rfl⟩ := acquireValue_ok h
  refine ⟨⟨sized_acquire hs.values hget, hs.refs⟩, fun d => ?_⟩
  have hpad : (s.pad d).values.acquire? = some (o, values.pad d.values) := Pool.acquire?_pad d.values hget
  rw [acquireValue_apply, hpad]
  rfl

instance (id : NodeId) : Scales (acquireRef id) := by
  refine ⟨fun s o s' hs h => ?_⟩
  obtain ⟨refs, hget, rfl⟩ := acquireRef_ok h
  refine ⟨⟨hs.values, sized_acquire hs.refs hget⟩, fun d => ?_⟩
  have hpad : (s.pad d).refs.acquire? = some (o, refs.pad d.refs) := Pool.acquire?_pad d.refs hget
  rw [acquireRef_apply, hpad]
  rfl

theorem withValues {step : Pool → Except EmitCause Pool} (hstep : Pool.Scales step) : Scales (withValues step) := by
  refine ⟨fun s a s' hs h => ?_⟩
  obtain ⟨values, hp, rfl⟩ := withValues_ok h
  obtain ⟨hsized, hpad⟩ := hstep _ _ hs.values hp
  refine ⟨⟨hsized, hs.refs⟩, fun d => ?_⟩
  have hrun : step (s.pad d).values = .ok (values.pad d.values) := hpad d.values
  rw [withValues_apply, hrun]
  rfl

theorem withRefs {step : Pool → Except EmitCause Pool} (hstep : Pool.Scales step) : Scales (withRefs step) := by
  refine ⟨fun s a s' hs h => ?_⟩
  obtain ⟨refs, hp, rfl⟩ := withRefs_ok h
  obtain ⟨hsized, hpad⟩ := hstep _ _ hs.refs hp
  refine ⟨⟨hs.values, hsized⟩, fun d => ?_⟩
  have hrun : step (s.pad d).refs = .ok (refs.pad d.refs) := hpad d.refs
  rw [withRefs_apply, hrun]
  rfl

instance (i : Nat) : Scales (Emit.withValues (·.release i)) := withValues (Pool.scales_release i)

instance (i : Nat) : Scales (Emit.withRefs (·.release i)) := withRefs (Pool.scales_release i)

instance (i : Nat) : Scales (Emit.withRefs (·.hold i)) := withRefs (Pool.scales_hold i)

instance (i : Nat) : Scales (Emit.withRefs (·.unhold i)) := withRefs (Pool.scales_unhold i)

instance (o : Operand) : Scales (free o) := by
  unfold free
  split <;> infer_instance

instance (o : Operand) (t : TypeId) (id : NodeId) : Scales (toRegister o t id) := by
  unfold toRegister
  split <;> infer_instance

instance (o : Operand) (t : TypeId) (id : NodeId) : Scales (stable o t id) := by unfold stable; infer_instance

instance (dst src : Operand) : Scales (move dst src) := by unfold move; infer_instance

instance (o : Operand) : Scales (pushOperand o) := by unfold pushOperand; infer_instance

/-- The registers in use are the same, so the same ones are saved. -/
instance : Scales spillLive := by
  refine get_bind (fun s d => ?_) fun _ => inferInstance
  show ((s.values.pad d.values).live ++ (s.refs.pad d.refs).live).mapM _ = _
  rw [Pool.live_pad, Pool.live_pad]

instance (saved : List (Operand × Operand)) : Scales (restoreLive saved) := by unfold restoreLive; infer_instance

instance (op : Opcode) (callee : Operand) (fixed : Nat) : Scales (invoke op callee fixed) := by unfold invoke; infer_instance

instance : Scales saveSpread := get_bind (fun _ _ => rfl) fun _ => inferInstance

instance (spread : Bool) : Scales (beginSpread spread) := by
  unfold beginSpread
  split
  · refine bind fun saved => bind fun _ => seq (modify (fun _ h => ⟨h.values, h.refs⟩) fun _ _ => rfl) fun _ => ?_
    infer_instance
  · infer_instance

instance (spread : Bool) : Scales (endSpread spread) := modify (fun _ h => ⟨h.values, h.refs⟩) fun _ _ => rfl

instance (saved : Option Operand) : Scales (restoreSpread saved) := by
  cases saved with
  | none => exact inferInstanceAs (Scales (pure _))
  | some slot => exact bind fun _ => inferInstance

end Scales

/-! ## The generator -/

class EmitterScales (rec : Emitter) : Prop where
  expr : ∀ id b, Scales (rec.expr id b)
  stmt : ∀ id, Scales (rec.stmt id)
  zero : ∀ id t, Scales (rec.zero id t)

namespace Scales

section

variable (rec : Emitter) [h : EmitterScales rec]

instance (id : NodeId) (b : Bool) : Scales (rec.expr id b) := h.expr id b

instance (id : NodeId) : Scales (rec.stmt id) := h.stmt id

instance (id : NodeId) (t : TypeId) : Scales (rec.zero id t) := h.zero id t

instance (id : NodeId) : Scales (exprAny rec id) := h.expr id false

instance (id : NodeId) : Scales (push rec id) := by unfold push; infer_instance

instance (ids : List NodeId) : Scales (pushAll rec ids) := by unfold pushAll; infer_instance

instance (id : NodeId) (forced storesLater : Bool) : Scales (evaluate rec id forced storesLater) := by
  have counted (op : Operand) : Scales (do
      let s ← get
      return { op, accumulatorWrites := s.accumulatorWrites, returnWrites := s.returnWrites : Evaluated }) :=
    get_bind (fun _ _ => rfl) fun _ => inferInstance
  unfold evaluate
  infer_instance

instance (l : List (NodeId × Bool × Bool)) : Scales (evaluateAll rec l) := by
  induction l with
  | nil => exact inferInstanceAs (Scales (pure _))
  | cons p l ih => exact bind fun e => seq ih fun es => inferInstance

omit h in
/-- A rewind brings back the pools that were marked, with the spare registers they had then. -/
theorem rewind_marked {s s₁ s₂ : EmitState} {a : Unit} (hs : s.Sized) (h : rewind (markOf s) s₁ = .ok a s₂) :
    s₂.Sized ∧ ∀ d, rewind (markOf (s.pad d)) (s₁.pad d) = .ok a (s₂.pad d) := by
  cases h
  exact ⟨⟨hs.values, hs.refs⟩, fun _ => rfl⟩

omit h in
/-- One round over a list of operands. -/
theorem operandsAux_round {ids : List NodeId} {storing forced : List Bool} (fuel : Nat) {es : List Evaluated} {s s₁ : EmitState}
    (hes : evaluateAll rec (ids.zip (forced.zip storing)) s = .ok es s₁) :
    Emit.operandsAux rec ids storing (fuel + 1) forced s =
      if (es.dropLast.map (·.isStale s₁)).any id then (do
        rewind (markOf s)
        Emit.operandsAux rec ids storing fuel (forced.zipWith or ((es.dropLast.map fun e : Evaluated => e.isStale s₁) ++ [false]))) s₁
      else .ok (es.map (·.op)) s₁ := by
  rw [Emit.operandsAux, bind_run (mark_run s), bind_run hes, get_bind_apply]
  split <;> rfl

/-- Whether a value is stale depends on the counts alone, so both runs go through the same rounds. -/
theorem operandsAux (ids : List NodeId) (storing : List Bool) (fuel : Nat) :
    ∀ forced, Scales (Emit.operandsAux rec ids storing fuel forced) := by
  induction fuel with
  | zero => exact fun _ => inferInstanceAs (Scales (throw _))
  | succ fuel ih =>
    refine fun forced => ⟨fun s os s' hs hrun => ?_⟩
    obtain ⟨_, s₀, hmark, hrest⟩ := bind_ok hrun
    cases hmark
    obtain ⟨es, s₁, hes, -⟩ := bind_ok hrest
    obtain ⟨hs₁, hesd⟩ := pads s es s₁ hs hes
    have hround (d : Spares) := operandsAux_round rec fuel (hesd d)
    have hsame (d : Spares) : es.dropLast.map (·.isStale (s₁.pad d)) = es.dropLast.map (·.isStale s₁) := rfl
    rw [operandsAux_round rec fuel hes] at hrun
    by_cases hstale : (es.dropLast.map (·.isStale s₁)).any id = true
    · rw [if_pos hstale] at hrun
      obtain ⟨_, s₂, hrewind, hnext⟩ := bind_ok hrun
      obtain ⟨hs₂, hrewindd⟩ := rewind_marked hs hrewind
      obtain ⟨hs', hnextd⟩ := (ih _).pads s₂ os s' hs₂ hnext
      refine ⟨hs', fun d => ?_⟩
      rw [hround, hsame, if_pos hstale, bind_run (hrewindd d)]
      exact hnextd d
    · rw [if_neg hstale] at hrun
      cases hrun
      refine ⟨hs₁, fun d => ?_⟩
      rw [hround, hsame, if_neg hstale]

instance (ids : List NodeId) : Scales (operands rec ids) := bind fun _ => operandsAux rec _ _ _ _

instance (a b : NodeId) : Scales (operands2 rec a b) := by
  unfold operands2
  refine bind fun os => ?_
  split <;> infer_instance

instance (a b c : NodeId) : Scales (operands3 rec a b c) := by
  unfold operands3
  refine bind fun os => ?_
  split <;> infer_instance

/-! ### Values -/

instance (id : NodeId) (n : Node) : Scales (logical rec id n) := by unfold logical; infer_instance

instance (id : NodeId) (n : Node) : Scales (binary rec id n) := by unfold binary; infer_instance

instance (n : Node) : Scales (unary rec n) := by
  unfold unary
  split <;> infer_instance

omit h in
instance (id : NodeId) (n : Node) : Scales (name id n) := by
  unfold name
  refine bind fun v => bind fun sym => ?_
  split <;> infer_instance

omit h in
instance (id : NodeId) : Scales (literal id) := by
  unfold literal
  refine bind fun u => ?_
  split <;> infer_instance

instance (id : NodeId) (n : Node) : Scales (assignName rec id n) := by
  unfold assignName
  exact bind fun v => bind fun dst => ite inferInstance (bind fun p => inferInstance)

omit h in
instance (id : NodeId) (n : Node) (value : Operand) : Scales (combine id n value) := by unfold combine; infer_instance

instance (id : NodeId) (n tn : Node) : Scales (assignElement rec id n tn) := by
  unfold assignElement
  refine bind fun p => ite inferInstance ?_
  refine bind fun an => bind fun x => bind fun kn => bind fun k => bind fun vn => bind fun v => bind fun _ => ?_
  exact bind fun v => inferInstance

instance (id : NodeId) (n tn : Node) : Scales (assignMember rec id n tn) := by
  unfold assignMember
  refine bind fun p => bind fun field => ite inferInstance ?_
  refine bind fun an => bind fun x => bind fun vn => bind fun v => bind fun _ => ?_
  exact bind fun v => inferInstance

instance (id : NodeId) (n : Node) : Scales (assign rec id n) := by
  unfold assign
  refine bind fun tn => ?_
  split <;> infer_instance

instance (id : NodeId) (t : TypeId) (given : List (String × NodeId)) : Scales (makeStruct rec id t given) := by
  unfold makeStruct
  refine bind fun ty => bind fun defaults => seq (forIn _ _ fun p _ => ?_) fun _ => inferInstance
  dsimp only
  split <;> infer_instance

instance (id : NodeId) (t : TypeId) : Scales (zeroStep rec id t) := by
  unfold zeroStep
  refine bind fun ty => ?_
  split <;> infer_instance

instance (id : NodeId) (n : Node) : Scales (cast rec id n) := by unfold cast; infer_instance

/-! ### Calls -/

instance (arg : NodeId) : Scales (pushArg rec arg) := by unfold pushArg; infer_instance

instance (id : NodeId) (n : Node) (target : SymbolId) : Scales (makeVariant rec id n target) := by
  unfold makeVariant; infer_instance

instance (id : NodeId) (n : Node) (info : CallInfo) : Scales (calleeOperand rec id n info) := by
  unfold calleeOperand
  cases info.kind <;> infer_instance

instance (n : Node) (method : Bool) : Scales (pushArgs rec n method) := by unfold pushArgs; infer_instance

instance (id : NodeId) (n : Node) : Scales (call rec id n) := by
  unfold call
  refine bind fun u => ?_
  split <;> infer_instance

/-! ### Every kind of expression -/

instance (id : NodeId) (n : Node) : Scales (value rec id n) := by
  unfold value
  split <;> infer_instance

instance (id : NodeId) (inRegister : Bool) : Scales (exprStep rec id inRegister) := by unfold exprStep; infer_instance

/-! ### Statements -/

instance (id : NodeId) (n : Node) : Scales (letStmt rec id n) := by
  unfold letStmt
  refine ite inferInstance (bind fun u => ?_)
  split <;> infer_instance

instance (id : NodeId) (l : Label) : Scales (condition rec id l) := by unfold condition; infer_instance

omit h in
instance (l : Label) : Scales (jumpTo l) := by unfold jumpTo; infer_instance

instance (n : Node) : Scales (ifStmt rec n) := by
  unfold ifStmt
  exact bind fun stop => ite inferInstance (bind fun no => bind fun _ => bind fun _ => inferInstance)

instance (l : LoopTargets) (body : NodeId) : Scales (inLoop rec l body) :=
  seq (modify (fun _ h => ⟨h.values, h.refs⟩) fun _ _ => rfl) fun _ =>
    bind fun _ => modify (fun _ h => ⟨h.values, h.refs⟩) fun _ _ => rfl

instance (n : Node) : Scales (whileLoop rec n) := by unfold whileLoop; infer_instance

instance (n : Node) : Scales (forLoop rec n) := by
  unfold forLoop
  refine bind fun _ => bind fun top => bind fun again => bind fun exit => bind fun _ => ?_
  infer_instance

omit h in
instance (op : Opcode) (it : Operand) (v : SymbolId) : Scales (fetch op it v) := by unfold fetch; infer_instance

omit h in
/-- A variable may be set before the rest. -/
theorem fetch? (op : Opcode) (it : Operand) (v : Option SymbolId) {m : EmitM Unit} (hm : Scales m) : Scales (match v with
    | some x => do
      fetch op it x
      m
    | _ => m) := by
  split
  · exact bind fun _ => hm
  · exact hm

instance (id : NodeId) (n : Node) : Scales (foreach rec id n) := by
  unfold foreach
  refine bind fun x => bind fun _ => bind fun _ => bind fun it => bind fun _ => bind fun _ => ?_
  refine bind fun top => bind fun exit => bind fun _ => bind fun _ => bind fun u => ?_
  exact fetch? _ _ _ (fetch? _ _ _ inferInstance)

omit h in
theorem dispatch (tag : Operand) (arms : List NodeId) : ∀ fallback, Scales (dispatch tag arms fallback) := by
  induction arms with
  | nil => exact fun _ => inferInstanceAs (Scales (pure _))
  | cons c rest ih =>
    intro fallback
    unfold Emit.dispatch
    refine bind fun l => bind fun u => ?_
    split <;> infer_instance

omit h in
instance (tag : Operand) (arms : List NodeId) (fallback : Label) : Scales (Emit.dispatch tag arms fallback) :=
  dispatch tag arms fallback

instance (subject : Operand) (stop : Label) (c : NodeId) (l : Label) : Scales (arm rec subject stop c l) := by
  unfold arm
  exact bind fun _ => bind fun cn => bind fun _ => bind fun u => fetch? _ _ _ inferInstance

theorem arms (id : NodeId) (n : Node) (subject : Operand) {last : EmitM Unit} (hlast : Scales last) : Scales (do
    Emit.emit { op := .tag, a := subject }
    let tag ← acquireValue id
    Emit.emit { op := .mov, a := tag, b := .accumulator }
    let stop ← newLabel
    let (labels, fallback) ← Emit.dispatch tag n.list stop
    jumpTo fallback
    Emit.withValues (·.release tag.val.toNat)
    (n.list.zip labels).forM fun (c, l) => arm rec subject stop c l
    bindLabel stop
    last) := by
  refine bind fun _ => bind fun tag => bind fun _ => bind fun stop => bind fun p => ?_
  exact bind fun _ => bind fun _ => bind fun _ => bind fun _ => hlast

instance (id : NodeId) (n : Node) : Scales (matchStmt rec id n) := by
  unfold matchStmt
  refine bind fun v => bind fun an => bind fun subject => ite (bind fun _ => ?_) ?_
  · exact arms rec id n subject inferInstance
  · exact arms rec id n subject inferInstance

instance (n : Node) : Scales (returnStmt rec n) := get_bind (fun _ _ => rfl) fun _ => inferInstance

instance (id : NodeId) : Scales (stmtStep rec id) := by
  unfold stmtStep
  refine ite inferInstance (bind fun n => ite inferInstance (bind fun _ => ?_))
  split <;> infer_instance

end

theorem emitter (fuel : Nat) : EmitterScales (emitter fuel) := by
  induction fuel with
  | zero => exact ⟨fun _ _ => inferInstanceAs (Scales (throw _)), fun _ => inferInstanceAs (Scales (throw _)),
      fun _ _ => inferInstanceAs (Scales (throw _))⟩
  | succ fuel ih =>
    exact ⟨fun id b => inferInstanceAs (Scales (exprStep _ id b)), fun id => inferInstanceAs (Scales (stmtStep _ id)),
      fun id t => inferInstanceAs (Scales (zeroStep _ id t))⟩

/-! ### The run -/

instance (fuel : Nat) : EmitterScales (Emit.emitter fuel) := emitter fuel

section

variable (rec : Emitter) [EmitterScales rec]

instance (st : StaticInit) : Scales (emitStatic rec st) := by unfold emitStatic; infer_instance

omit [EmitterScales rec] in
instance : Scales openEntry :=
  bind fun _ => bind fun _ => seq (modify (fun _ h => ⟨h.values, h.refs⟩) fun _ _ => rfl) fun _ => inferInstance

instance : Scales (entryCode rec) := by unfold entryCode; infer_instance

instance : Scales (emitEntry rec) :=
  bind fun _ => bind fun _ => get_bind (fun _ _ => rfl) fun _ => inferInstance

instance (body : NodeId) : Scales (emitBody rec body) := by unfold emitBody; infer_instance

omit [EmitterScales rec] in
instance (fn : SymbolId) (entry : Label) : Scales (openFunc fn entry) := by
  unfold openFunc
  refine bind fun sym => bind fun n => bind fun scope => bind fun name => ?_
  refine seq (modifyGet (fun _ h => ⟨h.values, h.refs⟩) fun _ _ => rfl) fun span => bind fun _ => ?_
  exact seq (modify (fun _ h => ⟨h.values, h.refs⟩) fun _ _ => rfl) fun _ => inferInstance

omit [EmitterScales rec] in
instance (index : Nat) (span : OpenSpan) (ip : Nat) : Scales (closeFunc index span ip) :=
  get_bind (fun _ _ => rfl) fun _ => bind fun _ => modify (fun _ h => ⟨h.values, h.refs⟩) fun _ _ => rfl

instance (fn : SymbolId) : Scales (emitFunc rec fn) := by
  unfold emitFunc
  refine bind fun sym => bind fun n => get_bind (fun _ _ => rfl) fun s => ?_
  split <;> infer_instance

theorem emitQueue (fuel : Nat) : ∀ i, Scales (emitQueue rec fuel i) := by
  induction fuel with
  | zero => exact fun _ => inferInstanceAs (Scales (throw _))
  | succ fuel ih =>
    intro i
    unfold Emit.emitQueue
    refine get_bind (fun _ _ => rfl) fun s => ?_
    split <;> infer_instance

end

instance : Scales run := by
  unfold run
  refine bind fun u => ?_
  dsimp only
  have queued := emitQueue (Emit.emitter (8 * u.tree.size + 8 * u.types.size + 4096))
  refine seq (modifyGet (fun _ h => ⟨h.values, h.refs⟩) fun _ _ => rfl) fun span => bind fun entry => bind fun _ => ?_
  refine seq (modify (fun _ h => ⟨h.values, h.refs⟩) fun _ _ => rfl) fun _ => get_bind (fun _ _ => rfl) fun s => ?_
  split <;> infer_instance

end Scales

/-- Larger pools start with spare registers. -/
theorem start_pad (u : AnalysisResult) (tracer : Tracer) {o o' : EmitOptions} (hv : o.values ≤ o'.values)
    (hr : o.refs ≤ o'.refs) : start u o' tracer =
      (start u o tracer).pad { values := o'.values - o.values, refs := o'.refs - o.refs } := by
  unfold start EmitState.pad
  dsimp only
  rw [Pool.pad_ofSize, Pool.pad_ofSize, Nat.add_sub_cancel' hv, Nat.add_sub_cancel' hr]

theorem sized_start (u : AnalysisResult) (o : EmitOptions) (tracer : Tracer) : (start u o tracer).Sized where
  values := by simp [start, Pool.Sized, Pool.ofSize]
  refs := by simp [start, Pool.Sized, Pool.ofSize]

end Emit

open Emit

/-- A run that succeeds takes its scratch registers in the order of their numbers, so it never looks at one behind those that
it has, and more of them leave everything as it is. -/
theorem AnalysisResult.generate_with_more_registers (u : AnalysisResult) (tracer tracer' : Tracer) (o o' : EmitOptions)
    (p : Program) (table : DebugTable) (hv : o.values ≤ o'.values) (hr : o.refs ≤ o'.refs)
    (h : u.generate o tracer = (.ok (p, table), tracer')) : u.generate o' tracer = (.ok (p, table), tracer') := by
  unfold generate EStateM.run at h ⊢
  cases hrun : run (start u o tracer) with
  | error e s =>
    rw [hrun] at h
    cases h
  | ok r s =>
    rw [hrun] at h
    cases h
    obtain ⟨-, hpad⟩ := (inferInstance : Scales run).pads _ _ _ (sized_start u o tracer) hrun
    rw [start_pad u tracer hv hr, hpad]
    rfl

/-- A sum of calls, `f() + (f() + f())`: the last call is made while the results of the others are held. -/
def sumsCalls : Tree where
  nodes := #[
    .typeName ["int"], .intLit 1, .returnStmt 2, .block [3], .func "f" [] 1 4,
    .ident ["f"], .call 6 [], .ident ["f"], .call 8 [], .ident ["f"], .call 10 [],
    .binary .add 9 11, .binary .add 7 12, .letDecl "s" 0 13, { kind := .file, list := [5, 14] }]
  roots := [15]

/-- With one register the sum does not fit, with two it does, and with more it is the same. -/
theorem sumsCalls_with_more_registers :
    let e := sumsCalls.analyze {} {}
    e.failure = none ∧ e.hasErrors = false ∧
    view? run (fun _ _ => ()) (start e.state.result { values := 1 } {}) = none ∧
    ∃ p table tracer, { op := .mov, a := { kind := .value, val := 1 }, b := .returned } ∈ p.code ∧
      e.state.result.generate { values := 2, refs := 1 } {} = (.ok (p, table), tracer) ∧
      e.state.result.generate {} {} = (.ok (p, table), tracer) := by
  obtain ⟨hfailure, herrors, hfull, hview⟩ :
      let e := sumsCalls.analyze {} {}
      e.failure = none ∧ e.hasErrors = false ∧
        view? run (fun _ _ => ()) (start e.state.result { values := 1 } {}) = none ∧
        view? run (fun r _ => decide ({ op := .mov, a := { kind := .value, val := 1 }, b := .returned } ∈ r.1.code))
          (start e.state.result { values := 2, refs := 1 } {}) = some true := by decide +kernel
  refine ⟨hfailure, herrors, hfull, ?_⟩
  obtain ⟨⟨p, table⟩, s, hrun, hmem⟩ := view?_eq_some hview
  have hgen : (sumsCalls.analyze {} {}).state.result.generate { values := 2, refs := 1 } {} = (.ok (p, table), s.tracer) := by
    unfold AnalysisResult.generate EStateM.run
    rw [hrun]
  exact ⟨p, table, s.tracer, of_decide_eq_true hmem, hgen,
    AnalysisResult.generate_with_more_registers _ {} _ _ _ _ _ (by decide) (by decide) hgen⟩

end TreeCompiler
