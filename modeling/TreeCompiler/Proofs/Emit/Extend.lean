import TreeCompiler.Proofs.Emit.Place

/-!
# Code that only grows

Inside one function emission appends instructions: what was emitted, bound and queued before stays as it is, also when
operands are emitted again.

* `Extends A b s s'` : from `s` to `s'` the code grew by instructions whose stack operands are spill slots or satisfy `A`,
  and no label below `b` was bound;
* `Emits` : a computation that only extends, with what holds of its result;
* the lemmas below say it of every primitive of emission.
-/

namespace TreeCompiler

/-- A slot below the locals that has been spilled to. -/
def Frame.IsSpill (f : Frame) (o : Operand) : Prop :=
  -((f.locals + f.maxSpill : Nat) : Int) < o.val ∧ o.val ≤ -(f.locals : Int)

namespace EmitState

/-- Every queued function has its row, under the number of its place in the queue. -/
structure Queued (s : EmitState) : Prop where
  size : s.work.size = s.asm.funcs.size
  rows : ∀ k fn, s.work[k]? = some fn → ∃ r, s.asm.funcs[k]? = some r ∧ s.funcs.get? fn = some (k, r.entry) ∧
    ∃ n, s.unit.declarationOf? fn = some n ∧ r.row.params = (n.list.length : Int)

theorem Queued.congr {s s' : EmitState} (h : s.Queued) (work : s'.work = s.work) (rows : s'.asm.funcs = s.asm.funcs)
    (funcs : s'.funcs = s.funcs) (unit : s'.unit = s.unit) : s'.Queued :=
  ⟨by rw [work, rows]; exact h.size, by rw [work, rows, funcs, unit]; exact h.rows⟩

end EmitState

namespace Emit

/-- The stack operands of an instruction are spill slots or satisfy `A`. -/
def Within (A : Operand → Prop) (f : Frame) (i : Instr) : Prop :=
  ∀ o ∈ i.operands, o.kind = .stack → A o ∨ f.IsSpill o

/-- An operand that may be handed on: a stack slot only if `A` allows it. -/
def Plain (A : Operand → Prop) (o : Operand) : Prop := o.kind = .stack → A o

structure Extends (A : Operand → Prop) (b : Nat) (s s' : EmitState) : Prop where
  unit : s'.unit = s.unit
  fn : s'.frame.fn = s.frame.fn
  captures : s'.frame.captures = s.frame.captures
  locals : s'.frame.locals = s.frame.locals
  maxSpill : s.frame.maxSpill ≤ s'.frame.maxSpill
  values : s'.values.kind = s.values.kind
  refs : s'.refs.kind = s.refs.kind
  code : ∃ is, s'.asm.code.toList = s.asm.code.toList ++ is ∧ ∀ i ∈ is, Within A s'.frame i
  size : s.asm.labels.size ≤ s'.asm.labels.size
  labels : ∀ l < b, s'.asm.labels[l]? = s.asm.labels[l]?
  bound : ∃ ls, s'.asm.bound.toList = s.asm.bound.toList ++ ls ∧ ∀ l ∈ ls, b ≤ l
  queued : s.Queued → s'.Queued
  rows : ∃ rs, s'.asm.funcs.toList = s.asm.funcs.toList ++ rs
  work : ∃ fns, s'.work.toList = s.work.toList ++ fns

variable {A : Operand → Prop} {b : Nat}

theorem IsSpill.mono {f f' : Frame} {o : Operand} (h : f.IsSpill o) (hl : f'.locals = f.locals)
    (hm : f.maxSpill ≤ f'.maxSpill) : f'.IsSpill o := by
  unfold Frame.IsSpill at *
  rw [hl]
  omega

theorem Within.mono {f f' : Frame} {i : Instr} (h : Within A f i) (hl : f'.locals = f.locals)
    (hm : f.maxSpill ≤ f'.maxSpill) : Within A f' i :=
  fun o ho hk => (h o ho hk).imp_right fun h => IsSpill.mono h hl hm

namespace Extends

/-- A step that leaves the code, the labels, the rows and the queue alone. -/
theorem quiet {s s' : EmitState} (unit : s'.unit = s.unit) (fn : s'.frame.fn = s.frame.fn)
    (captures : s'.frame.captures = s.frame.captures) (locals : s'.frame.locals = s.frame.locals)
    (maxSpill : s.frame.maxSpill ≤ s'.frame.maxSpill) (values : s'.values.kind = s.values.kind)
    (refs : s'.refs.kind = s.refs.kind) (code : s'.asm.code = s.asm.code) (labels : s'.asm.labels = s.asm.labels)
    (bound : s'.asm.bound = s.asm.bound) (rows : s'.asm.funcs = s.asm.funcs) (work : s'.work = s.work)
    (funcs : s'.funcs = s.funcs) : Extends A b s s' where
  unit := unit
  fn := fn
  captures := captures
  locals := locals
  maxSpill := maxSpill
  values := values
  refs := refs
  code := ⟨[], by rw [code, List.append_nil], fun _ h => absurd h List.not_mem_nil⟩
  size := Nat.le_of_eq (congrArg Array.size labels.symm)
  labels := fun l _ => by rw [labels]
  bound := ⟨[], by rw [bound, List.append_nil], fun _ h => absurd h List.not_mem_nil⟩
  queued := fun h => h.congr work rows funcs unit
  rows := ⟨[], by rw [rows, List.append_nil]⟩
  work := ⟨[], by rw [work, List.append_nil]⟩

theorem refl (s : EmitState) : Extends A b s s := quiet rfl rfl rfl rfl (Nat.le_refl _) rfl rfl rfl rfl rfl rfl rfl rfl

theorem trans {s₁ s₂ s₃ : EmitState} (h : Extends A b s₁ s₂) (h' : Extends A b s₂ s₃) : Extends A b s₁ s₃ := by
  obtain ⟨is, hc, hw⟩ := h.code
  obtain ⟨is', hc', hw'⟩ := h'.code
  obtain ⟨ls, hb, hl⟩ := h.bound
  obtain ⟨ls', hb', hl'⟩ := h'.bound
  obtain ⟨rs, hr⟩ := h.rows
  obtain ⟨rs', hr'⟩ := h'.rows
  obtain ⟨ws, hq⟩ := h.work
  obtain ⟨ws', hq'⟩ := h'.work
  refine
    { unit := h'.unit.trans h.unit
      fn := h'.fn.trans h.fn
      captures := h'.captures.trans h.captures
      locals := h'.locals.trans h.locals
      maxSpill := Nat.le_trans h.maxSpill h'.maxSpill
      values := h'.values.trans h.values
      refs := h'.refs.trans h.refs
      code := ⟨is ++ is', by rw [hc', hc, List.append_assoc], fun i hi => ?_⟩
      size := Nat.le_trans h.size h'.size
      labels := fun l hlt => (h'.labels l hlt).trans (h.labels l hlt)
      bound := ⟨ls ++ ls', by rw [hb', hb, List.append_assoc], fun l hm => ?_⟩
      queued := fun q => h'.queued (h.queued q)
      rows := ⟨rs ++ rs', by rw [hr', hr, List.append_assoc]⟩
      work := ⟨ws ++ ws', by rw [hq', hq, List.append_assoc]⟩ }
  · rcases List.mem_append.1 hi with hi | hi
    · exact (hw i hi).mono h'.locals h'.maxSpill
    · exact hw' i hi
  · exact (List.mem_append.1 hm).elim (hl l) (hl' l)

/-- A computation that starts with more labels touches none of the older ones. -/
theorem weaken {b' : Nat} {s s' : EmitState} (h : Extends A b' s s') (hb : b ≤ b') : Extends A b s s' :=
  { h with
    labels := fun l hl => h.labels l (Nat.lt_of_lt_of_le hl hb)
    bound := h.bound.imp fun _ hl => ⟨hl.1, fun l hm => Nat.le_trans hb (hl.2 l hm)⟩ }

end Extends

/-! ## Labels -/

theorem lt_of_address? {a : Assembler} {l : Label} {ip : Nat} (h : a.address? l = some ip) : l < a.labels.size := by
  refine Nat.lt_of_not_le fun hge => ?_
  simp [Assembler.address?, Array.getElem?_eq_none hge] at h

/-- Labels stay where they are bound. -/
def LabelsStay (a a' : Assembler) : Prop := ∀ l ip, a.address? l = some ip → a'.address? l = some ip

theorem Extends.labelsStay {A : Operand → Prop} {s s' : EmitState} (h : Extends A s.asm.labels.size s s') :
    LabelsStay s.asm s'.asm := by
  intro l ip hl
  rw [Assembler.address?, h.labels l (lt_of_address? hl)]
  exact hl

theorem LabelsStay.trans {a a' a'' : Assembler} (h : LabelsStay a a') (h' : LabelsStay a' a'') : LabelsStay a a'' :=
  fun l ip hl => h' l ip (h l ip hl)

theorem labelsStay_push {a a' : Assembler} (h : a'.labels = a.labels.push none) : LabelsStay a a' := by
  intro l ip hl
  rw [Assembler.address?, h, Array.getElem?_push, if_neg (Nat.ne_of_lt (lt_of_address? hl))]
  exact hl

theorem labelsStay_bind {a a' : Assembler} {l : Label} {ip : Nat} (h : a.address? l = none)
    (ha : a'.labels = a.labels.setIfInBounds l (some ip)) : LabelsStay a a' := by
  intro k at' hk
  have hne : l ≠ k := by
    rintro rfl
    rw [h] at hk
    cases hk
  rw [Assembler.address?, ha, Array.getElem?_setIfInBounds_ne hne]
  exact hk

theorem address?_bind {a a' : Assembler} {l : Label} {ip : Nat} (h : l < a.labels.size)
    (ha : a'.labels = a.labels.setIfInBounds l (some ip)) : a'.address? l = some ip := by
  rw [Assembler.address?, ha, Array.getElem?_setIfInBounds_self_of_lt h]
  rfl

/-! ## Computations -/

/-- What stays fixed while one function is emitted: the unit, the number of its captures, the stack slots that its code
may touch and the number of labels made before. -/
structure Setting where
  unit : AnalysisResult
  captures : Nat
  allowed : Operand → Prop
  base : Nat

/-- A state of the setting. -/
structure Over (K : Setting) (s : EmitState) : Prop where
  unit : s.unit = K.unit
  captures : s.frame.captures = K.captures
  labels : K.base ≤ s.asm.labels.size
  values : s.values.kind = .value
  refs : s.refs.kind = .ref

theorem Extends.over {K : Setting} {s s' : EmitState} (h : Extends A b s s') (hs : Over K s) : Over K s' where
  unit := h.unit.trans hs.unit
  captures := h.captures.trans hs.captures
  labels := Nat.le_trans hs.labels h.size
  values := h.values.trans hs.values
  refs := h.refs.trans hs.refs

def Emits {α : Type} (K : Setting) (m : EmitM α) (Q : α → Prop) : Prop :=
  ∀ s a s', Over K s → m s = .ok a s' → Extends K.allowed K.base s s' ∧ Q a

variable {K : Setting} {α β : Type}

/-- Inversion of a sequence that succeeds. -/
theorem bind_ok {x : EmitM α} {f : α → EmitM β} {s s' : EmitState} {c : β} (h : (x >>= f) s = .ok c s') :
    ∃ a s₁, x s = .ok a s₁ ∧ f a s₁ = .ok c s' := by
  change EStateM.bind x f s = _ at h
  unfold EStateM.bind at h
  cases hx : x s with
  | ok a s₁ =>
    rw [hx] at h
    exact ⟨a, s₁, rfl, h⟩
  | error e s₁ =>
    rw [hx] at h
    cases h

/-- What can be seen of a result, to compare what is too large to compare as a whole. -/
def view? (m : EmitM α) (f : α → EmitState → β) (s : EmitState) : Option β :=
  match m s with
  | .ok a s' => some (f a s')
  | .error .. => none

theorem view?_eq_some {m : EmitM α} {f : α → EmitState → β} {s : EmitState} {b : β} (h : view? m f s = some b) :
    ∃ a s', m s = .ok a s' ∧ f a s' = b := by
  unfold view? at h
  cases hm : m s with
  | ok a s' =>
    rw [hm] at h
    exact ⟨a, s', rfl, Option.some.inj h⟩
  | error e s' =>
    rw [hm] at h
    cases h

/-- A computation that only looks. -/
def Reads (m : EmitM α) : Prop := ∀ s a s', m s = .ok a s' → s' = s

theorem Reads.bind {x : EmitM α} {f : α → EmitM β} (hx : Reads x) (hf : ∀ a, Reads (f a)) : Reads (x >>= f) := by
  intro s c s' h
  obtain ⟨a, s₁, hxs, hfs⟩ := bind_ok h
  obtain rfl := hx s a s₁ hxs
  exact hf a s₁ c s' hfs

theorem reads_pure (a : α) : Reads (pure a : EmitM α) := fun s c s' h => by cases h; rfl

theorem reads_throw (e : EmitFailure) : Reads (throw e : EmitM α) := fun s c s' h => by cases h

theorem reads_unit : Reads unit := fun s c s' h => by cases h; rfl

theorem get_bind_apply (f : EmitState → EmitM β) (s : EmitState) : (get >>= f) s = f s s := rfl

theorem node_apply (id : NodeId) (s : EmitState) : node id s =
    (match s.unit.tree.get? id with
      | some n => pure n
      | none => fatal id .missingNode : EmitM Node) s := rfl

theorem node_ok {id : NodeId} {s s' : EmitState} {n : Node} (h : node id s = .ok n s') :
    s.unit.tree.get? id = some n ∧ s' = s := by
  rw [node_apply] at h
  cases hn : s.unit.tree.get? id with
  | none =>
    rw [hn] at h
    cases h
  | some n =>
    rw [hn] at h
    cases h
    exact ⟨rfl, rfl⟩

theorem symbol_apply (id : SymbolId) (s : EmitState) : symbol id s =
    (match s.unit.scopes.symbol? id with
      | some sym => pure sym
      | none => throw .brokenReference : EmitM Symbol) s := rfl

theorem symbol_ok {id : SymbolId} {s s' : EmitState} {sym : Symbol} (h : symbol id s = .ok sym s') :
    s.unit.scopes.symbol? id = some sym ∧ s' = s := by
  rw [symbol_apply] at h
  cases hsym : s.unit.scopes.symbol? id with
  | none =>
    rw [hsym] at h
    cases h
  | some sym =>
    rw [hsym] at h
    cases h
    exact ⟨rfl, rfl⟩

theorem declaration_apply (sym : Symbol) (s : EmitState) : declaration sym s =
    (match s.unit.tree.get? sym.decl with
      | some n => pure n
      | none => throw .brokenReference : EmitM Node) s := rfl

theorem declaration_ok {sym : Symbol} {s s' : EmitState} {n : Node} (h : declaration sym s = .ok n s') :
    s.unit.tree.get? sym.decl = some n ∧ s' = s := by
  rw [declaration_apply] at h
  cases hn : s.unit.tree.get? sym.decl with
  | none =>
    rw [hn] at h
    cases h
  | some n =>
    rw [hn] at h
    cases h
    exact ⟨rfl, rfl⟩

theorem funcScope_ok {fn : SymbolId} {s s' : EmitState} {sc : Scope} (h : funcScope fn s = .ok sc s') :
    s.unit.bodyScope? fn = some sc ∧ s' = s := by
  obtain ⟨u, _, hu, hrest⟩ := bind_ok h
  cases hu
  obtain ⟨sym, s₁, hsym, hcase⟩ := bind_ok hrest
  obtain ⟨hsym, rfl⟩ := symbol_ok hsym
  cases hsc : s₁.unit.scopes.scope? sym.body with
  | none =>
    rw [hsc] at hcase
    cases hcase
  | some sc =>
    rw [hsc] at hcase
    cases hcase
    exact ⟨by rw [AnalysisResult.bodyScope?, hsym]; exact hsc, rfl⟩

theorem reads_funcName (fn : SymbolId) : Reads (funcName fn) :=
  reads_unit.bind fun _ => Reads.bind (fun _ _ _ h => (symbol_ok h).2) fun _ => reads_pure _

theorem bindLabel_apply (l : Label) (s : EmitState) : bindLabel l s =
    (match s.asm.bindLabel l with
      | .ok asm => modify fun s => { s with asm }
      | .error m => throw (.misuse m) : EmitM Unit) s := rfl

theorem bindLabel_ok {l : Label} {s s' : EmitState} {a : Unit} (h : bindLabel l s = .ok a s') :
    l < s.asm.labels.size ∧ s.asm.address? l = none ∧
      s' = { s with asm := { s.asm with
        labels := s.asm.labels.setIfInBounds l (some s.asm.pos), bound := s.asm.bound.push l } } := by
  rw [bindLabel_apply] at h
  cases hasm : s.asm.bindLabel l with
  | error m =>
    rw [hasm] at h
    cases h
  | ok asm =>
    rw [hasm] at h
    cases h
    unfold Assembler.bindLabel at hasm
    split at hasm
    · cases hasm
    · split at hasm
      · cases hasm
      · rename_i hl hb
        cases hasm
        exact ⟨Nat.lt_of_not_le hl, by simpa using hb, rfl⟩

theorem acquireValue_apply (id : NodeId) (s : EmitState) : acquireValue id s =
    (match s.values.acquire? with
      | some (o, values) => do
        set { s with values }
        pure o
      | none => fatal id (.exhausted s.values.name s.values.size) : EmitM Operand) s := rfl

theorem acquireValue_ok {id : NodeId} {s s' : EmitState} {o : Operand} (h : acquireValue id s = .ok o s') :
    ∃ values, s.values.acquire? = some (o, values) ∧ s' = { s with values } := by
  rw [acquireValue_apply] at h
  cases hp : s.values.acquire? with
  | none =>
    rw [hp] at h
    cases h
  | some p =>
    rw [hp] at h
    cases h
    exact ⟨p.2, rfl, rfl⟩

theorem acquireRef_apply (id : NodeId) (s : EmitState) : acquireRef id s =
    (match s.refs.acquire? with
      | some (o, refs) => do
        set { s with refs }
        pure o
      | none => fatal id (.exhausted s.refs.name s.refs.size) : EmitM Operand) s := rfl

theorem acquireRef_ok {id : NodeId} {s s' : EmitState} {o : Operand} (h : acquireRef id s = .ok o s') :
    ∃ refs, s.refs.acquire? = some (o, refs) ∧ s' = { s with refs } := by
  rw [acquireRef_apply] at h
  cases hp : s.refs.acquire? with
  | none =>
    rw [hp] at h
    cases h
  | some p =>
    rw [hp] at h
    cases h
    exact ⟨p.2, rfl, rfl⟩

theorem withValues_apply (step : Pool → Except EmitCause Pool) (s : EmitState) : withValues step s =
    (match step s.values with
      | .ok values => modify fun s => { s with values }
      | .error c => fatal 0 c : EmitM Unit) s := rfl

theorem withValues_ok {step : Pool → Except EmitCause Pool} {s s' : EmitState} {a : Unit}
    (h : withValues step s = .ok a s') : ∃ values, step s.values = .ok values ∧ s' = { s with values } := by
  rw [withValues_apply] at h
  cases hp : step s.values with
  | error c =>
    rw [hp] at h
    cases h
  | ok values =>
    rw [hp] at h
    cases h
    exact ⟨values, rfl, rfl⟩

theorem withRefs_apply (step : Pool → Except EmitCause Pool) (s : EmitState) : withRefs step s =
    (match step s.refs with
      | .ok refs => modify fun s => { s with refs }
      | .error c => fatal 0 c : EmitM Unit) s := rfl

theorem withRefs_ok {step : Pool → Except EmitCause Pool} {s s' : EmitState} {a : Unit}
    (h : withRefs step s = .ok a s') : ∃ refs, step s.refs = .ok refs ∧ s' = { s with refs } := by
  rw [withRefs_apply] at h
  cases hp : step s.refs with
  | error c =>
    rw [hp] at h
    cases h
  | ok refs =>
    rw [hp] at h
    cases h
    exact ⟨refs, rfl, rfl⟩

end Emit

namespace Pool

variable {p q : Pool} {i : Nat}

theorem acquire?_eq_some {o : Operand} (h : p.acquire? = some (o, q)) :
    ∃ i, i < p.size ∧ p.isUsed i = false ∧ o = p.register i ∧ q = { p with used := p.used.setIfInBounds i true } := by
  unfold acquire? at h
  cases hi : p.used.findIdx? (!·) with
  | none =>
    rw [hi] at h
    cases h
  | some i =>
    rw [hi] at h
    cases h
    obtain ⟨hlt, hfree, _⟩ := Array.findIdx?_eq_some_iff_getElem.1 hi
    refine ⟨i, hlt, ?_, rfl, rfl⟩
    simpa [isUsed, Array.getD, hlt] using hfree

theorem kind_release (h : p.release i = .ok q) : q.kind = p.kind := by
  unfold release at h
  split at h
  · cases h; rfl
  · split at h <;> cases h
    rfl

theorem kind_hold (h : p.hold i = .ok q) : q.kind = p.kind := by
  unfold hold at h
  split at h <;> cases h
  rfl

theorem kind_unhold (h : p.unhold i = .ok q) : q.kind = p.kind := by
  unfold unhold at h
  split at h <;> cases h
  rfl

end Pool

namespace Emit

theorem queued_declare {s : EmitState} {fn : SymbolId} {n : Node} {name : String} (q : s.Queued)
    (hf : s.funcs.get? fn = none) (hn : s.unit.declarationOf? fn = some n) :
    EmitState.Queued { s with
      asm := (s.asm.declareFunc name n.list.length).2.2
      funcs := s.funcs.insert fn ((s.asm.declareFunc name n.list.length).1, (s.asm.declareFunc name n.list.length).2.1)
      work := s.work.push fn } := by
  refine ⟨by simp [Assembler.declareFunc, Assembler.newLabel, q.size], fun k fn' hk => ?_⟩
  simp only [Assembler.declareFunc, Assembler.newLabel, Array.getElem?_push, IdMap.get?_insert] at hk ⊢
  by_cases hlast : k = s.work.size
  · subst hlast
    simp only [if_true, Option.some.injEq] at hk
    subst hk
    refine ⟨_, by rw [q.size, if_pos rfl], by simp [q.size], n, hn, rfl⟩
  · rw [if_neg hlast] at hk
    obtain ⟨r, hr, hget, hp⟩ := q.rows k fn' hk
    have hne : fn' ≠ fn := by
      rintro rfl
      rw [hf] at hget
      cases hget
    refine ⟨r, by rw [if_neg (q.size ▸ hlast), hr], by rw [if_neg hne, hget], hp⟩

namespace Emits

theorem bind {x : EmitM α} {f : α → EmitM β} {P : α → Prop} {Q : β → Prop} (hx : Emits K x P)
    (hf : ∀ a, P a → Emits K (f a) Q) : Emits K (x >>= f) Q := by
  intro s c s' hs h
  obtain ⟨a, s₁, hxs, hfs⟩ := bind_ok h
  obtain ⟨h₁, hP⟩ := hx s a s₁ hs hxs
  obtain ⟨h₂, hQ⟩ := hf a hP s₁ c s' (h₁.over hs) hfs
  exact ⟨h₁.trans h₂, hQ⟩

theorem pure {a : α} {Q : α → Prop} (h : Q a) : Emits K (pure a) Q := by
  intro s c s' _ h
  cases h
  exact ⟨.refl s, h⟩

theorem throw {e : EmitFailure} {Q : α → Prop} : Emits K (throw e : EmitM α) Q := by
  intro s c s' _ h
  cases h

theorem fatal {id : NodeId} {cause : EmitCause} {Q : α → Prop} : Emits K (fatal id cause : EmitM α) Q := throw

theorem mono {m : EmitM α} {P Q : α → Prop} (h : Emits K m P) (hPQ : ∀ a, P a → Q a) : Emits K m Q :=
  fun s a s' hs hm => ⟨(h s a s' hs hm).1, hPQ a (h s a s' hs hm).2⟩

theorem ite {c : Prop} [Decidable c] {x y : EmitM α} {Q : α → Prop} (hx : c → Emits K x Q)
    (hy : ¬c → Emits K y Q) : Emits K (if c then x else y) Q := by
  split
  · exact hx ‹_›
  · exact hy ‹_›

theorem modify {f : EmitState → EmitState} (h : ∀ s, Over K s → Extends K.allowed K.base s (f s)) :
    Emits K (modify f) fun _ => True := by
  intro s a s' hs hm
  cases hm
  exact ⟨h s hs, trivial⟩

theorem modifyGet {f : EmitState → α × EmitState} {Q : α → Prop}
    (h : ∀ s, Over K s → Extends K.allowed K.base s (f s).2 ∧ Q (f s).1) : Emits K (modifyGet f) Q := by
  intro s a s' hs hm
  cases hm
  exact h s hs

theorem get_bind {f : EmitState → EmitM β} {Q : β → Prop} (h : ∀ s, Over K s → Emits K (f s) Q) :
    Emits K (get >>= f) Q :=
  fun s c s' hs hm => h s hs s c s' hs hm

theorem forM {f : α → EmitM PUnit} (l : List α) (h : ∀ a ∈ l, Emits K (f a) fun _ => True) :
    Emits K (l.forM f) fun _ => True := by
  induction l with
  | nil => exact .pure trivial
  | cons a l ih =>
    exact .bind (h a (List.mem_cons_self ..)) fun _ _ => ih fun x hx => h x (List.mem_cons_of_mem _ hx)

theorem mapM {f : α → EmitM β} {Q : β → Prop} (l : List α) (h : ∀ a ∈ l, Emits K (f a) Q) :
    Emits K (l.mapM f) fun bs => ∀ x ∈ bs, Q x := by
  induction l with
  | nil => exact .pure nofun
  | cons a l ih =>
    rw [List.mapM_cons]
    refine .bind (h a (List.mem_cons_self ..)) fun x hx => ?_
    refine .bind (ih fun y hy => h y (List.mem_cons_of_mem _ hy)) fun xs hxs => .pure ?_
    exact List.forall_mem_cons.2 ⟨hx, hxs⟩

theorem foldlM {f : β → α → EmitM β} (l : List α) (h : ∀ c, ∀ a ∈ l, Emits K (f c a) fun _ => True) :
    ∀ c, Emits K (l.foldlM f c) fun _ => True := by
  induction l with
  | nil => exact fun c => .pure trivial
  | cons a l ih =>
    intro c
    refine .bind (h c a (List.mem_cons_self ..)) fun c' _ => ?_
    exact ih (fun c x hx => h c x (List.mem_cons_of_mem _ hx)) c'

/-! ### Looking things up -/

theorem unit : Emits K unit fun r => r = K.unit := .get_bind fun _ hs => .pure hs.unit

theorem node (id : NodeId) : Emits K (node id) fun n => K.unit.tree.get? id = some n := by
  refine .bind unit fun r hr => ?_
  subst hr
  split
  · exact .pure ‹_›
  · exact .fatal

theorem kindOf (id : NodeId) : Emits K (kindOf id) fun k => K.unit.tree.kind id = k :=
  .bind unit fun _ hr => .pure (by rw [hr])

theorem symbol (id : SymbolId) : Emits K (symbol id) fun s => K.unit.scopes.symbol? id = some s := by
  refine .bind unit fun r hr => ?_
  subst hr
  split
  · exact .pure ‹_›
  · exact .throw

theorem declaration (s : Symbol) : Emits K (declaration s) fun n => K.unit.tree.get? s.decl = some n := by
  refine .bind unit fun r hr => ?_
  subst hr
  split
  · exact .pure ‹_›
  · exact .throw

theorem funcScope (fn : SymbolId) : Emits K (funcScope fn) fun sc => K.unit.bodyScope? fn = some sc := by
  intro s sc s' hs h
  obtain ⟨hsc, rfl⟩ := funcScope_ok h
  exact ⟨.refl _, by rw [← hs.unit, hsc]⟩

theorem typeInfo (id : TypeId) : Emits K (typeInfo id) fun t => K.unit.types.lookup? id = some t := by
  refine .bind unit fun r hr => ?_
  subst hr
  split
  · exact .pure ‹_›
  · exact .throw

theorem typeKind (id : TypeId) : Emits K (typeKind id) fun _ => True := .bind unit fun _ _ => .pure trivial

theorem isResolved (id : TypeId) : Emits K (isResolved id) fun r => r = K.unit.types.isResolved id :=
  .bind unit fun _ hr => .pure (by rw [hr])

/-! ### Instructions and labels -/

theorem emit {i : Instr} (ha : Plain K.allowed i.a) (hb : Plain K.allowed i.b) (hc : Plain K.allowed i.c) :
    Emits K (emit i) fun _ => True := by
  have h : ∀ o ∈ i.operands, o.kind = .stack → K.allowed o := by
    intro o ho
    simp only [Instr.operands, List.mem_cons, List.not_mem_nil, or_false] at ho
    rcases ho with rfl | rfl | rfl
    · exact ha
    · exact hb
    · exact hc
  refine .modify fun s _ => ?_
  exact
    { Extends.refl (A := K.allowed) (b := K.base) s with
      code := ⟨[i], by simp [Assembler.emit], by
        simp only [List.mem_singleton, forall_eq]
        exact fun o ho hk => .inl (h o ho hk)⟩
      queued := fun q => ⟨q.size, q.rows⟩ }

theorem note (span : Span) : Emits K (note span) fun _ => True :=
  .modify fun _ _ => .quiet rfl rfl rfl rfl (Nat.le_refl _) rfl rfl rfl rfl rfl rfl rfl rfl

/-- A new label is none of the older ones. -/
theorem newLabel : Emits K newLabel fun l => K.base ≤ l := by
  refine .modifyGet fun s hs => ⟨?_, hs.labels⟩
  exact
    { Extends.refl (A := K.allowed) (b := K.base) s with
      size := by simp [Assembler.newLabel]
      labels := fun l hl => by
        have hlt : l < s.asm.labels.size := Nat.lt_of_lt_of_le hl hs.labels
        simp [Assembler.newLabel, Array.getElem?_push, Nat.ne_of_lt hlt]
      queued := fun q => ⟨q.size, q.rows⟩ }

theorem bindLabel {l : Label} (hl : K.base ≤ l) : Emits K (bindLabel l) fun _ => True := by
  intro s a s' _ h
  obtain ⟨_, _, rfl⟩ := bindLabel_ok h
  refine ⟨?_, trivial⟩
  exact
    { Extends.refl (A := K.allowed) (b := K.base) s with
      size := by simp
      labels := fun k hk => by
        have hne : l ≠ k := Nat.ne_of_gt (Nat.lt_of_lt_of_le hk hl)
        simp [Array.getElem?_setIfInBounds_ne hne]
      bound := ⟨[l], by simp, by simpa using hl⟩
      queued := fun q => ⟨q.size, q.rows⟩ }

theorem stringRef (text : String) : Emits K (stringRef text) fun o => o.kind = .text := by
  refine .modifyGet fun s _ => ?_
  dsimp only [Assembler.addString]
  cases s.asm.strings.findIdx? (· == text) with
  | some i => exact ⟨.quiet rfl rfl rfl rfl (Nat.le_refl _) rfl rfl rfl rfl rfl rfl rfl rfl, rfl⟩
  | none => exact ⟨.quiet rfl rfl rfl rfl (Nat.le_refl _) rfl rfl rfl rfl rfl rfl rfl rfl, rfl⟩

/-! ### Registers and spill slots -/

theorem isValue (t : TypeId) : Emits K (isValue t) fun _ => True := by
  refine .bind (typeKind t) fun k _ => ?_
  split <;> exact .pure trivial

theorem acquireValue (id : NodeId) : Emits K (acquireValue id) fun o => o.kind = .value := by
  intro s o s' hs h
  obtain ⟨values, hp, rfl⟩ := acquireValue_ok h
  obtain ⟨i, _, _, rfl, rfl⟩ := Pool.acquire?_eq_some hp
  exact ⟨.quiet rfl rfl rfl rfl (Nat.le_refl _) rfl rfl rfl rfl rfl rfl rfl rfl, hs.values⟩

theorem acquireRef (id : NodeId) : Emits K (acquireRef id) fun o => o.kind = .ref := by
  intro s o s' hs h
  obtain ⟨refs, hp, rfl⟩ := acquireRef_ok h
  obtain ⟨i, _, _, rfl, rfl⟩ := Pool.acquire?_eq_some hp
  exact ⟨.quiet rfl rfl rfl rfl (Nat.le_refl _) rfl rfl rfl rfl rfl rfl rfl rfl, hs.refs⟩

theorem withValues {step : Pool → Except EmitCause Pool} (h : ∀ p q, step p = .ok q → q.kind = p.kind) :
    Emits K (withValues step) fun _ => True := by
  intro s a s' _ hm
  obtain ⟨values, hp, rfl⟩ := withValues_ok hm
  exact ⟨.quiet rfl rfl rfl rfl (Nat.le_refl _) (h _ _ hp) rfl rfl rfl rfl rfl rfl rfl, trivial⟩

theorem withRefs {step : Pool → Except EmitCause Pool} (h : ∀ p q, step p = .ok q → q.kind = p.kind) :
    Emits K (withRefs step) fun _ => True := by
  intro s a s' _ hm
  obtain ⟨refs, hp, rfl⟩ := withRefs_ok hm
  exact ⟨.quiet rfl rfl rfl rfl (Nat.le_refl _) rfl (h _ _ hp) rfl rfl rfl rfl rfl rfl, trivial⟩

theorem free (o : Operand) : Emits K (free o) fun _ => True := by
  unfold Emit.free
  split
  · exact .withValues fun _ _ => Pool.kind_release
  · exact .withRefs fun _ _ => Pool.kind_release
  · exact .pure trivial

theorem plain_of_register {A : Operand → Prop} {o : Operand} (h : o.kind = .value ∨ o.kind = .ref) : Plain A o := by
  intro hk
  rcases h with h | h <;> rw [h] at hk <;> cases hk

theorem toRegister {o : Operand} (ho : Plain K.allowed o) (t : TypeId) (id : NodeId) :
    Emits K (toRegister o t id) fun r => r.kind = .value ∨ r.kind = .ref := by
  have copy (r : Operand) (hr : r.kind = .value ∨ r.kind = .ref) :
      Emits K (do Emit.emit { op := .mov, a := r, b := o }; Pure.pure r) fun r => r.kind = .value ∨ r.kind = .ref :=
    .bind (.emit (plain_of_register hr) ho nofun) fun _ _ => .pure hr
  unfold Emit.toRegister
  split
  · exact .pure (.inl ‹_›)
  · exact .pure (.inr ‹_›)
  · exact .fatal
  · refine .bind (isValue t) fun v _ => ?_
    cases v
    · exact .bind (acquireRef id) fun r hr => copy r (.inr hr)
    · exact .bind (acquireValue id) fun r hr => copy r (.inl hr)

theorem stable {o : Operand} (ho : Plain K.allowed o) (t : TypeId) (id : NodeId) : Emits K (stable o t id) (Plain K.allowed) := by
  unfold Emit.stable
  exact .ite (fun _ => (toRegister ho t id).mono fun _ => plain_of_register) fun _ => .pure ho

theorem move {dst src : Operand} (hd : Plain K.allowed dst) (hs : Plain K.allowed src) : Emits K (move dst src) fun _ => True := by
  unfold Emit.move
  exact .ite (fun _ => .bind (.emit hd hs nofun) fun _ _ => free src) fun _ => free src

theorem pushOperand {o : Operand} (ho : Plain K.allowed o) : Emits K (pushOperand o) fun _ => True :=
  .bind (.emit ho nofun nofun) fun _ _ => free o

theorem unspill (n : Nat) : Emits K (unspill n) fun _ => True :=
  .modify fun _ _ => .quiet rfl rfl rfl rfl (Nat.le_refl _) rfl rfl rfl rfl rfl rfl rfl rfl

/-! ### Tables -/

theorem funcName (fn : SymbolId) : Emits K (funcName fn) fun _ => True :=
  .bind unit fun _ _ => .bind (symbol fn) fun _ _ => .pure trivial

theorem nativeRef (fn : SymbolId) : Emits K (nativeRef fn) fun _ => True := by
  refine .get_bind fun s _ => ?_
  split
  · exact .pure trivial
  · refine .bind (symbol fn) fun sym _ => .bind unit fun r _ => .bind (declaration sym) fun n _ => ?_
    exact .modifyGet fun _ _ => ⟨.quiet rfl rfl rfl rfl (Nat.le_refl _) rfl rfl rfl rfl rfl rfl rfl rfl, trivial⟩

theorem typeRef (t : TypeId) : Emits K (typeRef t) fun _ => True := by
  refine .get_bind fun s _ => ?_
  split
  · exact .pure trivial
  · refine .bind (typeInfo t) fun ty _ => .bind unit fun r _ => .modifyGet fun s _ => ⟨?_, trivial⟩
    dsimp only [Assembler.addType]
    split <;> exact .quiet rfl rfl rfl rfl (Nat.le_refl _) rfl rfl rfl rfl rfl rfl rfl rfl

/-- A function that is referenced for the first time gets the next row and the next place in the queue. -/
theorem funcRef (fn : SymbolId) : Emits K (funcRef fn) fun _ => True := by
  intro s k s' hs hrun
  obtain ⟨s₀, _, hget, hcase⟩ := bind_ok hrun
  cases hget
  cases hf : s.funcs.get? fn with
  | some p =>
    rw [hf] at hcase
    cases hcase
    exact ⟨.refl _, trivial⟩
  | none =>
    rw [hf] at hcase
    obtain ⟨sym, s₁, hsym, hrest⟩ := bind_ok hcase
    obtain ⟨n, s₂, hn, hrest'⟩ := bind_ok hrest
    obtain ⟨name, s₃, hname, h⟩ := bind_ok hrest'
    obtain ⟨hsym, rfl⟩ := symbol_ok hsym
    obtain ⟨hn, rfl⟩ := declaration_ok hn
    obtain rfl := reads_funcName fn _ _ _ hname
    have hdecl : s₃.unit.declarationOf? fn = some n := by
      rw [AnalysisResult.declarationOf?, hsym]
      exact hn
    cases h
    refine ⟨?_, trivial⟩
    exact
      { Extends.refl (A := K.allowed) (b := K.base) s₃ with
        size := by simp
        labels := fun l hl => by
          have hlt : l < s₃.asm.labels.size := Nat.lt_of_lt_of_le hl hs.labels
          simp [Array.getElem?_push, Nat.ne_of_lt hlt]
        queued := fun q => queued_declare q hf hdecl
        rows := ⟨_, by simp; rfl⟩
        work := ⟨_, by simp; rfl⟩ }

end Emits

/-- The operand of a variable in a frame with that many captures. -/
def slotOf? (captures : Nat) : Storage → Option Operand
  | .global slot => some (.global slot)
  | .frame off => some (.stack (if 0 < off then off + captures else off))
  | .captured i => some (.stack (2 + i))
  | .none => none

theorem Emits.storage (id : SymbolId) : Emits K (storage id) fun o =>
    ∃ sym, K.unit.scopes.symbol? id = some sym ∧ slotOf? K.captures sym.storage = some o := by
  refine .bind (symbol id) fun sym hsym => .get_bind fun s hs => ?_
  rw [hs.captures]
  split
  all_goals rename_i h
  · exact .pure ⟨sym, hsym, by rw [h]; rfl⟩
  · exact .pure ⟨sym, hsym, by rw [h]; rfl⟩
  · exact .pure ⟨sym, hsym, by rw [h]; rfl⟩
  · exact .bind unit fun _ _ => .fatal

end Emit

end TreeCompiler
