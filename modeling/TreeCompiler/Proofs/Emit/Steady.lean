import TreeCompiler.Proofs.Emit.Keep

/-!
# Values keep the registers of their callers

Emitting a value writes to no register that was in use before, except between the save and the restore around a call. To
variables it writes only where it assigns or calls.

* `Steady K rec p` : the emitter `rec` keeps when it emits the place `p`;
* `Stores` : a place that comes to an assignment or a call, also through the defaults of fields;
* `emitter_steady` : emission keeps, and where it is watched for calm it must not come to a store.
-/

namespace TreeCompiler.Emit

variable {K : Watch} {H : Operand → Prop} {rec : Emitter}

def Steady (K : Watch) (rec : Emitter) : Place → Prop
  | .expr id => (∀ captures base, Good (Guards.anywhere K.unit captures base) rec (.expr id)) ∧
      ∀ H inRegister, Guards K H Any (rec.expr id inRegister) fun o values refs =>
        Own H o ∧ (inRegister = true → o.isScratch = true) ∧ Live values refs o
  | .stmt _ => True
  | .zero t => ∀ H at', Guards K H Any (rec.zero at' t) fun o _ _ => Own H o

theorem Own.of_also {o x : Operand} (h : Own (Also H o) x) : Own H x ∧ (x.isScratch = true → x ≠ o) :=
  ⟨⟨fun hs => ⟨(h.spared hs).1, fun hH => (h.spared hs).2 (.inl hH)⟩, h.counted⟩,
    fun hs hx => (h.spared hs).2 (.inr hx)⟩

theorem Own.also {o x : Operand} (h : Own H x) (hne : x.isScratch = true → x ≠ o) : Own (Also H o) x :=
  ⟨fun hs => ⟨(h.spared hs).1, fun ho => ho.elim (h.spared hs).2 (hne hs)⟩, h.counted⟩

/-- Results that are none of the registers `H` and all different. -/
structure Owned (H : Operand → Prop) (os : List Operand) (values refs : Pool) : Prop where
  own : ∀ o ∈ os, Own H o
  live : ∀ o ∈ os, Live values refs o
  apart : os.Pairwise fun x y => y.isScratch = true → y ≠ x

theorem Owned.cons {o : Operand} {os : List Operand} {values refs : Pool} (ho : Own H o) (hl : Live values refs o)
    (h : Owned (Also H o) os values refs) : Owned H (o :: os) values refs where
  own := List.forall_mem_cons.2 ⟨ho, fun x hx => (h.own x hx).of_also.1⟩
  live := List.forall_mem_cons.2 ⟨hl, h.live⟩
  apart := List.pairwise_cons.2 ⟨fun x hx => (h.own x hx).of_also.2, h.apart⟩

theorem not_variable_of_scratch {o : Operand} (h : o.isScratch = true) : o.isVariable = false := by
  simp only [Operand.isScratch, Bool.or_eq_true, decide_eq_true_eq] at h
  rcases h with h | h <;> simp [Operand.isVariable, h]

theorem calm_of_writes {o : Opcode} (h : o.writesAccumulator = true) : o.isCalm = true := by
  rw [Opcode.isCalm, h, Bool.true_or]

namespace Guards

theorem exprAny {id : NodeId} (h : Steady K rec (.expr id)) :
    Guards K H Any (exprAny rec id) fun o values refs => Own H o ∧ Live values refs o :=
  (h.2 H false).mono (fun _ _ h => h) fun _ _ _ h => ⟨h.1, h.2.2⟩

theorem push {id : NodeId} (h : Steady K rec (.expr id)) : Guards K H Any (push rec id) fun _ => Any :=
  .bind (exprAny h) fun _ => .pull fun ho => pushOperand ho

theorem pushAll {ids : List NodeId} (h : ∀ id ∈ ids, Steady K rec (.expr id)) :
    Guards K H Any (pushAll rec ids) fun _ => Any :=
  .forM ids fun id hid => push (h id hid)

section

variable {α : Type} {P : Pool → Pool → Prop} {Q : α → Pool → Pool → Prop}

theorem node {f : Node → EmitM α} {id : NodeId} (h : ∀ n, K.unit.tree.get? id = some n → Guards K H P (f n) Q) :
    Guards K H P (Emit.node id >>= f) Q :=
  .look (F := fun n => K.unit.tree.get? id = some n) (.node id) (fun _ _ => Emits.node id) h

theorem typeInfo {f : Ty → EmitM α} {t : TypeId} (h : ∀ ty, K.unit.types.lookup? t = some ty → Guards K H P (f ty) Q) :
    Guards K H P (Emit.typeInfo t >>= f) Q :=
  .look (F := fun ty => K.unit.types.lookup? t = some ty) (.typeInfo t) (fun _ _ => Emits.typeInfo t) h

theorem fieldDefaults {f : List NodeId → EmitM α} {t : TypeId} (h : Guards K H P (f (K.unit.defaultsOf t)) Q) :
    Guards K H P (Emit.fieldDefaults t >>= f) Q :=
  .look (F := fun ds => ds = K.unit.defaultsOf t) (.fieldDefaults t) (fun _ _ => Emits.fieldDefaults t) fun _ hds => hds ▸ h

theorem givenFields {f : List (String × NodeId) → EmitM α} {list : List NodeId}
    (h : Guards K H P (f (K.unit.givenOf list)) Q) : Guards K H P (Emit.givenFields list >>= f) Q :=
  .look (F := fun g => g = K.unit.givenOf list) (.givenFields list) (fun _ _ => Emits.givenFields list) fun _ hg => hg ▸ h

theorem binaryCode {f : Opcode → EmitM α} {at' : NodeId} {op : Operator} {l r : NodeId}
    (h : ∀ code : Opcode, code.isCalm = true → Guards K H P (f code) Q) : Guards K H P (Emit.binaryCode at' op l r >>= f) Q :=
  .look (.binaryCode at' op l r) (fun _ _ => Emits.binaryCode) fun code hcode => h code (calm_of_writes hcode)

end

/-! ## Operands -/

theorem evaluate {id : NodeId} (h : Steady K rec (.expr id)) (forced later : Bool) :
    Guards K H Any (evaluate rec id forced later) fun e values refs =>
      Own H e.op ∧ (forced = true → e.op.isScratch = true) ∧ (later = true → e.op.isVariable = false) ∧
        Live values refs e.op := by
  have done (op : Operand) (ho : Own H op) (hf : forced = true → op.isScratch = true)
      (hl : later = true → op.isVariable = false) : Guards K H (fun values refs => Live values refs op) (do
      let s ← MonadState.get
      Pure.pure { op, accumulatorWrites := s.accumulatorWrites, returnWrites := s.returnWrites : Evaluated })
      fun e values refs => Own H e.op ∧ (forced = true → e.op.isScratch = true) ∧
        (later = true → e.op.isVariable = false) ∧ Live values refs e.op :=
    .bind (.quiet .get) fun s => .pure fun values refs hlive => ⟨ho, hf, hl, hlive⟩
  unfold Emit.evaluate
  refine .bind (h.2 H forced) fun op => .pull fun ho => .pull fun hf => ?_
  refine .ite (fun _ => ?_) fun hv => done op ho hf fun hl => ?_
  · refine .bind (.quiet (.node id)) fun n => .bind (toRegister ho _ id) fun x => .pull fun hx => .pull fun hs => ?_
    exact (done x hx (fun _ => hs) fun _ => not_variable_of_scratch hs).mono (fun _ _ => live_of_copy) fun _ _ _ h => h
  · rw [hl, Bool.true_and] at hv
    exact Bool.eq_false_iff.2 hv

theorem evaluateAll {items : List (NodeId × Bool × Bool)} (h : ∀ x ∈ items, Steady K rec (.expr x.1)) :
    Guards K H Any (evaluateAll rec items) fun es values refs => Owned H (es.map (·.op)) values refs := by
  induction items generalizing H with
  | nil => exact .pure fun _ _ _ => ⟨nofun, nofun, .nil⟩
  | cons x rest ih =>
    refine .bind (evaluate (h x (List.mem_cons_self ..)) _ _) fun e => .pull fun ho => .pull fun _ => .pull fun _ => ?_
    have hrest := (ih (H := Also H e.op) fun y hy => h y (List.mem_cons_of_mem _ hy)).frame
    refine .bind (hrest.mono (fun _ _ hl => ⟨trivial, hl⟩) fun _ _ _ h => h) fun es => .pure fun values refs hes => ?_
    exact .cons ho hes.2 hes.1

end Guards

theorem rewind_code {s s₁ s₂ : EmitState} {m : Mark} {a : Unit} (h : s.asm.Continues s₁.asm) (hm : mark s = .ok m s)
    (hr : rewind m s₁ = .ok a s₂) : s₂.asm.code = s.asm.code := by
  obtain ⟨is, his⟩ := h.code
  cases hm
  cases hr
  refine Array.toList_inj.1 ?_
  simp [Assembler.rewind, Assembler.mark, Assembler.pos, his]

/-- A rewind gives the registers back as they were and leaves no code. -/
theorem Keeps.rewind {s s₁ s₂ : EmitState} {m : Mark} {a : Unit} (h : Keeps K H s s₁)
    (he : Extends (fun _ => True) s.asm.labels.size s s₁) (hm : mark s = .ok m s) (hr : rewind m s₁ = .ok a s₂) :
    Keeps K H s s₂ := by
  have hlabels := (he.rewind hm hr).labelsStay
  have hcode := rewind_code h.asm hm hr
  cases hm
  cases hr
  refine
    { unit := h.unit, locals := h.locals, values := rfl, refs := rfl, live := fun _ _ hl => hl
      asm := ⟨⟨[], by rw [hcode, List.append_nil]⟩, hlabels⟩
      accumulator := h.accumulator
      returned := h.returned
      safe := fun a ha o _ => ?_ }
  rw [Assembler.pos, Assembler.pos, hcode]
  exact .refl

theorem Steady.extends {items : List (NodeId × Bool × Bool)} (h : ∀ x ∈ items, Steady K rec (.expr x.1))
    {s s₁ : EmitState} {es : List Evaluated} (hs : Ready K H s) (hv : evaluateAll rec items s = .ok es s₁) :
    Extends (fun _ => True) s.asm.labels.size s s₁ :=
  (Emits.evaluateAll (fun x hx => (h x hx).1 s.frame.captures s.asm.labels.size) s es s₁ (Guards.over_anywhere hs) hv).1

namespace Guards

theorem operandsAux {ids : List NodeId} (h : ∀ id ∈ ids, Steady K rec (.expr id)) (storing : List Bool) (fuel : Nat) :
    ∀ forced, Guards K H Any (operandsAux rec ids storing fuel forced) fun os => Owned H os := by
  induction fuel with
  | zero => exact fun _ => .throw
  | succ fuel ih =>
    intro forced s os s' hs _ hrun
    obtain ⟨m, s₀, hm, hrun₁⟩ := bind_ok hrun
    have hs₀ : s₀ = s := by cases hm; rfl
    subst hs₀
    obtain ⟨values, s₁, hv, hrun₂⟩ := bind_ok hrun₁
    have hitems : ∀ x ∈ ids.zip (forced.zip storing), Steady K rec (.expr x.1) := fun x hx => h x.1 (List.of_mem_zip hx).1
    obtain ⟨h₁, hvalues⟩ := evaluateAll hitems _ _ _ hs trivial hv
    obtain ⟨s₂, _, hget, hrun₃⟩ := bind_ok hrun₂
    cases hget
    dsimp only at hrun₃
    by_cases hstale : (values.dropLast.map (·.isStale s₁)).any id = true
    · rw [if_pos hstale] at hrun₃
      obtain ⟨_, s₂, hr, hrun₄⟩ := bind_ok hrun₃
      have h₂ := h₁.rewind (Steady.extends hitems hs hv) hm hr
      obtain ⟨h₃, hos⟩ := ih _ _ _ _ (h₂.ready hs) trivial hrun₄
      exact ⟨h₂.trans h₃, hos⟩
    · rw [if_neg hstale] at hrun₃
      cases hrun₃
      exact ⟨h₁, hvalues⟩

theorem storesAfter_quiet (ids : List NodeId) : IsQuiet (storesAfter ids) := by
  induction ids with
  | nil => exact .pure
  | cons id rest ih =>
    cases rest with
    | nil => exact .pure
    | cons next rest =>
      unfold Emit.storesAfter
      exact .bind ih fun tail => .ite .pure (.bind (.stores next) fun _ => .pure)

theorem operands {ids : List NodeId} (h : ∀ id ∈ ids, Steady K rec (.expr id)) :
    Guards K H Any (operands rec ids) fun os => Owned H os :=
  .bind (.quiet (storesAfter_quiet ids)) fun _ => operandsAux h _ _ _

theorem operands2 {x y : NodeId} (hx : Steady K rec (.expr x)) (hy : Steady K rec (.expr y)) :
    Guards K H Any (operands2 rec x y) fun p => Owned H [p.1, p.2] := by
  refine .bind (operands (show ∀ id ∈ [x, y], Steady K rec (.expr id) by simp [hx, hy])) fun os => ?_
  split
  · exact .pure fun _ _ h => h
  · exact .throw

theorem operands3 {x y z : NodeId} (hx : Steady K rec (.expr x)) (hy : Steady K rec (.expr y))
    (hz : Steady K rec (.expr z)) : Guards K H Any (operands3 rec x y z) fun p => Owned H [p.1, p.2.1, p.2.2] := by
  refine .bind (operands (show ∀ id ∈ [x, y, z], Steady K rec (.expr id) by simp [hx, hy, hz])) fun os => ?_
  split
  · exact .pure fun _ _ h => h
  · exact .throw

/-- An instruction over two operands that are given back after it. -/
theorem consume {P : Pool → Pool → Prop} {i : Instr} {l r : Operand} (hi : i.op.isCalm = true) (hl : Own H l) (hr : Own H r) :
    Guards K H P (do
      Emit.emit i
      Emit.free l
      Emit.free r
      Pure.pure Operand.accumulator) fun o values refs => Own H o ∧ Live values refs o :=
  .bind (.emit hi) fun _ => .bind (free hl) fun _ => .bind (free hr) fun _ => .pure fun _ _ _ =>
    ⟨own_of_not_scratch rfl nofun, live_of_not_scratch rfl⟩

theorem owned2 {α : Type} {m : EmitM α} {Q : α → Pool → Pool → Prop} {l r : Operand}
    (h : Own H l → Own H r → Guards K H (Owned H [l, r]) m Q) : Guards K H (Owned H [l, r]) m Q :=
  .assume (fun _ _ ho => ho.own) fun ho => h (ho l (by simp)) (ho r (by simp))

theorem accumulator {P : Pool → Pool → Prop} :
    Guards K H P (Pure.pure Operand.accumulator) fun o values refs => Own H o ∧ Live values refs o :=
  .pure fun _ _ _ => ⟨own_of_not_scratch rfl nofun, live_of_not_scratch rfl⟩

theorem binary {id : NodeId} {n : Node} (ha : Steady K rec (.expr n.a)) (hb : Steady K rec (.expr n.b))
    (hlogical : Guards K H Any (logical rec id n) fun o values refs => Own H o ∧ Live values refs o) :
    Guards K H Any (binary rec id n) fun o values refs => Own H o ∧ Live values refs o := by
  unfold Emit.binary
  refine .ite (fun _ => hlogical) fun _ => ?_
  refine .binaryCode fun code hcode => .bind (operands2 ha hb) fun p => .owned2 fun hl hr => ?_
  exact consume hcode hl hr

theorem unary {n : Node} (ha : Steady K rec (.expr n.a)) :
    Guards K H Any (unary rec n) fun o values refs => Own H o ∧ Live values refs o := by
  unfold Emit.unary
  split
  · rename_i code hcode
    refine .bind (.quiet (.valueKind n.a)) fun k => .bind (exprAny ha) fun x => .pull fun hx => ?_
    exact .bind (.emit (calm_of_writes (Emits.writes_of_unaryCode? hcode _))) fun _ => .bind (free hx) fun _ => accumulator
  · exact .throw

/-- A result that is in no register. -/
theorem plain {P : Pool → Pool → Prop} {o : Operand} (h : o.isScratch = false) (hc : o.kind ≠ .spreadCount) :
    Guards K H P (Pure.pure o) fun o values refs => Own H o ∧ Live values refs o :=
  .pure fun _ _ _ => ⟨own_of_not_scratch h hc, live_of_not_scratch h⟩

theorem slot_kind {captures : Nat} {st : Storage} {o : Operand} (h : slotOf? captures st = some o) :
    o.kind = .global ∨ o.kind = .stack := by
  cases st <;> cases h
  · exact .inl rfl
  · exact .inr rfl
  · exact .inr rfl

theorem storage {α : Type} {P : Pool → Pool → Prop} {f : Operand → EmitM α} {Q : α → Pool → Pool → Prop} {v : SymbolId}
    (h : ∀ o : Operand, o.kind = .global ∨ o.kind = .stack → Guards K H P (f o) Q) :
    Guards K H P (Emit.storage v >>= f) Q :=
  .look (.storage v) (fun _ _ => (Emits.storage v).mono fun _ ⟨_, _, ho⟩ => slot_kind ho) h

theorem own_of_variable {values refs : Pool} {o : Operand} (h : o.kind = .global ∨ o.kind = .stack) :
    Own H o ∧ Live values refs o := by
  have hs : o.isScratch = false := by rcases h with h | h <;> simp [Operand.isScratch, h]
  refine ⟨own_of_not_scratch hs ?_, live_of_not_scratch hs⟩
  rcases h with h | h <;> rw [h] <;> rintro ⟨⟩

theorem name {id : NodeId} {n : Node} : Guards K H Any (name id n) fun o values refs => Own H o ∧ Live values refs o := by
  refine .bind (.quiet (.binding id)) fun v => .bind (.quiet (.symbol v)) fun sym => ?_
  split
  · rw [← bind_pure (Emit.storage v)]
    exact .storage fun o ho => .pure fun _ _ _ => own_of_variable ho
  · refine .ite (fun _ => .bind (.quiet (.nativeRef v)) fun _ => plain rfl nofun) fun _ => ?_
    exact .bind (.quiet (.funcRef v)) fun _ => plain rfl nofun
  · exact .bind (.quiet (.typeRef _)) fun t => .bind (.emit rfl) fun _ => accumulator
  · exact .throw

theorem literal {id : NodeId} : Guards K H Any (literal id) fun o values refs => Own H o ∧ Live values refs o := by
  refine .bind (.quiet .unit) fun r => ?_
  split
  · rename_i fn hfn
    refine .bind (.quiet (.funcRef fn)) fun index => .bind (.quiet (.funcScope fn)) fun sc => ?_
    refine .ite (fun _ => plain rfl (by rintro ⟨⟩)) fun _ => ?_
    refine .bind (.forM _ fun p _ => .storage fun o _ => .emit rfl) fun _ => ?_
    exact .bind (.emit rfl) fun _ => accumulator
  · exact .throw

/-! ## Assignments -/

theorem dest_of_variable {o : Operand} (h : o.kind = .global ∨ o.kind = .stack) (hc : ¬K.calm o) : Dest K H o := by
  unfold Dest
  rcases h with h | h <;> rw [h] <;> exact hc

theorem assignName {id : NodeId} {n : Node} (hc : ∀ o, ¬K.calm o) (ha : n.op ≠ .none → Steady K rec (.expr n.a))
    (hb : Steady K rec (.expr n.b)) :
    Guards K H Any (assignName rec id n) fun o values refs => Own H o ∧ Live values refs o := by
  refine .bind (.quiet (.binding n.a)) fun v => .storage fun dst hdst => ?_
  have done {P : Pool → Pool → Prop} : Guards K H P (Pure.pure dst) fun o values refs => Own H o ∧ Live values refs o :=
    .pure fun _ _ _ => own_of_variable hdst
  refine .ite (fun _ => ?_) fun hop => ?_
  · refine .bind (exprAny hb) fun x => .pull fun hx => ?_
    exact .bind (move (dest_of_variable hdst (hc _)) hx) fun _ => done
  · refine .bind (operands2 (ha hop) hb) fun p => .owned2 fun hl hr => ?_
    refine .binaryCode fun code hcode => .bind (.emit hcode) fun _ => .bind (free hl) fun _ => .bind (free hr) fun _ => ?_
    exact .bind (move (dest_of_variable hdst (hc _)) (own_of_not_scratch rfl nofun)) fun _ => done

theorem combine {P : Pool → Pool → Prop} {id : NodeId} {n : Node} {value : Operand} (hv : Own H value) :
    Guards K H P (combine id n value) fun o _ _ => o = .accumulator :=
  .binaryCode fun _ hcode => .bind (.emit hcode) fun _ => .bind (free hv) fun _ => .pure fun _ _ _ => rfl

/-- The last operand is the result; it is kept while the others are given back. -/
theorem giveBack {P : Pool → Pool → Prop} {m : EmitM Operand} {v : Operand} (hv : Own H v)
    (hP : ∀ values refs, P values refs → Live values refs v) (h : Guards K (Also H v) Any m fun o _ _ => o = v) :
    Guards K H P m fun o values refs => Own H o ∧ Live values refs o := by
  refine h.frame.mono (fun _ _ hp => ⟨trivial, hP _ _ hp⟩) fun o _ _ ho => ?_
  obtain ⟨rfl, hl⟩ := ho
  exact ⟨hv, hl⟩

theorem assignElement {id : NodeId} {n tn : Node} (hx : Steady K rec (.expr tn.a)) (hk : Steady K rec (.expr tn.b))
    (hv : Steady K rec (.expr n.b)) :
    Guards K H Any (assignElement rec id n tn) fun o values refs => Own H o ∧ Live values refs o := by
  refine .bind (operands3 hx hk hv) fun p => ?_
  obtain ⟨x, k, v⟩ := p
  refine .assume (fun _ _ ho => And.intro ho.own ho.apart) fun ⟨hown, hapart⟩ => ?_
  simp only [List.pairwise_cons, List.mem_cons, List.not_mem_nil, or_false, forall_eq_or_imp, forall_eq] at hown hapart
  obtain ⟨hx, hk, hv⟩ := hown
  refine .ite (fun _ => ?_) fun _ => ?_
  · refine giveBack hv (fun _ _ ho => ho.live v (by simp)) ?_
    refine .bind (.emit rfl) fun _ => .bind (free (hx.also fun hs h => ?_)) fun _ => ?_
    · exact hapart.1.2 (h ▸ hs) h.symm
    · exact .bind (free (hk.also fun hs h => hapart.2.1 (h ▸ hs) h.symm)) fun _ => .pure fun _ _ _ => rfl
  · refine .bind (.quiet (.node tn.a)) fun _ => .bind (stable hx _ id) fun x => .pull fun hx => ?_
    refine .bind (.quiet (.node tn.b)) fun _ => .bind (stable hk _ id) fun k => .pull fun hk => ?_
    refine .bind (.quiet (.node n.b)) fun _ => .bind (stable hv _ id) fun v => .pull fun hv => ?_
    refine .bind (.emit rfl) fun _ => .bind (combine hv) fun v => .assume (fun _ _ h => h) fun hacc => ?_
    subst hacc
    exact .bind (.emit rfl) fun _ => .bind (free hx) fun _ => .bind (free hk) fun _ => accumulator

theorem assignMember {id : NodeId} {n tn : Node} (hx : Steady K rec (.expr tn.a)) (hv : Steady K rec (.expr n.b)) :
    Guards K H Any (assignMember rec id n tn) fun o values refs => Own H o ∧ Live values refs o := by
  refine .bind (operands2 hx hv) fun p => ?_
  obtain ⟨x, v⟩ := p
  refine .assume (fun _ _ ho => And.intro ho.own ho.apart) fun ⟨hown, hapart⟩ => ?_
  simp only [List.pairwise_cons, List.mem_cons, List.not_mem_nil, or_false, forall_eq_or_imp, forall_eq] at hown hapart
  obtain ⟨hx, hv⟩ := hown
  refine .bind (.quiet (.fieldOperand n.a tn)) fun f => .ite (fun _ => ?_) fun _ => ?_
  · refine giveBack hv (fun _ _ ho => ho.live v (by simp)) ?_
    refine .bind (.emit rfl) fun _ => .bind (free (hx.also fun hs h => ?_)) fun _ => .pure fun _ _ _ => rfl
    exact hapart.1 (h ▸ hs) h.symm
  · refine .bind (.quiet (.node tn.a)) fun _ => .bind (stable hx _ id) fun x => .pull fun hx => ?_
    refine .bind (.quiet (.node n.b)) fun _ => .bind (stable hv _ id) fun v => .pull fun hv => ?_
    refine .bind (.emit rfl) fun _ => .bind (combine hv) fun v => .assume (fun _ _ h => h) fun hacc => ?_
    subst hacc
    exact .bind (.emit rfl) fun _ => .bind (free hx) fun _ => accumulator

theorem assign {id : NodeId} {n : Node} (hc : ∀ o, ¬K.calm o) (hparts : ∀ p ∈ K.unit.assignParts n, Steady K rec p) :
    Guards K H Any (assign rec id n) fun o values refs => Own H o ∧ Live values refs o := by
  refine .node fun tn htn => ?_
  rw [AnalysisResult.assignParts, htn] at hparts
  split
  all_goals rename_i hk
  · simp only [hk] at hparts
    refine assignName hc (fun hop => hparts _ (by simp [hop])) (hparts _ ?_)
    split <;> simp
  · simp only [hk] at hparts
    exact assignElement (hparts _ (by simp)) (hparts _ (by simp)) (hparts _ (by simp))
  · simp only [hk] at hparts
    exact assignMember (hparts _ (by simp)) (hparts _ (by simp))
  · exact .throw

/-! ## Structs and zero values -/

theorem makeStruct {at' : NodeId} {t : TypeId} {given : List (String × NodeId)}
    (h : ∀ p ∈ K.unit.structParts t given, Steady K rec p) :
    Guards K H Any (makeStruct rec at' t given) fun o values refs => Own H o ∧ Live values refs o := by
  refine .typeInfo fun ty hty => .fieldDefaults ?_
  refine .bind (.forIn _ fun p hp => ?_) fun _ => .bind (.quiet (.typeRef t)) fun _ => .bind (.emit rfl) fun _ => accumulator
  have hpart : Steady K rec (K.unit.fieldPart t given p.1 p.2) := by
    refine h _ ?_
    rw [AnalysisResult.structParts, hty]
    exact List.mem_map.2 ⟨p, hp, rfl⟩
  have done {P : Pool → Pool → Prop} : Guards K H P (Pure.pure (ForInStep.yield PUnit.unit)) fun _ => Any :=
    .pure fun _ _ _ => trivial
  unfold AnalysisResult.fieldPart at hpart
  dsimp only
  split
  all_goals simp only [*] at hpart
  · exact .bind (push hpart) fun _ => done
  · exact .bind (hpart H at') fun o => .assume (fun _ _ h => h) fun ho => .bind (pushOperand ho) fun _ => done
  · exact .bind (push hpart) fun _ => done

theorem zeroStep {at' : NodeId} {t : TypeId} (h : ∀ p ∈ K.unit.zeroParts t, Steady K rec p) :
    Guards K H Any (zeroStep rec at' t) fun o _ _ => Own H o := by
  have value {m : EmitM Operand} (hm : Guards K H Any m fun o values refs => Own H o ∧ Live values refs o) :
      Guards K H Any m fun o _ _ => Own H o := hm.mono (fun _ _ h => h) fun _ _ _ h => h.1
  refine .typeInfo fun ty hty => ?_
  rw [AnalysisResult.zeroParts, hty] at h
  split
  all_goals rename_i hshape
  case h_3 =>
    rw [← bind_pure (Emit.stringRef "")]
    refine value (.look (.stringRef "") (fun _ _ => Emits.stringRef "") fun o ho => ?_)
    exact plain (by simp [Operand.isScratch, ho]) (by rw [ho]; rintro ⟨⟩)
  case h_6 =>
    simp only [hshape] at h
    refine .bind (.forM _ fun e he => ?_) fun _ => value (.bind (.emit rfl) fun _ => accumulator)
    exact .bind (h _ (List.mem_map_of_mem he) H at') fun o => .assume (fun _ _ ho => ho) fun ho => pushOperand ho
  case h_7 =>
    simp only [hshape] at h
    exact value (makeStruct h)
  case h_4 => exact value (.bind (.emit rfl) fun _ => accumulator)
  case h_5 => exact value (.bind (.emit rfl) fun _ => accumulator)
  all_goals exact value (plain rfl (by rintro ⟨⟩))

theorem cast {id : NodeId} {n : Node} (ha : Steady K rec (.expr n.a)) :
    Guards K H Any (cast rec id n) fun o values refs => Own H o ∧ Live values refs o := by
  refine .bind (exprAny ha) fun v => .pull fun hv => ?_
  refine .bind (.quiet (.valueKind n.a)) fun source => .bind (.quiet (.typeKind _)) fun target => ?_
  refine .ite (fun _ => .pure fun _ _ hl => ⟨hv, hl⟩) fun _ => .ite (fun _ => .throw) fun _ => ?_
  exact .bind (.emit rfl) fun _ => .bind (free hv) fun _ => accumulator

end Guards

end TreeCompiler.Emit
