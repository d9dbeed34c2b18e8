import TreeCompiler.Proofs.Emit.Value

/-!
# Statements extend the code

`emitter_good` closes the circle: the emitter extends the code at every place whose code names only allowed variables.
-/

namespace TreeCompiler.Emit

variable {K : Setting} {rec : Emitter}

namespace Emits

theorem letStmt {id : NodeId} {n : Node} (hparts : ∀ p ∈ K.unit.letParts id n, Good K rec p)
    (hnames : ∀ p, K.unit.initialized? id n = some p → Allows K p.1) : Emits K (letStmt rec id n) fun _ => True := by
  refine .ite (fun _ => .pure trivial) fun hg => .bind unit fun r hr => ?_
  subst hr
  split
  · exact .pure trivial
  · rename_i v hv
    refine .bind (symbol v) fun s hs => .ite (fun _ => .pure trivial) fun hrej => ?_
    have hinit : K.unit.initialized? id n = some (v, s) := by
      simp [AnalysisResult.initialized?, hg, hv, hs, hrej]
    simp only [AnalysisResult.letParts, hinit, List.mem_singleton, forall_eq] at hparts
    refine .bind (storage_plain (hnames _ hinit)) fun dst hdst => ?_
    split at hparts
    all_goals rename_i hb
    · rw [if_pos hb]
      exact .bind (hparts id) fun x hx => move hdst hx
    · rw [if_neg hb]
      exact .bind (exprAny hparts) fun x hx => move hdst hx

theorem condition {id : NodeId} (h : Good K rec (.expr id)) (l : Label) : Emits K (condition rec id l) fun _ => True :=
  .bind (exprAny h) fun c hc => .bind (.emit hc nofun nofun) fun _ _ => free c

theorem jumpTo (l : Label) : Emits K (jumpTo l) fun _ => True := .emit nofun nofun nofun

theorem ifStmt {n : Node} (ha : Good K rec (.expr n.a)) (hb : Good K rec (.stmt n.b)) (hc : Good K rec (.stmt n.c)) :
    Emits K (ifStmt rec n) fun _ => True := by
  refine .bind newLabel fun stop hstop => .ite (fun _ => ?_) fun _ => .bind newLabel fun no hno => ?_
  · exact .bind (condition ha stop) fun _ _ => .bind hb fun _ _ => bindLabel hstop
  · refine .bind (condition ha no) fun _ _ => .bind hb fun _ _ => .bind (jumpTo stop) fun _ _ => ?_
    exact .bind (bindLabel hno) fun _ _ => .bind hc fun _ _ => bindLabel hstop

theorem inLoop {l : LoopTargets} {body : NodeId} (h : Good K rec (.stmt body)) : Emits K (inLoop rec l body) fun _ => True := by
  refine .bind (.modify fun _ _ => ?_) fun _ _ => .bind h fun _ _ => .modify fun _ _ => ?_
  · exact .quiet rfl rfl rfl rfl (Nat.le_refl _) rfl rfl rfl rfl rfl rfl rfl rfl
  · exact .quiet rfl rfl rfl rfl (Nat.le_refl _) rfl rfl rfl rfl rfl rfl rfl rfl

theorem whileLoop {n : Node} (ha : Good K rec (.expr n.a)) (hb : Good K rec (.stmt n.b)) :
    Emits K (whileLoop rec n) fun _ => True := by
  refine .bind newLabel fun top htop => .bind newLabel fun exit hexit => .bind (bindLabel htop) fun _ _ => ?_
  refine .bind (condition ha exit) fun _ _ => .bind (inLoop hb) fun _ _ => ?_
  exact .bind (jumpTo top) fun _ _ => bindLabel hexit

theorem forLoop {n : Node} (ha : Good K rec (.stmt n.a)) (hb : n.b ≠ 0 → Good K rec (.expr n.b))
    (hc : Good K rec (.stmt n.c)) (hd : Good K rec (.stmt n.d)) : Emits K (forLoop rec n) fun _ => True := by
  refine .bind ha fun _ _ => .bind newLabel fun top htop => .bind newLabel fun again hagain => ?_
  refine .bind newLabel fun exit hexit => .bind (bindLabel htop) fun _ _ => ?_
  have body : Emits K (do
      Emit.inLoop rec { label := n.label, exit, again } n.d
      Emit.bindLabel again
      rec.stmt n.c
      Emit.jumpTo top
      Emit.bindLabel exit) fun _ => True := by
    refine .bind (inLoop hd) fun _ _ => .bind (bindLabel hagain) fun _ _ => .bind hc fun _ _ => ?_
    exact .bind (jumpTo top) fun _ _ => bindLabel hexit
  exact .ite (fun h => .bind (condition (hb h) exit) fun _ _ => body) fun _ => body

theorem fetch {op : Opcode} {it : Operand} {v : SymbolId} (hit : Plain K.allowed it) (hv : Allows K v) :
    Emits K (fetch op it v) fun _ => True :=
  .bind (.emit hit nofun nofun) fun _ _ => .bind (storage_plain hv) fun _ hdst => move hdst (by nofun)

/-- Fetches into a variable if there is one. -/
theorem fetch? {op : Opcode} {it : Operand} {v : Option SymbolId} {m : EmitM Unit} (hit : Plain K.allowed it)
    (hv : ∀ x, v = some x → Allows K x) (hm : Emits K m fun _ => True) :
    Emits K (match v with
      | some x => do
        Emit.fetch op it x
        m
      | _ => m) fun _ => True := by
  split
  · exact .bind (fetch hit (hv _ rfl)) fun _ _ => hm
  · exact hm

theorem foreach {id : NodeId} {n : Node} (ha : Good K rec (.expr n.a)) (hb : Good K rec (.stmt n.b))
    (hv : ∀ v, K.unit.decls.get? id = some v → Allows K v) (hk : ∀ v, K.unit.keys.get? id = some v → Allows K v) :
    Emits K (foreach rec id n) fun _ => True := by
  refine .bind (exprAny ha) fun x hx => .bind (.emit hx nofun nofun) fun _ _ => .bind (free x) fun _ _ => ?_
  refine .bind (acquireRef id) fun it hit => ?_
  have hit : Plain K.allowed it := plain_of_register (.inr hit)
  refine .bind (.emit hit nofun nofun) fun _ _ => .bind (.withRefs fun _ _ => Pool.kind_hold) fun _ _ => ?_
  refine .bind newLabel fun top htop => .bind newLabel fun exit hexit => .bind (bindLabel htop) fun _ _ => ?_
  refine .bind (.emit hit nofun nofun) fun _ _ => .bind unit fun r hr => ?_
  subst hr
  refine fetch? hit hv (fetch? hit hk ?_)
  refine .bind (inLoop hb) fun _ _ => .bind (jumpTo top) fun _ _ => .bind (bindLabel hexit) fun _ _ => ?_
  exact .withRefs fun _ _ => Pool.kind_unhold

theorem dispatch (tag : Operand) (htag : Plain K.allowed tag) (arms : List NodeId) :
    ∀ fallback, K.base ≤ fallback →
      Emits K (dispatch tag arms fallback) fun p => (∀ l ∈ p.1, K.base ≤ l) ∧ K.base ≤ p.2 := by
  induction arms with
  | nil => exact fun fallback hf => .pure ⟨nofun, hf⟩
  | cons c rest ih =>
    intro fallback hf
    refine .bind newLabel fun l hl => .bind unit fun r _ => ?_
    split
    · rename_i t _
      have hnext : K.base ≤ if t < 0 then l else fallback := by
        split
        · exact hl
        · exact hf
      have hcons {ls : List Label} (hls : ∀ l ∈ ls, K.base ≤ l) : ∀ k ∈ l :: ls, K.base ≤ k := List.forall_mem_cons.2 ⟨hl, hls⟩
      refine .ite (fun _ => ?_) fun _ => .bind (ih _ hnext) fun p hp => .pure ⟨hcons hp.1, hp.2⟩
      refine .bind (.emit htag nofun nofun) fun _ _ => .bind (.emit nofun nofun nofun) fun _ _ => ?_
      exact .bind (ih _ hnext) fun p hp => .pure ⟨hcons hp.1, hp.2⟩
    · exact .fatal

theorem arm {subject : Operand} {stop l : Label} {c : NodeId} (hsubject : Plain K.allowed subject) (hl : K.base ≤ l)
    (hc : Good K rec (K.unit.armPart c)) (hv : ∀ v, K.unit.decls.get? c = some v → Allows K v) :
    Emits K (arm rec subject stop c l) fun _ => True := by
  refine .bind (bindLabel hl) fun _ _ => .bind (node c) fun cn hcn => .bind (note _) fun _ _ => .bind unit fun r hr => ?_
  subst hr
  have hbody : Emits K (rec.stmt cn.a) fun _ => True := by
    rw [AnalysisResult.armPart, hcn] at hc
    exact hc
  exact fetch? hsubject hv (.bind hbody fun _ _ => jumpTo stop)

/-- The arms of a match, after its subject. -/
theorem arms {id : NodeId} {n : Node} {subject : Operand} (hsubject : Plain K.allowed subject)
    (hl : ∀ c ∈ n.list, Good K rec (K.unit.armPart c)) (hv : ∀ c ∈ n.list, ∀ v, K.unit.decls.get? c = some v → Allows K v) :
    Emits K (do
      Emit.emit { op := .tag, a := subject }
      let tag ← Emit.acquireValue id
      Emit.emit { op := .mov, a := tag, b := .accumulator }
      let stop ← Emit.newLabel
      let (labels, fallback) ← Emit.dispatch tag n.list stop
      Emit.jumpTo fallback
      Emit.withValues (·.release tag.val.toNat)
      (n.list.zip labels).forM fun (c, l) => Emit.arm rec subject stop c l
      Emit.bindLabel stop
      if (subject.kind = .ref : Bool) then Emit.withRefs (·.unhold subject.val.toNat) else Emit.free subject)
      fun _ => True := by
  refine .bind (.emit hsubject nofun nofun) fun _ _ => .bind (acquireValue id) fun tag htag => ?_
  have htag : Plain K.allowed tag := plain_of_register (.inl htag)
  refine .bind (.emit htag nofun nofun) fun _ _ => .bind newLabel fun stop hstop => ?_
  refine .bind (dispatch tag htag n.list stop hstop) fun p hp => ?_
  refine .bind (jumpTo _) fun _ _ => .bind (.withValues fun _ _ => Pool.kind_release) fun _ _ => ?_
  refine .bind (.forM _ fun q hq => ?_) fun _ _ => .bind (bindLabel hstop) fun _ _ => ?_
  · have hmem := List.of_mem_zip hq
    exact arm hsubject (hp.1 _ hmem.2) (hl _ hmem.1) (hv _ hmem.1)
  · exact .ite (fun _ => .withRefs fun _ _ => Pool.kind_unhold) fun _ => free subject

theorem matchStmt {id : NodeId} {n : Node} (ha : Good K rec (.expr n.a)) (hl : ∀ c ∈ n.list, Good K rec (K.unit.armPart c))
    (hv : ∀ c ∈ n.list, ∀ v, K.unit.decls.get? c = some v → Allows K v) :
    Emits K (matchStmt rec id n) fun _ => True := by
  refine .bind (exprAny ha) fun v hvv => .bind (node n.a) fun an _ => .bind (stable hvv _ id) fun subject hsubject => ?_
  refine .ite (fun _ => ?_) fun _ => arms hsubject hl hv
  exact .bind (.withRefs fun _ _ => Pool.kind_hold) fun _ _ => arms hsubject hl hv

theorem returnStmt {n : Node} (ha : n.a ≠ 0 → Good K rec (.expr n.a)) : Emits K (returnStmt rec n) fun _ => True := by
  refine .get_bind fun s _ => .ite (fun _ => .ite (fun h => ?_) fun _ => .emit nofun nofun nofun) fun _ =>
    .ite (fun _ => .emit nofun nofun nofun) fun h => ?_
  · exact .bind (exprAny (ha h)) fun x _ => .bind (free x) fun _ _ => .emit nofun nofun nofun
  · exact .bind (exprAny (ha h)) fun x hx => .bind (.emit hx nofun nofun) fun _ _ => free x

theorem loopTarget (id : NodeId) (label : String) : Emits K (loopTarget id label) fun _ => True := by
  refine .get_bind fun s _ => ?_
  split
  · exact .pure trivial
  · exact .fatal

theorem stmtStep {id : NodeId} (hparts : ∀ p ∈ K.unit.parts (.stmt id), Good K rec p)
    (hnames : ∀ v ∈ K.unit.names (.stmt id), Allows K v) : Emits K (stmtStep rec id) fun _ => True := by
  refine .ite (fun _ => .pure trivial) fun _ => .bind (node id) fun n hn => ?_
  simp only [AnalysisResult.parts, AnalysisResult.names, hn, Option.map_some, Option.getD_some] at hparts hnames
  unfold AnalysisResult.stmtParts at hparts
  unfold AnalysisResult.stmtNames at hnames
  refine .ite (fun hexpr => ?_) fun hexpr => .bind (note _) fun _ _ => ?_
  · rw [if_pos hexpr] at hparts
    exact .bind (exprAny (hparts _ (by simp))) fun o _ => free o
  · rw [if_neg hexpr] at hparts
    split
    all_goals rename_i hk
    all_goals simp only [hk] at hparts hnames
    case h_4 => exact .bind (exprAny (hparts _ (by simp))) fun o _ => free o
    case h_5 => exact letStmt hparts fun p hp => hnames p.1 (by simp [hp])
    case h_10 => exact ifStmt (hparts _ (by simp)) (hparts _ (by simp)) (hparts _ (by simp))
    case h_11 => exact whileLoop (hparts _ (by simp)) (hparts _ (by simp))
    case h_12 =>
      exact forLoop (hparts _ (by simp)) (fun hb => hparts _ (by simp [hb])) (hparts _ (by simp)) (hparts _ (by simp))
    case h_13 =>
      exact foreach (hparts _ (by simp)) (hparts _ (by simp)) (fun v hv => hnames v (by simp [hv]))
        fun v hv => hnames v (by simp [hv])
    case h_14 =>
      refine matchStmt (hparts _ (by simp)) (fun c hc => hparts _ ?_) fun c hc v hv => hnames v ?_
      · exact List.mem_cons_of_mem _ (List.mem_map_of_mem hc)
      · exact List.mem_filterMap.2 ⟨c, hc, hv⟩
    case h_15 => exact .bind (loopTarget id n.label) fun _ _ => jumpTo _
    case h_16 => exact .bind (loopTarget id n.label) fun _ _ => jumpTo _
    case h_17 => exact returnStmt fun ha => hparts _ (by simp [ha])
    case h_18 => exact .fatal
    all_goals first
      | exact .pure trivial
      | exact .forM _ fun x hx => hparts _ (List.mem_map_of_mem hx)

end Emits

/-- Every place below `p` names only allowed variables. -/
def Homely (K : Setting) (p : Place) : Prop := ∀ q, K.unit.Reaches p q → ∀ v ∈ K.unit.names q, Allows K v

theorem emitter_good (fuel : Nat) : ∀ p, Homely K p → Good K (emitter fuel) p := by
  induction fuel with
  | zero =>
    intro p _
    cases p with
    | expr id => exact fun _ => .throw
    | stmt id => exact .throw
    | zero t => exact fun _ => .throw
  | succ fuel ih =>
    intro p hp
    have hparts : ∀ q ∈ K.unit.parts p, Good K (emitter fuel) q :=
      fun q hq => ih q fun r hr => hp r (Relation.ReflTransGen.head hq hr)
    have hnames : ∀ v ∈ K.unit.names p, Allows K v := hp p .refl
    cases p with
    | expr id => exact fun _ => .exprStep hparts hnames
    | stmt id => exact .stmtStep hparts hnames
    | zero t => exact fun _ => .zeroStep hparts

end TreeCompiler.Emit
