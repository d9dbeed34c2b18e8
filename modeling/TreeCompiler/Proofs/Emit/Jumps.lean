import TreeCompiler.Proofs.Emit.Balance
import TreeCompiler.Proofs.Emit.Landing
import TreeCompiler.Proofs.Emit.Loops

/-!
# Jumps of a program

What was emitted is still there when the program is finished, with an address for each label. So the jump of a `break` or
`continue` goes to the end of the loop that it controls, or to where the next round of that loop starts.

* `Placed` : a statement with its code in the final assembler; `run_placed` : so is every statement outside of the others;
* `HasStmt`, `LoopAt` : the code of a statement and of a loop in a program; `jumps_reach` : where the jumps go;
* `loop_controls_agree` : what the declaration pass and emission say of loops.
-/

namespace TreeCompiler

namespace Emit

variable {s s₁ s' : EmitState}

/-! ## Loops of a program -/

/-- From an address on, what was emitted is in the other assembler as well. -/
structure Settles (b a : Assembler) (lo : Nat) : Prop where
  code : ∀ ip i, lo ≤ ip → b.code[ip]? = some i → a.code[ip]? = some i
  labels : LabelsStay b a

theorem Settles.continues {a b c : Assembler} {lo : Nat} (h : Settles a b lo) (h' : b.Continues c) : Settles a c lo :=
  ⟨fun ip i hlo hi => h'.getElem? (h.code ip i hlo hi), h.labels.trans h'.labels⟩

/-- A statement of the function `fn` was emitted outside of every loop, and `a` has its code. -/
def Placed (u : AnalysisResult) (fn : SymbolId) (a : Assembler) (root : NodeId) : Prop :=
  ∃ fuel t t', Fine t ∧ (t.frame.loops = [] ∧ t.frame.captures = (u.shapeOf fn 0).captures) ∧ t.unit = u ∧
    (emitter fuel).stmt root t = .ok () t' ∧ Settles t'.asm a t.asm.pos

theorem Placed.continues {u : AnalysisResult} {fn : SymbolId} {a b : Assembler} {root : NodeId} (h : Placed u fn a root)
    (hab : a.Continues b) : Placed u fn b root := by
  obtain ⟨fuel, t, t', ht, hframe, hu, hrun, hsettles⟩ := h
  exact ⟨fuel, t, t', ht, hframe, hu, hrun, hsettles.continues hab⟩

instance (fuel : Nat) (st : StaticInit) : Straight (emitStatic (emitter fuel) st) :=
  .of (fun _ => ⟨_, .emitStatic (emitter_refers fuel) st⟩) fun u captures base =>
    ⟨_, .emitStatic (K := Guards.anywhere u captures base)
      (fun p _ => emitter_good fuel p fun _ _ _ _ _ _ _ _ _ => trivial) fun _ _ _ _ _ _ => trivial⟩

variable {fuel : Nat} {root : NodeId}

theorem entryCode_inside {a : Unit} (hs : Fine s) (h : entryCode (emitter fuel) s = .ok a s')
    (hroot : .stmt root ∈ s.unit.codeParts 0) :
    ∃ t t', Follows s t ∧ (emitter fuel).stmt root t = .ok () t' ∧ t'.asm.Continues s'.asm := by
  obtain ⟨u, _, hu, h₁⟩ := bind_ok h
  cases hu
  obtain ⟨_, s₁, -, h₂, f₁, hs₁⟩ := hs.bind_ok h₁
  obtain ⟨_, s₂, hroots, h₃, f₂, hs₂⟩ := hs₁.bind_ok h₂
  have hmem : root ∈ s.unit.tree.roots := by
    simp only [AnalysisResult.codeParts, if_true, List.mem_append, List.mem_flatMap, List.mem_map] at hroot
    rcases hroot with ⟨st, -, hst⟩ | ⟨r, hr, hroot⟩
    · unfold AnalysisResult.staticParts at hst
      split at hst
      · split at hst <;> simp at hst
      · cases hst
    · cases hroot
      exact hr
  obtain ⟨t, t', hrun, g, g'⟩ := hs₁.forM_ok hmem hroots
  exact ⟨t, t', f₁.trans g, hrun, (g'.trans (hs₂.follows h₃)).asm⟩

theorem emitBody_inside {body : NodeId} {a : Unit} (hs : Fine s) (h : emitBody (emitter fuel) body s = .ok a s')
    (hroot : .stmt root ∈ s.unit.bodyParts body) :
    ∃ t t', Follows s t ∧ (emitter fuel).stmt root t = .ok () t' ∧ t'.asm.Continues s'.asm := by
  obtain ⟨k, _, hk, h₁⟩ := bind_ok h
  cases hk
  unfold AnalysisResult.bodyParts at hroot
  by_cases hblock : s.unit.tree.kind body = .block
  · rw [if_pos hblock] at hroot h₁
    obtain ⟨n, _, hn, h₂⟩ := bind_ok h₁
    obtain ⟨hn, hread⟩ := node_ok hn
    rw [hread] at h₂
    rw [hn] at hroot
    simp only [Option.map_some, Option.getD_some, List.mem_map, Place.stmt.injEq, exists_eq_right] at hroot
    obtain ⟨_, s₁, hlist, h₃, f₁, hs₁⟩ := hs.bind_ok h₂
    obtain ⟨t, t', hrun, g, g'⟩ := hs.forM_ok hroot hlist
    exact ⟨t, t', g, hrun, (g'.trans (hs₁.follows h₃)).asm⟩
  · rw [if_neg hblock] at hroot
    split at hroot <;> simp at hroot

theorem Began.fine {entry : Label} (h : Began s s₁ entry) (ht : s.Tidy) (hv : s.values.kind = .value)
    (hr : s.refs.kind = .ref) (hranges : ∀ f ∈ s₁.recorder.funcs.toList, f.start < (s₁.asm.pos : Int)) : Fine s₁ where
  tidy := h.grown.tidy ht
  values := by rw [h.values, hv]
  refs := by rw [h.refs, hr]
  loops := by
    rw [h.loops]
    nofun
  ranges := hranges

/-- The reservation that is patched is before the body. -/
theorem settles_patch {ip slots : Nat} {b : Assembler} {lo : Nat} {a : Unit} (h : patch ip slots s = .ok a s')
    (hb : b.Continues s.asm) (hlo : ip < lo) : Settles b s'.asm lo := by
  obtain ⟨i, -, -, rfl⟩ := patch_ok h
  refine ⟨fun k j hk hj => ?_, hb.labels⟩
  rw [Array.getElem?_setIfInBounds_ne (by omega)]
  exact hb.getElem? hj

theorem emitEntry_placed {u : AnalysisResult} {entry : Label} (hunit : s.unit = u) (hv : s.values.kind = .value)
    (hr : s.refs.kind = .ref) (asm : s.asm = {}) (funcs : s.funcs = {}) (work : s.work = #[]) (natives : s.natives = {})
    (recorder : s.recorder = {}) (hroot : .stmt root ∈ u.codeParts 0)
    (h : emitEntry (emitter fuel) s = .ok entry s') : Placed u 0 s'.asm root := by
  subst hunit
  obtain ⟨⟨l, ip⟩, s₁, hopen, h₁⟩ := bind_ok h
  obtain ⟨_, s₂, hbody, h₂⟩ := bind_ok h₁
  obtain ⟨_, _, hget, h₃⟩ := bind_ok h₂
  cases hget
  obtain ⟨_, s₃, hpatch, h₄⟩ := bind_ok h₃
  cases h₄
  obtain ⟨hbegan, rfl, hrec⟩ := openEntry_began hopen
  have hs₁ := hbegan.fine (tidy_of_empty asm funcs work natives) hv hr (by rw [hrec, recorder]; nofun)
  have hunit := hbegan.grown.unit
  obtain ⟨t, t', f, hrun, hafter⟩ := entryCode_inside hs₁ hbody (hunit ▸ hroot)
  have hstart : s₁.asm.pos = s.asm.pos + 1 := by simp [Assembler.pos, hbegan.code]
  have hlo := f.asm.pos_le
  obtain ⟨-, hcaptures, -⟩ := openEntry_ok hopen
  exact ⟨fuel, t, t', f.fine hs₁, ⟨f.loops.trans hbegan.loops, f.captures.trans hcaptures⟩, f.grown.unit.trans hunit, hrun,
    settles_patch hpatch hafter (by omega)⟩

theorem emitFunc_placed {fn : SymbolId} {a : Unit} (ht : s.Tidy) (hv : s.values.kind = .value) (hr : s.refs.kind = .ref)
    (hranges : ∀ f ∈ s.recorder.funcs.toList, f.start < (s.asm.pos : Int)) (hroot : .stmt root ∈ s.unit.codeParts fn)
    (h : emitFunc (emitter fuel) fn s = .ok a s') : Placed s.unit fn s'.asm root := by
  obtain ⟨sym, s₀, hsym, h₁⟩ := bind_ok h
  obtain ⟨hsym, rfl⟩ := symbol_ok hsym
  obtain ⟨n, s₀, hn, h₂⟩ := bind_ok h₁
  obtain ⟨hn, rfl⟩ := declaration_ok hn
  obtain ⟨_, _, hget, h₃⟩ := bind_ok h₂
  cases hget
  cases hf : s₀.funcs.get? fn with
  | none =>
    rw [hf] at h₃
    cases h₃
  | some p =>
    rw [hf] at h₃
    obtain ⟨⟨span, ip⟩, s₁, hopen, h₄⟩ := bind_ok h₃
    obtain ⟨_, s₂, hbody, h₅⟩ := bind_ok h₄
    obtain ⟨_, _, hget, h₆⟩ := bind_ok h₅
    cases hget
    obtain ⟨_, s₃, hpatch, h₇⟩ := bind_ok h₆
    cases h₇
    obtain ⟨hbegan, rfl, name, nspan, hname, hrec⟩ := openFunc_began hopen
    have hstart : s₁.asm.pos = s₀.asm.pos + 1 := by simp [Assembler.pos, hbegan.code]
    have hs₁ : Fine s₁ := by
      refine hbegan.fine ht hv hr fun f hfunc => ?_
      rw [hrec, Recorder.beginFunc, Array.toList_push, List.mem_append, List.mem_singleton] at hfunc
      rcases hfunc with hold | rfl
      · have hlt := hranges f hold
        omega
      · dsimp only
        omega
    have hcaptures : s₁.frame.captures = (s₀.unit.shapeOf fn 0).captures := by
      obtain ⟨-, sc, hsc, hcap, -⟩ := openFunc_ok hopen
      rw [hcap, AnalysisResult.shapeOf, hsc]
      rfl
    have hunit := hbegan.grown.unit
    have hne : fn ≠ 0 := by
      rintro rfl
      cases hsym
    have hparts : s₀.unit.codeParts fn = s₀.unit.bodyParts n.b := by
      rw [AnalysisResult.codeParts, if_neg hne, AnalysisResult.declarationOf?, hsym, Option.bind_some, hn]
      rfl
    rw [hparts, ← hunit] at hroot
    obtain ⟨t, t', f, hrun, hafter⟩ := emitBody_inside hs₁ hbody hroot
    have hlo := f.asm.pos_le
    have hsettles := settles_patch hpatch hafter (show s₀.asm.pos < t.asm.pos by omega)
    exact ⟨fuel, t, t', f.fine hs₁, ⟨f.loops.trans hbegan.loops, f.captures.trans hcaptures⟩, f.grown.unit.trans hunit, hrun,
      hsettles.code, hsettles.labels⟩

theorem emitFunc_continues {fn : SymbolId} {a : Unit} (hv : s.values.kind = .value) (hr : s.refs.kind = .ref)
    (h : emitFunc (emitter fuel) fn s = .ok a s') : s.asm.Continues s'.asm := by
  obtain ⟨_, _, _, is, s₁, -, hadds, -, hfilled⟩ := emitFunc_ok rfl hv hr h
  rw [hfilled.asm]
  exact ⟨⟨is, hadds.code⟩, hadds.labels⟩

/-- The statements of the functions that are still in the queue are placed as well. -/
theorem Ranged.queue_placed {u : AnalysisResult} {entry : Label} {parts : List (List Instr)} {rounds i : Nat} {a : Unit}
    (e : Ranged u entry parts s) (hi : parts.length = i + 1) (h : emitQueue (emitter fuel) rounds i s = .ok a s') :
    s.asm.Continues s'.asm ∧ ∀ j fn, i ≤ j → s'.work[j]? = some fn → ∀ root, .stmt root ∈ u.codeParts fn →
      Placed u fn s'.asm root := by
  induction rounds generalizing i parts s with
  | zero => cases h
  | succ rounds ih =>
    obtain ⟨_, _, hget, hcase⟩ := bind_ok h
    cases hget
    cases hfn : s.work[i]? with
    | none =>
      rw [hfn] at hcase
      cases hcase
      refine ⟨.refl _, fun j fn hj hfn' => ?_⟩
      have hsize := Array.getElem?_eq_none_iff.1 hfn
      have hlt := (Array.getElem?_eq_some_iff.1 hfn').1
      omega
    | some fn =>
      rw [hfn] at hcase
      obtain ⟨_, s₁, hfunc, hrest⟩ := bind_ok hcase
      have hgrown := (inferInstance : Grows (emitFunc (emitter fuel) fn)).carries _ _ _ hfunc
      obtain ⟨is, e'⟩ := e.step (by rw [hi]; exact hfn) hfunc
      obtain ⟨hrestAsm, hplaced⟩ := ih e' (by simp [hi]) hrest
      obtain ⟨_, -, -, hgrown', -⟩ := e'.queue (by simp [hi]) hrest
      refine ⟨(emitFunc_continues e.values e.refs hfunc).trans hrestAsm, fun j g hj hg root hroot => ?_⟩
      rcases Nat.eq_or_lt_of_le hj with rfl | hlt
      · obtain rfl : g = fn := Option.some.inj (hg.symm.trans (getElem?_of_work (hgrown.trans hgrown') hfn))
        have hunit := e.unit
        subst hunit
        exact (emitFunc_placed e.tidy e.values e.refs e.before_end hroot hfunc).continues hrestAsm
      · exact hplaced j g hlt hg root hroot

/-- Every statement of a function that is called is placed. -/
theorem run_placed {u : AnalysisResult} {o : EmitOptions} {tracer : Tracer} {p : Program} {table : DebugTable}
    (h : run (start u o tracer) = .ok (p, table) s) {fn : SymbolId} (hfn : fn = 0 ∨ fn ∈ s.work.toList)
    (hroot : .stmt root ∈ u.codeParts fn) : Placed u fn s.asm root ∧ s.asm.Finished p := by
  obtain ⟨_, _, hu, h₁⟩ := bind_ok h
  cases hu
  obtain ⟨span, s₁, hspan, h₂⟩ := bind_ok h₁
  cases hspan
  obtain ⟨entry, s₂, hentry, h₃⟩ := bind_ok h₂
  obtain ⟨_, s₃, hqueue, h₄⟩ := bind_ok h₃
  obtain ⟨_, s₄, hclose, h₅⟩ := bind_ok h₄
  obtain ⟨_, _, hget, h₆⟩ := bind_ok h₅
  cases hget
  obtain ⟨is, e⟩ := emitEntry_ranged rfl rfl rfl rfl rfl rfl rfl rfl hentry
  obtain ⟨hasm, hplaced⟩ := e.queue_placed rfl hqueue
  have hlast : s₃.asm.Continues s₄.asm ∧ s₄.work = s₃.work := by
    cases hclose
    exact ⟨⟨⟨[], (List.append_nil _).symm⟩, fun _ _ h => h⟩, rfl⟩
  cases hfin : s₄.asm.finish entry with
  | error e =>
    rw [hfin] at h₆
    cases h₆
  | ok q =>
    rw [hfin] at h₆
    cases h₆
    refine ⟨?_, Assembler.finish_finished hfin⟩
    rcases hfn with rfl | hfn
    · have hfirst : Placed u 0 s₂.asm root := emitEntry_placed rfl rfl rfl rfl rfl rfl rfl rfl hroot hentry
      exact hfirst.continues (hasm.trans hlast.1)
    · obtain ⟨j, hj⟩ := List.mem_iff_getElem?.1 hfn
      rw [Array.getElem?_toList, hlast.2] at hj
      exact (hplaced j fn (Nat.zero_le j) hj root hroot).continues hlast.1

/-- A range of the program is the code of a statement. -/
def HasStmt (u : AnalysisResult) (a : Assembler) (p : Program) (id : NodeId) (lo hi : Nat) : Prop :=
  ∃ fuel t t', t.unit = u ∧ (emitter fuel).stmt id t = .ok () t' ∧ t.asm.pos = lo ∧ t'.asm.pos = hi ∧
    ∀ ip i, lo ≤ ip → t'.asm.code[ip]? = some i → ∃ i', p.code[ip]? = some i' ∧ a.LandsInstr i i'

/-- Where the next round of a loop starts: a `while` loop tests its condition, a `for` loop makes its step first, and a
`foreach` loop takes the next element. -/
def NextRound (u : AnalysisResult) (a : Assembler) (p : Program) (n : Node) (lo again hi : Nat) : Prop :=
  match n.kind with
  | .whileLoop => again = lo
  | .forLoop => lo ≤ again ∧ ∃ stop ≤ hi, HasStmt u a p n.c again stop
  | _ => lo ≤ again ∧ ∃ it, p.code[again]? = some { op := .iterNext, a := it, b := .address hi }

/-- A loop in a program: its code is between `lo` and `hi`, and its next round starts at `again`. -/
structure LoopAt (u : AnalysisResult) (a : Assembler) (p : Program) (loop : NodeId) (lo again hi : Nat) : Prop where
  code : HasStmt u a p loop lo hi
  next : ∃ n, u.tree.get? loop = some n ∧ NextRound u a p n lo again hi

theorem finished_instr {a : Assembler} {p : Program} (h : a.Finished p) {ip : Nat} {i : Instr} (hi : a.code[ip]? = some i) :
    ∃ i', p.code[ip]? = some i' ∧ a.LandsInstr i i' := by
  rw [← Array.getElem?_toList] at hi
  obtain ⟨i', hi', hlands⟩ := getElem?_of_forall₂ h.code hi
  exact ⟨i', by rwa [Array.getElem?_toList] at hi', hlands⟩

/-- What a placed statement is made of is placed with it. -/
theorem hasStmt_of_settles {u : AnalysisResult} {a : Assembler} {p : Program} {id : NodeId} {lo : Nat} (hfin : a.Finished p)
    (hu : s.unit = u) (hrun : (emitter fuel).stmt id s = .ok () s') {b : Assembler} (hb : Settles b a lo)
    (hcont : s'.asm.Continues b) (hlo : lo ≤ s.asm.pos) : HasStmt u a p id s.asm.pos s'.asm.pos :=
  ⟨fuel, s, s', hu, hrun, rfl, rfl, fun ip i hip hi => finished_instr hfin (hb.code ip i (by omega) (hcont.getElem? hi))⟩

theorem lands_label {a : Assembler} {l : Label} {ip : Nat} {o : Operand} (h : a.Lands (.label l) o)
    (hl : a.address? l = some ip) : o = .address ip := by
  obtain ⟨ip', hip, rfl⟩ := h.address l rfl
  rw [Option.some.inj (hl.symm.trans hip)]

theorem iterNext_lands {a : Assembler} {it : Operand} {l : Label} {ip : Nat} {i' : Instr}
    (h : a.LandsInstr { op := .iterNext, a := it, b := .label l } i') (hl : a.address? l = some ip) :
    i' = { op := .iterNext, a := i'.a, b := .address ip } := by
  obtain ⟨op, x, y, z⟩ := i'
  obtain rfl := h.op
  obtain rfl := lands_label h.b hl
  obtain rfl := h.c.same nofun
  rfl

/-- A loop that was opened is in the program, its targets where they belong. -/
theorem Opens.loopAt {u : AnalysisResult} {a : Assembler} {p : Program} {t t' : EmitState} {loop : NodeId} {l : LoopTargets}
    (h : Opens s s' t t' loop l) (hu : s.unit = u) (hfin : a.Finished p) (hs : Settles s'.asm a s.asm.pos) :
    ∃ lo again hi, LoopAt u a p loop lo again hi ∧ a.address? l.exit = some hi ∧ a.address? l.again = some again ∧
      lo ≤ t.asm.pos ∧ t'.asm.pos ≤ hi := by
  obtain ⟨fuel, n, v, v', hn, hrun, ht, ⟨hunit, hv, hv'⟩, hin, hin'⟩ := h
  subst hu
  have hlo := hv.pos_le
  have hstmt := hasStmt_of_settles hfin hunit hrun hs hv' hlo
  have hexit := hs.labels _ _ (hv'.labels _ _ ht.exit)
  have hplace {ip : Nat} (hip : v'.asm.address? l.again = some ip) : a.address? l.again = some ip :=
    hs.labels _ _ (hv'.labels _ _ hip)
  have done {again : Nat} (hagain : v'.asm.address? l.again = some again)
      (hnext : NextRound s.unit a p n v.asm.pos again v'.asm.pos) :
      ∃ lo again hi, LoopAt s.unit a p loop lo again hi ∧ a.address? l.exit = some hi ∧ a.address? l.again = some again ∧
        lo ≤ t.asm.pos ∧ t'.asm.pos ≤ hi :=
    ⟨_, again, _, ⟨hstmt, n, hn, hnext⟩, hexit, hplace hagain, hin.pos_le, hin'.pos_le⟩
  have hagain := ht.again
  cases hk : n.kind <;> simp only [hk] at hagain
  case whileLoop => exact done hagain (by rw [NextRound, hk])
  case forLoop =>
    obtain ⟨w, w', hw, hip⟩ := hagain
    have hbelow := hw.before.pos_le
    have hstep := hasStmt_of_settles hfin (hw.unit.trans hunit) hw.run hs (hw.after.trans hv') (by omega)
    exact done hip (by rw [NextRound, hk]; exact ⟨hbelow, _, hw.after.pos_le, hstep⟩)
  all_goals
    obtain ⟨ip, it, hip, hbelow, hcode⟩ := hagain
    obtain ⟨i', hi', hlands⟩ := finished_instr hfin (hs.code ip _ (by omega) (hv'.getElem? hcode))
    exact done hip (by rw [NextRound, hk]; exact ⟨hbelow, i'.a, hi'.trans (congrArg some (iterNext_lands hlands hexit))⟩)

/-- The statement is a jump inside of the loop that it controls, to its end or to where its next round starts. -/
def ReachesLoop (u : AnalysisResult) (a : Assembler) (p : Program) (loops : List NodeId) (k : NodeId) (m : Node) : Prop :=
  ∃ loop lo again hi ip, u.tree.target? loops m.label = some loop ∧ LoopAt u a p loop lo again hi ∧ lo ≤ ip ∧ ip < hi ∧
    HasStmt u a p k ip (ip + 1) ∧
    p.code[ip]? = some { op := .jump, a := .address (if m.kind = .breakStmt then hi else again) }

theorem jumps_reach {u : AnalysisResult} {o : EmitOptions} {tracer : Tracer} {p : Program} {table : DebugTable}
    (h : run (start u o tracer) = .ok (p, table) s) {fn : SymbolId} (hfn : fn = 0 ∨ fn ∈ s.work.toList)
    (hroot : .stmt root ∈ u.codeParts fn) {loops : List NodeId} {k : NodeId} {m : Node} (hin : u.tree.Encloses root loops k)
    (hm : u.tree.get? k = some m) (hk : m.isLoopControl) : ReachesLoop u s.asm p loops k m := by
  obtain ⟨⟨fuel, t, t', ht, ⟨hopen, -⟩, hu, hrun, hsettles⟩, hfin⟩ := run_placed h hfn hroot
  subst hu
  obtain ⟨loop, l, _, _, v, v', hloop, hopens, hinside, hpos, hcode⟩ := jump_inside ht hopen hrun hin hm hk
  obtain ⟨lo, again, hi, hat, hexit, hagain, hlo, hhi⟩ := hopens.loopAt rfl hfin hsettles
  have hbelow := hinside.before.pos_le
  have hstmt := hasStmt_of_settles hfin hinside.unit hinside.run hsettles hinside.after hbelow
  rw [hpos] at hstmt
  obtain ⟨⟨op, x, y, z⟩, hi', hlands⟩ := finished_instr hfin (hsettles.code _ _ hbelow (hinside.after.getElem? hcode))
  obtain rfl := hlands.op
  obtain rfl := hlands.b.same nofun
  obtain rfl := hlands.c.same nofun
  obtain rfl : x = .address (if m.kind = .breakStmt then hi else again) :=
    lands_label hlands.a (by split <;> assumption)
  exact ⟨loop, lo, again, hi, v.asm.pos, hloop, hat, hlo, by omega, hstmt, hi'⟩

/-- For every formed tree without circles. In a unit without errors, every `break` and `continue` that the first pass comes to
controls a loop. One in an instance of a function that controls none is reported while the instance is declared, at the depth
of the buffers that are open then. In a program, each is a jump inside of the loop that it controls, the innermost one around
it in its function that has its label: to the end of the loop, or to where the next round starts. -/
theorem loop_controls_agree {t : Tree} (ht : t.Formed) (hcircle : ∀ r ∈ t.roots, ¬t.MeetsCircle (fun _ => true) r)
    (options : AnalysisOptions) (tracer : Tracer) :
    let e := t.analyze options tracer
    let u := e.state.result
    (∃ s, Analysis.declarePass (.initial t options tracer) = .ok ⟨⟩ s ∧
      (e.hasErrors = false → ∀ root, t.IsOutermost s root → ∀ loops k m, t.Encloses root loops k → t.get? k = some m →
        m.isLoopControl → ∃ loop, t.target? loops m.label = some loop)) ∧
    (∀ (s s' : Analysis) clone n inst args, s.result.tree.get? clone = some n →
      (∀ c, c = 0 ∨ c ∈ n.children → s.level.Free c) → Analysis.declareInstance .function clone inst args s = .ok ⟨⟩ s' →
        ∀ loops k m, s.result.tree.Encloses n.b loops k → s.result.tree.get? k = some m → m.isLoopControl →
          s.result.tree.target? loops m.label = none → ⟨s.sink.depth, m.stray (loops = [])⟩ ∈ s'.sink.history) ∧
    ∀ o tracer' p table s, run (start u o tracer') = .ok (p, table) s →
      ∀ fn root, fn = 0 ∨ fn ∈ s.work.toList → .stmt root ∈ u.codeParts fn → ∀ loops k m, u.tree.Encloses root loops k →
        u.tree.get? k = some m → m.isLoopControl → ReachesLoop u s.asm p loops k m := by
  intro e u
  refine ⟨t.analyze_controls ht hcircle options tracer, fun s s' clone n inst args hn hfree hm => ?_,
    fun o tracer' p table s h fn root hfn hroot loops k m => jumps_reach h hfn hroot⟩
  intro loops k m hin hk hcontrol hnone
  obtain ⟨-, -, htold⟩ := Analysis.declareInstance_tells inst args hn hfree s _ s' s.at_level hm
  have hreport := htold _ (List.mem_singleton_self _) loops k m hin hk hcontrol hnone (List.forall_mem_nil _)
  rwa [Node.stray_congr (q := loops = []) (by simp)] at hreport

/-- A loop inside of another one, with a jump out of each. -/
def nestedLoops : Tree where
  nodes := #[
    .boolLit true, .boolLit true, { kind := .continueStmt, label := "outer" }, .breakStmt "", .block [3, 4], .whileLoop 2 5,
    .block [6], { Node.whileLoop 1 7 with label := "outer" }, { kind := .file, list := [8] }]
  roots := [9]

/-- The statement with a label goes on with the outer loop. -/
theorem nestedLoops_outer :
    nestedLoops.Formed ∧ (∀ r ∈ nestedLoops.roots, ¬nestedLoops.MeetsCircle (fun _ => true) r) ∧
    let u := (nestedLoops.analyze {} {}).state.result
    ∃ p table s lo again hi ip, run (start u {} {}) = .ok (p, table) s ∧ LoopAt u s.asm p 8 lo again hi ∧ lo ≤ ip ∧ ip < hi ∧
      p.code[ip]? = some { op := .jump, a := .address again } := by
  have hformed : nestedLoops.Formed := by decide
  have hcircle : ∀ r ∈ nestedLoops.roots, ¬nestedLoops.MeetsCircle (fun _ => true) r := by
    intro r hr
    obtain rfl : r = 9 := by simpa [nestedLoops] using hr
    have hwalk : (nestedLoops.walkAux (fun _ => true) 7 9).isSome := by decide
    exact Tree.not_meetsCircle_of_acc (Tree.acc_of_walkAux hwalk)
  refine ⟨hformed, hcircle, ?_⟩
  intro u
  have hends : view? run (fun r _ => r.1.globals) (start u {} {}) = some 0 ∧
      ((u.tree.get? 9).map (·.inner u.tree 9) = some [(8, [])] ∧
        (u.tree.get? 8).map (·.inner u.tree 8) = some [(7, [8])] ∧
        (u.tree.get? 7).map (·.inner u.tree 7) = some [(6, [])] ∧
        (u.tree.get? 6).map (·.inner u.tree 6) = some [(5, [6])] ∧
        (u.tree.get? 5).map (·.inner u.tree 5) = some [(3, []), (4, [])]) ∧
      (u.tree.get? 3).map (fun m => (m.kind, m.label)) = some (.continueStmt, "outer") ∧
      Place.stmt 9 ∈ u.codeParts 0 ∧ u.tree.target? [6, 8] "outer" = some 8 := by decide +kernel
  obtain ⟨hview, ⟨hfile, houter, hblock, hloop, hbody⟩, hjump, hroot, htarget⟩ := hends
  obtain ⟨⟨p, table⟩, s, hrun, -⟩ := view?_eq_some hview
  obtain ⟨-, -, hjumps⟩ := loop_controls_agree hformed hcircle {} {}
  have hin : u.tree.Encloses 9 [6, 8] 3 :=
    .of_inner hfile (List.mem_singleton_self _) <| .of_inner houter (List.mem_singleton_self _) <|
      .of_inner hblock (List.mem_singleton_self _) <| .of_inner hloop (List.mem_singleton_self _) <|
      .of_inner hbody (List.mem_cons_self ..) (.here 3)
  obtain ⟨m, hm, hkind⟩ := Option.map_eq_some_iff.1 hjump
  obtain ⟨hk, hlabel⟩ := Prod.mk.inj hkind
  obtain ⟨loop, lo, again, hi, ip, hcontrols, hat, hlo, hhi, -, hcode⟩ :=
    hjumps {} {} p table s hrun 0 9 (.inl rfl) hroot [6, 8] 3 m hin hm (.inr hk)
  rw [hlabel, htarget] at hcontrols
  cases hcontrols
  rw [hk] at hcode
  exact ⟨p, table, s, lo, again, hi, ip, hrun, hat, hlo, hhi, hcode⟩

/-- A field `m` of `S`, and a generic method `m` of `S` that ends with a jump out of no loop. It is called as the member of an
object and by its name. -/
def jumpingMethod : Tree where
  nodes := #[
    .typeName ["int"], .typeName ["int"], .typeFunc 2 [1], .field "m" 3 0, .typeStruct [4], .typeDecl "S" 5,
    .typeName ["S"], .letDecl "o" 7 0,
    .typeName ["S"], .param "self" 9, .typeName ["T"], .param "x" 11, .typeName ["int"], .breakStmt "", .intLit 0,
    .returnStmt 15, .block [14, 16], { Node.func "m" [10, 12] 13 17 with params := ["T"] }, .nameSpace "S" [18],
    .ident ["o"], .member 20 "m", .intLit 1, .call 21 [22], .letDecl "y" 0 23,
    .ident ["S", "m"], .ident ["o"], .intLit 1, .call 25 [26, 27], .letDecl "z" 0 28,
    { kind := .file, list := [6, 8, 19, 24, 29] }]
  roots := [30]

/-- The report of the instance is dropped with the attempt to call the method. The second call takes the same instance, which
is not declared again, so the unit is accepted and cannot be compiled. -/
theorem jumpingMethod_accepted :
    let e := jumpingMethod.analyze {} {}
    e.failure = none ∧ e.diagnostics = [] ∧
      (∃ r ∈ e.state.sink.history, 0 < r.depth ∧ r.diagnostic.message = "break outside of a loop") ∧
      failure? run (start e.state.result {} {}) = some (.fatal 32 (.noLoop "")) := by
  decide +kernel

/-- A generic method `m` of `S` that declares a union with two variants of one name and matches on a value of it. It is called
as the member of an object and by its name. -/
def twinVariants : Tree where
  nodes := #[
    .typeName ["int"], .typeName ["int"], .typeFunc 2 [1], .field "m" 3 0, .typeStruct [4], .typeDecl "S" 5,
    .typeName ["S"], .letDecl "o" 7 0,
    .typeName ["S"], .param "self" 9, .typeName ["T"], .param "x" 11, .typeName ["int"],
    .variant "A" 0, .variant "A" 0, .unionDecl "U" [14, 15], .ident ["U", "A"], .letDecl "u" 0 17,
    .ident ["u"], .block [], .matchArm "A" "" 20, .block [], .matchArm "_" "" 22, .matchStmt 19 [21, 23],
    .intLit 0, .returnStmt 25, .block [16, 18, 24, 26], { Node.func "m" [10, 12] 13 27 with params := ["T"] },
    .nameSpace "S" [28],
    .ident ["o"], .member 30 "m", .intLit 1, .call 31 [32], .letDecl "y" 0 33,
    .ident ["S", "m"], .ident ["o"], .intLit 1, .call 35 [36, 37], .letDecl "z" 0 38,
    { kind := .file, list := [6, 8, 29, 34, 39] }]
  roots := [40]

/-- The report of the repeated name is dropped with the attempt to call the method, and the instance is taken again. In the
match statement of the instance the named arm has the tag of the first variant, and a value of the second one goes to the
default arm. -/
theorem twinVariants_conflated :
    let e := twinVariants.analyze {} {}
    let u := e.state.result
    e.failure = none ∧ e.diagnostics = [] ∧
      (∃ r ∈ e.state.sink.history, 0 < r.depth ∧ r.diagnostic.message = "\"A\" is already declared in this scope") ∧
      (u.tree.get? 52).map (fun n => (n.kind, n.a, n.list)) = some (.matchStmt, 47, [49, 51]) ∧
      ((u.tree.get? 47).bind fun n => u.types.lookup? n.valueType).map (·.shape) = some (.union [⟨"A", 0⟩, ⟨"A", 0⟩]) ∧
      u.cases.get? 49 = some 0 ∧ u.cases.get? 51 = some (-1) := by
  decide +kernel

end Emit

end TreeCompiler
