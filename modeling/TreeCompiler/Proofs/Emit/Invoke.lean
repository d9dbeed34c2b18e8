import TreeCompiler.Proofs.Emit.Steady

/-!
# Calls and jumps keep registers

A call overwrites every scratch register. Those in use are saved to fresh spill slots before it and restored after it; a
conjunction or disjunction jumps over the code of its right side.

* `keeps_branch` : code that may be jumped over;
* `Invokes` : the call between save and restore, and what it leaves in every place; `Guards.invoke` : it keeps what callers hold;
* `emitter_steady` : emission keeps the registers of callers.
-/

namespace TreeCompiler.Emit

variable {K : Watch} {H : Operand → Prop} {rec : Emitter} {s s₁ s₂ s₃ s' : EmitState}

/-! ## Jumping over code -/

theorem effect_branch {V : Type} {locals : Nat} {op : Opcode} {x y : Operand} {σ τ : Store V}
    (hop : op = .jumpIf ∨ op = .jumpUnless) (h : Instr.Effect locals { op, a := x, b := y } σ τ) : τ = σ := by
  rcases hop with rfl | rfl <;> exact h

theorem keeps_branch {op : Opcode} {x : Operand} {l : Label} {a b : Unit} (hop : op = .jumpIf ∨ op = .jumpUnless)
    (hjump : emit { op, a := x, b := .label l } s = .ok a s₁) (h : Keeps K H s₁ s₂) (hbind : bindLabel l s₂ = .ok b s₃) :
    Keeps K H s s₃ := by
  obtain ⟨hlt, hfree, rfl⟩ := bindLabel_ok hbind
  have hcount : s₁.accumulatorWrites = s.accumulatorWrites ∧ s₁.returnWrites = s.returnWrites := by
    rcases hop with rfl | rfl <;> cases hjump <;> exact ⟨rfl, rfl⟩
  have htarget : Instr.target? { op, a := x, b := .label l } = some (.label l) := by
    rcases hop with rfl | rfl <;> rfl
  have hjumped : s.asm.Continues s₁.asm ∧ s₁.asm.pos = s.asm.pos + 1 ∧
      s₁.asm.code[s.asm.pos]? = some { op, a := x, b := .label l } := by
    cases hjump
    exact ⟨⟨⟨[_], Array.toList_push⟩, fun _ _ hl => hl⟩, Array.size_push _, Array.getElem?_push_size⟩
  have hstill : s₁.unit = s.unit ∧ s₁.frame = s.frame ∧ s₁.values = s.values ∧ s₁.refs = s.refs := by
    cases hjump
    exact ⟨rfl, rfl, rfl, rfl⟩
  have hbound : s₂.asm.Continues { s₂.asm with
      labels := s₂.asm.labels.setIfInBounds l (some s₂.asm.pos), bound := s₂.asm.bound.push l } :=
    ⟨⟨[], (List.append_nil _).symm⟩, labelsStay_bind hfree rfl⟩
  obtain ⟨hunit, hframe, hvalues, hrefs⟩ := hstill
  refine
    { unit := h.unit.trans hunit
      locals := h.locals.trans (by rw [hframe])
      values := h.values.trans (by rw [hvalues])
      refs := h.refs.trans (by rw [hrefs])
      asm := (hjumped.1.trans h.asm).trans hbound
      accumulator := hcount.1 ▸ h.accumulator
      returned := hcount.2 ▸ h.returned
      live := fun o ho hl => h.live o ho (by rw [hvalues, hrefs]; exact hl)
      safe := fun c hc o ho => ?_ }
  have hinner : c.Preserves s.frame.locals o (s.asm.pos + 1) s₂.asm.pos := by
    rw [← hjumped.2.1, ← hframe]
    refine h.safe c (hbound.trans hc) o ?_
    unfold Guarded at ho ⊢
    rw [hcount.1, hcount.2]
    exact ho
  have hle : s.asm.pos < s₂.asm.pos := by
    have := h.asm.pos_le
    omega
  have haddr : c.address? l = some s₂.asm.pos := hc.labels _ _ (address?_bind hlt rfl)
  refine .branch (hc.getElem? (hbound.getElem? (h.asm.getElem? hjumped.2.2))) htarget haddr hle (fun V σ τ he => ?_) hinner
  rw [effect_branch hop he]

namespace Guards

/-- A register that is written to and stays in use. -/
theorem moveTo {dst src : Operand} (hd : Dest K H dst) (hs : Own (Also H dst) src) :
    Guards K H (fun values refs => Live values refs dst) (Emit.move dst src) fun _ values refs => Live values refs dst := by
  have hfree : Guards K H (fun values refs => Live values refs dst) (Emit.free src) fun _ values refs => Live values refs dst :=
    (free hs).frame.mono (fun _ _ hl => ⟨trivial, hl⟩) fun _ _ _ h => h.2
  unfold Emit.move
  exact .ite (fun _ => .bind (.mov hd) fun _ => hfree) fun _ => hfree

/-- One side of a conjunction or disjunction, with the register of the result in use. -/
theorem side {id : NodeId} {res x : Operand} {a : Unit} (hi : Steady K rec (.expr id)) (hd : Dest K H res) (hs : Ready K H s)
    (hl : Live s.values s.refs res) (hx : Emit.exprAny rec id s = .ok x s₁) (hm : Emit.move res x s₁ = .ok a s₂) :
    Keeps K H s s₂ ∧ Live s₂.values s₂.refs res := by
  obtain ⟨h₁, ⟨hown, -⟩, hl₁⟩ := (exprAny (H := Also H res) hi).frame s x s₁ hs ⟨trivial, hl⟩ hx
  obtain ⟨h₂, hl₂⟩ := moveTo hd hown s₁ a s₂ (h₁.ready hs) hl₁ hm
  exact ⟨h₁.trans h₂, hl₂⟩

theorem logical {id : NodeId} {n : Node} (ha : Steady K rec (.expr n.a)) (hb : Steady K rec (.expr n.b)) :
    Guards K H Any (logical rec id n) fun o values refs => Own H o ∧ Live values refs o := by
  refine .bind (acquireValue id) fun res => .pull fun hres => .pull fun hk => ?_
  have hdest : Dest K H res := dest_of_own hres (by simp [Operand.isScratch, hk])
  intro s o s' hs hl hrun
  obtain ⟨x, s₁, hx, hrun₁⟩ := bind_ok hrun
  obtain ⟨_, s₂, hmove, hrun₂⟩ := bind_ok hrun₁
  obtain ⟨stop, s₃, hnew, hrun₃⟩ := bind_ok hrun₂
  obtain ⟨_, s₄, hjump, hrun₄⟩ := bind_ok hrun₃
  obtain ⟨y, s₅, hy, hrun₅⟩ := bind_ok hrun₄
  obtain ⟨_, s₆, hmove', hrun₆⟩ := bind_ok hrun₅
  obtain ⟨_, s₇, hbind, hrun₇⟩ := bind_ok hrun₆
  cases hrun₇
  obtain ⟨h₂, hl₂⟩ := side ha hdest hs hl hx hmove
  have hq := IsQuiet.newLabel s₂ stop s₃ hnew
  have hs₃ := hq.keeps.ready (h₂.ready hs)
  have hpools : s₄.values = s₃.values ∧ s₄.refs = s₃.refs ∧ s₄.unit = s₃.unit ∧ s₄.frame = s₃.frame := by
    cases hjump
    exact ⟨rfl, rfl, rfl, rfl⟩
  have hs₄ : Ready K H s₄ :=
    ⟨hpools.2.2.1.trans hs₃.unit, by rw [hpools.2.2.2, hs₃.locals], by rw [hpools.1, hs₃.values], by rw [hpools.2.1, hs₃.refs],
      by rw [hpools.1, hpools.2.1]; exact hs₃.live⟩
  obtain ⟨h₆, hl₆⟩ := side hb hdest hs₄ (by rw [hpools.1, hpools.2.1, hq.values, hq.refs]; exact hl₂) hy hmove'
  have hop : (if n.op = .or then Opcode.jumpIf else .jumpUnless) = .jumpIf ∨
      (if n.op = .or then Opcode.jumpIf else .jumpUnless) = .jumpUnless := by
    split
    · exact .inl rfl
    · exact .inr rfl
  have h₇ := keeps_branch hop hjump h₆ hbind
  have hlive : Live s'.values s'.refs res := by
    obtain ⟨-, -, rfl⟩ := bindLabel_ok hbind
    exact hl₆
  exact ⟨(h₂.trans hq.keeps).trans h₇, hres, hlive⟩

end Guards

/-! ## Saving registers -/

/-- Instructions were appended that the counts of writes do not see. -/
structure Appends (is : List Instr) (s s' : EmitState) : Prop where
  unit : s'.unit = s.unit
  locals : s'.frame.locals = s.frame.locals
  values : s'.values = s.values
  refs : s'.refs = s.refs
  code : s'.asm.code.toList = s.asm.code.toList ++ is
  labels : s'.asm.labels = s.asm.labels
  accumulator : s'.accumulatorWrites = s.accumulatorWrites
  returned : s'.returnWrites = s.returnWrites

theorem Appends.refl (s : EmitState) : Appends [] s s := ⟨rfl, rfl, rfl, rfl, (List.append_nil _).symm, rfl, rfl, rfl⟩

theorem Appends.trans {is js : List Instr} (h : Appends is s s₁) (h' : Appends js s₁ s') : Appends (is ++ js) s s' where
  unit := h'.unit.trans h.unit
  locals := h'.locals.trans h.locals
  values := h'.values.trans h.values
  refs := h'.refs.trans h.refs
  code := by rw [h'.code, h.code, List.append_assoc]
  labels := h'.labels.trans h.labels
  accumulator := h'.accumulator.trans h.accumulator
  returned := h'.returned.trans h.returned

theorem appends_mov {x y : Operand} {a : Unit} (h : emit { op := .mov, a := x, b := y } s = .ok a s') :
    Appends [{ op := .mov, a := x, b := y }] s s' := by
  cases h
  exact ⟨rfl, rfl, rfl, rfl, Array.toList_push, rfl, rfl, rfl⟩

theorem appends_spill {slot : Operand} (h : spill s = .ok slot s') : Appends [] s s' := by
  cases h
  exact ⟨rfl, rfl, rfl, rfl, (List.append_nil _).symm, rfl, rfl, rfl⟩

/-- Spill slots are numbered in the order in which they are taken. -/
def slotNumbered (locals j : Nat) : Operand := .stack (-((locals + j : Nat) : Int))

theorem saveAll_ok {regs : List Operand} {saved : List (Operand × Operand)}
    (h : (regs.mapM fun reg => do
      let slot ← spill
      emit { op := .mov, a := slot, b := reg }
      pure (reg, slot) : EmitM (List (Operand × Operand))) s = .ok saved s') :
    Appends (saveCode saved) s s' ∧ saved.map Prod.fst = regs ∧
      saved.map Prod.snd = (List.range' s.frame.spills saved.length).map (slotNumbered s.frame.locals) := by
  induction regs generalizing s saved with
  | nil =>
    cases h
    exact ⟨.refl _, rfl, rfl⟩
  | cons r regs ih =>
    rw [List.mapM_cons] at h
    obtain ⟨p, s₁, hp, h₁⟩ := bind_ok h
    obtain ⟨ps, s₂, hps, h₂⟩ := bind_ok h₁
    cases h₂
    obtain ⟨happ, hregs, hslots⟩ := ih hps
    obtain ⟨slot, s₃, hspill, hp₁⟩ := bind_ok hp
    obtain ⟨_, s₄, hmov, hp₂⟩ := bind_ok hp₁
    cases hp₂
    refine ⟨((appends_spill hspill).trans (appends_mov hmov)).trans happ, by rw [List.map_cons, hregs], ?_⟩
    cases hspill
    cases hmov
    rw [List.map_cons, hslots, List.length_cons, List.range'_succ, List.map_cons]
    rfl

theorem restoreAll_ok {saved : List (Operand × Operand)} {a : Unit}
    (h : (saved.forM fun p => emit { op := .mov, a := p.1, b := p.2 } : EmitM Unit) s = .ok a s') :
    Appends (restoreCode saved) s s' := by
  induction saved generalizing s with
  | nil =>
    cases h
    exact .refl _
  | cons p saved ih =>
    obtain ⟨_, s₁, hp, hrest⟩ := bind_ok h
    exact (appends_mov hp).trans (ih hrest)

theorem slotsApart {saved : List (Operand × Operand)} {locals n : Nat} (hregs : ∀ p ∈ saved, p.1.isScratch = true)
    (h : saved.map Prod.snd = (List.range' n saved.length).map (slotNumbered locals)) :
    SlotsApart saved ∧ ∀ p ∈ saved, p.2.kind = .stack ∧ p.2.Outlives locals := by
  have hslot : ∀ p ∈ saved, p.2.kind = .stack ∧ p.2.Outlives locals := by
    intro p hp
    have hmem : p.2 ∈ saved.map Prod.snd := List.mem_map_of_mem hp
    rw [h] at hmem
    obtain ⟨j, -, hj⟩ := List.mem_map.1 hmem
    rw [← hj]
    refine ⟨rfl, ?_⟩
    simp only [Operand.Outlives, slotNumbered, Operand.stack]
    omega
  refine ⟨⟨?_, ?_⟩, hslot⟩
  · have hapart : (saved.map Prod.snd).Pairwise (· ≠ ·) := by
      rw [h, List.pairwise_map]
      refine (List.pairwise_lt_range' 1).imp fun hlt heq => ?_
      have := congrArg Operand.val heq
      simp only [slotNumbered, Operand.stack] at this
      omega
    exact List.pairwise_map.1 hapart
  · rintro p hp q hq heq
    have hp := hregs p hp
    rw [heq, Operand.isScratch, (hslot q hq).1] at hp
    cases hp

/-! ## Calls -/

theorem scratch_live {p : Pool} {r : Operand} (hk : p.kind = .value ∨ p.kind = .ref) (hr : r ∈ p.live) : r.isScratch = true := by
  obtain ⟨i, -, rfl⟩ := List.mem_map.1 hr
  rcases hk with hk | hk <;> simp [Operand.isScratch, Pool.register, hk]

theorem mem_live {p : Pool} {o : Operand} {i : Nat} (hk : o.kind = p.kind) (hi : o.val = i) (hu : p.isUsed i = true) :
    o ∈ p.live := by
  have hlt : i < p.size := by
    refine Nat.lt_of_not_le fun hge => ?_
    simp [Pool.isUsed, Array.getD, Nat.not_lt.2 (show p.used.size ≤ i from hge)] at hu
  refine List.mem_map.2 ⟨i, List.mem_filter.2 ⟨List.mem_range.2 hlt, hu⟩, ?_⟩
  cases o
  simp_all [Pool.register]

theorem straight_call {i : Instr} (h : i.op.isCall = true) : i.isStraight = true := by
  unfold Opcode.isCall at h
  split at h
  all_goals rename_i hop
  · simp [Instr.isStraight, Instr.falls, Instr.target?, hop]
  · simp [Instr.isStraight, Instr.falls, Instr.target?, hop]
  · simp [Instr.isStraight, Instr.falls, Instr.target?, hop]
  · cases h

/-- The code of a call, from the save to the restore. -/
structure Invokes (saved : List (Operand × Operand)) (i : Instr) (s s' : EmitState) : Prop where
  unit : s'.unit = s.unit
  locals : s'.frame.locals = s.frame.locals
  values : s'.values = s.values
  refs : s'.refs = s.refs
  code : s'.asm.code.toList = s.asm.code.toList ++ (saveCode saved ++ i :: restoreCode saved)
  labels : s'.asm.labels = s.asm.labels
  accumulator : s.accumulatorWrites < s'.accumulatorWrites
  returned : s.returnWrites < s'.returnWrites
  registers : saved.map Prod.fst = s.values.live ++ s.refs.live
  slots : saved.map Prod.snd = (List.range' s.frame.spills saved.length).map (slotNumbered s.frame.locals)

theorem invoke_ok {op : Opcode} {callee : Operand} {fixed : Nat} {a : Unit} (hop : op.isCall = true)
    (h : invoke op callee fixed s = .ok a s') : ∃ saved, Invokes saved { op, a := callee, b := .int fixed } s s' := by
  obtain ⟨saved, s₁, hsave, h₁⟩ := bind_ok h
  obtain ⟨_, s₂, hcall, h₂⟩ := bind_ok h₁
  obtain ⟨_, s₃, hrestore, hun⟩ := bind_ok h₂
  obtain ⟨_, _, hget, hsave⟩ := bind_ok hsave
  cases hget
  obtain ⟨hs, hregs, hslots⟩ := saveAll_ok hsave
  have hr := restoreAll_ok hrestore
  cases hun
  have hcount : s₁.accumulatorWrites < s₂.accumulatorWrites ∧ s₁.returnWrites < s₂.returnWrites := by
    cases hcall
    simp only [hop, if_true]
    omega
  have hcalled : s₂.asm.code.toList = s₁.asm.code.toList ++ [{ op, a := callee, b := .int fixed }] ∧
      s₂.asm.labels = s₁.asm.labels ∧ s₂.unit = s₁.unit ∧ s₂.frame = s₁.frame ∧ s₂.values = s₁.values ∧
      s₂.refs = s₁.refs := by
    cases hcall
    exact ⟨Array.toList_push, rfl, rfl, rfl, rfl, rfl⟩
  obtain ⟨hcode, hlabels, hunit, hframe, hvalues, hrefs⟩ := hcalled
  refine ⟨saved, ?_⟩
  exact
    { unit := hr.unit.trans (hunit.trans hs.unit)
      locals := hr.locals.trans (by rw [hframe, hs.locals])
      values := hr.values.trans (hvalues.trans hs.values)
      refs := hr.refs.trans (hrefs.trans hs.refs)
      code := by
        change s₃.asm.code.toList = _
        rw [hr.code, hcode, hs.code]
        simp
      labels := hr.labels.trans (hlabels.trans hs.labels)
      accumulator := by
        change s.accumulatorWrites < s₃.accumulatorWrites
        rw [hr.accumulator, ← hs.accumulator]
        exact hcount.1
      returned := by
        change s.returnWrites < s₃.returnWrites
        rw [hr.returned, ← hs.returned]
        exact hcount.2
      registers := hregs
      slots := hslots }

namespace Invokes

variable {saved : List (Operand × Operand)} {i : Instr}

theorem apart (h : Invokes saved i s s') (hs : Ready K H s) :
    SlotsApart saved ∧ ∀ p ∈ saved, p.2.kind = .stack ∧ p.2.Outlives s.frame.locals := by
  refine slotsApart (fun p hp => ?_) h.slots
  have hmem : p.1 ∈ saved.map Prod.fst := List.mem_map_of_mem hp
  rw [h.registers] at hmem
  rcases List.mem_append.1 hmem with hmem | hmem
  · exact scratch_live (.inl hs.values) hmem
  · exact scratch_live (.inr hs.refs) hmem

/-- A live register is among those saved. -/
theorem mem_saved (h : Invokes saved i s s') (hs : Ready K H s) {o : Operand} (ho : o.isScratch = true)
    (hl : Live s.values s.refs o) : ∃ p ∈ saved, p.1 = o := by
  have hmem : o ∈ s.values.live ++ s.refs.live := by
    simp only [Operand.isScratch, Bool.or_eq_true, decide_eq_true_eq] at ho
    rcases ho with hk | hk
    · obtain ⟨j, hj, hu⟩ := hl.1 hk
      exact List.mem_append_left _ (mem_live (hk.trans hs.values.symm) hj hu)
    · obtain ⟨j, hj, hu⟩ := hl.2 hk
      exact List.mem_append_right _ (mem_live (hk.trans hs.refs.symm) hj hu)
  rw [← h.registers] at hmem
  exact List.mem_map.1 hmem

/-- What must not change across a call is a register that is saved or a constant. -/
theorem guarded_cases (h : Invokes saved i s s') (hc : ∀ o, ¬K.calm o) (hs : Ready K H s) {o : Operand}
    (ho : Guarded K H s s' o) : (∃ p ∈ saved, p.1 = o) ∨ o.Outlives s.frame.locals ∧ ∀ p ∈ saved, o ≠ p.2 := by
  have hslots := (h.apart hs).2
  have hacc := h.accumulator
  have hret := h.returned
  unfold Guarded at ho
  split at ho
  · exact .inl (h.mem_saved hs (by simp [Operand.isScratch, *]) (hs.live o ho))
  · exact .inl (h.mem_saved hs (by simp [Operand.isScratch, *]) (hs.live o ho))
  · omega
  · omega
  · exact absurd ho (hc o)
  · exact absurd ho (hc o)
  · exact ho.elim
  · rename_i hconst
    refine .inr ⟨?_, fun p hp heq => ?_⟩
    · unfold Operand.Outlives
      split <;> simp_all
    · have := (hslots p hp).1
      simp_all

theorem keeps (h : Invokes saved i s s') (hi : i.op.isCall = true) (hc : ∀ o, ¬K.calm o) (hs : Ready K H s) : Keeps K H s s' := by
  obtain ⟨hapart, hslots⟩ := h.apart hs
  have hstraight : ∀ j ∈ saveCode saved ++ i :: restoreCode saved, j.isStraight = true := by
    intro j hj
    rcases List.mem_append.1 hj with hj | hj
    · obtain ⟨p, -, rfl⟩ := List.mem_map.1 hj
      rfl
    · rcases List.mem_cons.1 hj with rfl | hj
      · exact straight_call hi
      · obtain ⟨p, -, rfl⟩ := List.mem_map.1 hj
        rfl
  refine
    { unit := h.unit, locals := h.locals
      values := by rw [h.values]
      refs := by rw [h.refs]
      asm := ⟨⟨_, h.code⟩, fun l ip hl => by rw [Assembler.address?, h.labels]; exact hl⟩
      accumulator := Nat.le_of_lt h.accumulator
      returned := Nat.le_of_lt h.returned
      live := fun o _ hl => by rw [h.values, h.refs]; exact hl
      safe := fun a ha o ho => ?_ }
  rw [Assembler.pos_append h.code]
  refine .block hstraight (ha.block h.code) fun V σ τ he => ?_
  exact exec_call hi he hapart (fun p hp => (hslots p hp).2) (h.guarded_cases hc hs ho)

end Invokes

theorem IsQuiet.spill : IsQuiet spill := fun s a s' h => by
  cases h
  exact ⟨rfl, rfl, rfl, rfl, rfl, fun _ _ h => h, rfl, rfl⟩

theorem IsQuiet.unspill (n : Nat) : IsQuiet (unspill n) := fun s a s' h => by
  cases h
  exact ⟨rfl, rfl, rfl, rfl, rfl, fun _ _ h => h, rfl, rfl⟩

theorem IsQuiet.endSpread (spread : Bool) : IsQuiet (endSpread spread) := fun s a s' h => by
  cases h
  exact ⟨rfl, rfl, rfl, rfl, rfl, fun _ _ h => h, rfl, rfl⟩

namespace Guards

variable {P : Pool → Pool → Prop}

theorem invoke {op : Opcode} {callee : Operand} {fixed : Nat} (hop : op.isCall = true) (hc : ∀ o, ¬K.calm o) :
    Guards K H P (invoke op callee fixed) fun _ => P := by
  intro s a s' hs hP h
  obtain ⟨saved, hi⟩ := invoke_ok hop h
  exact ⟨hi.keeps hop hc hs, by rw [hi.values, hi.refs]; exact hP⟩

/-- The spread count is saved to a spill slot. -/
theorem saveSpread (hc : ∀ o : Operand, o.Outlives K.locals → ¬K.calm o) : Guards K H P saveSpread fun _ => P := by
  unfold Emit.saveSpread
  refine .bind (.quiet .get) fun s => .ite (fun _ => ?_) fun _ => .pure fun _ _ h => h
  refine .learn (F := fun slot => slot.kind = .stack ∧ slot.Outlives K.locals) .spill (fun s _ _ hs h => ?_) fun slot hslot => ?_
  · cases h
    refine ⟨rfl, ?_⟩
    simp only [Operand.Outlives, Operand.stack, hs.locals]
    omega
  · exact .bind (.mov (dest_of_variable (.inr hslot.1) (hc slot hslot.2))) fun _ => .pure fun _ _ h => h

theorem beginSpread (hc : ∀ o : Operand, o.Outlives K.locals → ¬K.calm o) (spread : Bool) : Guards K H P (beginSpread spread) fun _ => P := by
  unfold Emit.beginSpread
  refine .ite (fun _ => .bind (saveSpread hc) fun saved => ?_) fun _ => .pure fun _ _ h => h
  refine .bind (.mov trivial) fun _ => .bind (.quiet fun s a s' h => ?_) fun _ => .pure fun _ _ h => h
  cases h
  exact ⟨rfl, rfl, rfl, rfl, rfl, fun _ _ h => h, rfl, rfl⟩

theorem restoreSpread (saved : Option Operand) : Guards K H P (restoreSpread saved) fun _ => P := by
  cases saved with
  | none => exact .pure fun _ _ h => h
  | some slot => exact .bind (.mov trivial) fun _ => .quiet (.unspill 1)

theorem pushArg {arg : NodeId} (h : Steady K rec (K.unit.argPart arg)) : Guards K H Any (pushArg rec arg) fun _ => Any := by
  refine .node fun an han => ?_
  simp only [AnalysisResult.argPart, han] at h
  refine .ite (fun hk => ?_) fun hk => ?_
  · rw [if_neg hk] at h
    exact .bind (push h) fun _ => .pure fun _ _ _ => trivial
  · rw [if_pos (Decidable.not_not.1 hk)] at h
    refine .bind (.quiet (.note _)) fun _ => .bind (exprAny h) fun v => .pull fun hv => ?_
    exact .bind (.emit rfl) fun _ => .bind (free hv) fun _ => .pure fun _ _ _ => trivial

theorem pushArgs {n : Node} {method : Bool} (hargs : ∀ arg ∈ n.list, Steady K rec (K.unit.argPart arg))
    (hrecv : method = true → Steady K rec (.expr (K.unit.receiver n))) :
    Guards K H Any (pushArgs rec n method) fun _ => Any := by
  have hfold := foldlM (K := K) (H := H) (f := fun k arg => do Pure.pure (k + (← Emit.pushArg rec arg))) n.list.reverse
    (fun k arg harg => .bind (pushArg (hargs arg (List.mem_reverse.1 harg))) fun _ => .pure fun _ _ _ => trivial) 0
  refine .bind hfold fun fixed => .ite (fun _ => .pure fun _ _ _ => trivial) fun hm => ?_
  have hm : method = true := by simpa using hm
  refine .node fun an han => .bind (push ?_) fun _ => .pure fun _ _ _ => trivial
  have := hrecv hm
  rwa [AnalysisResult.receiver, han] at this

theorem makeVariant {id : NodeId} {n : Node} {target : SymbolId} (h : ∀ x ∈ n.list, Steady K rec (.expr x)) :
    Guards K H Any (makeVariant rec id n target) fun o values refs => Own H o ∧ Live values refs o := by
  refine .bind (.quiet (.symbol target)) fun s => .bind (pushAll h) fun _ => .bind (.quiet (.typeRef _)) fun _ => ?_
  exact .bind (.emit rfl) fun _ => .bind (.quiet (.isResolved _)) fun r => .ite (fun _ => .throw) fun _ => accumulator

theorem calleeOperand {id : NodeId} {n : Node} {info : CallInfo} (hk : info.kind ≠ .variant)
    (h : info.kind = .value → Steady K rec (.expr n.a)) :
    Guards K H Any (calleeOperand rec id n info) fun p values refs =>
      (p.1.isCall = true ∧ Own H p.2) ∧ Live values refs p.2 := by
  unfold Emit.calleeOperand
  split
  · refine .bind (.quiet (.funcRef _)) fun _ => .pure fun _ _ _ => ?_
    exact ⟨⟨rfl, own_of_not_scratch rfl nofun⟩, live_of_not_scratch rfl⟩
  · refine .bind (.quiet (.nativeRef _)) fun _ => .pure fun _ _ _ => ?_
    exact ⟨⟨rfl, own_of_not_scratch rfl nofun⟩, live_of_not_scratch rfl⟩
  · have hvalue : info.kind = .value := by
      cases hi : info.kind <;> simp_all
    refine .bind (exprAny (h hvalue)) fun v => .pull fun hv => .bind (.quiet (.node n.a)) fun an => ?_
    exact .bind (stable hv _ id) fun o => .pull fun ho => .pure fun _ _ hl => ⟨⟨rfl, ho⟩, live_of_copy hl⟩

theorem call {id : NodeId} {n : Node} (hc : ∀ o, ¬K.calm o) (h : ∀ p ∈ K.unit.callParts id n, Steady K rec p) :
    Guards K H Any (call rec id n) fun o values refs => Own H o ∧ Live values refs o := by
  refine .look (F := fun r => r = K.unit) .unit (fun _ _ => Emits.unit) fun r hr => ?_
  subst hr
  split
  · rename_i info hinfo
    simp only [AnalysisResult.callParts, hinfo] at h
    refine .ite (fun hk => ?_) fun hk => ?_
    · simp only [hk] at h
      exact makeVariant fun x hx => h _ (List.mem_map_of_mem hx)
    · have hparts : ∀ p ∈ (if info.kind = .value then [Place.expr n.a] else []) ++ n.list.map K.unit.argPart ++
          (if info.method then [.expr (K.unit.receiver n)] else []), Steady K rec p := by
        cases hik : info.kind <;> simp_all
      have hargs : ∀ arg ∈ n.list, Steady K rec (K.unit.argPart arg) := fun arg harg =>
        hparts _ (List.mem_append_left _ (List.mem_append_right _ (List.mem_map_of_mem harg)))
      have hrecv : info.method = true → Steady K rec (.expr (K.unit.receiver n)) := fun hm =>
        hparts _ (List.mem_append_right _ (by simp [hm]))
      refine .bind (calleeOperand hk fun hv => hparts _ (by simp [hv])) fun p => .pull fun hp => ?_
      refine .bind (.quiet .unit) fun r => .bind (beginSpread (fun o _ => hc o) _) fun saved => ?_
      refine .bind ((pushArgs hargs hrecv).mono (fun _ _ _ => trivial) fun _ _ _ h => h) fun fixed => ?_
      refine .bind (.quiet (.endSpread _)) fun _ => .bind (free hp.2) fun _ => .bind (invoke hp.1 hc) fun _ => ?_
      refine .bind (restoreSpread saved) fun _ => .bind (.quiet (.typeKind _)) fun k => ?_
      split
      · exact plain rfl (by rintro ⟨⟩)
      · exact plain rfl (by rintro ⟨⟩)
  · exact .throw

/-! ## Every kind of expression -/

theorem value {id : NodeId} {n : Node} (hc : n.kind = .assign ∨ n.kind = .call → ∀ o, ¬K.calm o)
    (hparts : ∀ p ∈ K.unit.exprParts id n, Steady K rec p) :
    Guards K H Any (value rec id n) fun o values refs => Own H o ∧ Live values refs o := by
  unfold Emit.value
  unfold AnalysisResult.exprParts at hparts
  split
  all_goals rename_i hk
  all_goals simp only [hk] at hparts
  case h_3 =>
    rw [← bind_pure (Emit.stringRef _)]
    refine .look (.stringRef _) (fun _ _ => Emits.stringRef _) fun o ho => ?_
    exact plain (by simp [Operand.isScratch, ho]) (by rw [ho]; rintro ⟨⟩)
  case h_6 => exact name
  case h_7 => exact binary (hparts _ (by simp)) (hparts _ (by simp)) (logical (hparts _ (by simp)) (hparts _ (by simp)))
  case h_8 => exact unary (hparts _ (by simp))
  case h_9 => exact assign (hc (.inl hk)) hparts
  case h_10 => exact call (hc (.inr hk)) hparts
  case h_11 =>
    exact .bind (operands2 (hparts _ (by simp)) (hparts _ (by simp))) fun p => .owned2 fun hl hr => consume rfl hl hr
  case h_12 =>
    refine .bind (exprAny (hparts _ (by simp))) fun x => .pull fun hx => .bind (.quiet (.fieldOperand id n)) fun f => ?_
    exact .bind (.emit rfl) fun _ => .bind (free hx) fun _ => accumulator
  case h_13 =>
    exact .bind (pushAll fun x hx => hparts _ (List.mem_map_of_mem hx)) fun _ => .bind (.emit rfl) fun _ => accumulator
  case h_14 =>
    refine .bind (.forM _ fun p hp => .node fun pn hpn => ?_) fun _ => .bind (.emit rfl) fun _ => accumulator
    have hmem : pn ∈ n.list.filterMap K.unit.tree.get? := List.mem_filterMap.2 ⟨p, hp, hpn⟩
    have hpair := fun x hx => hparts x (List.mem_flatMap.2 ⟨pn, hmem, hx⟩)
    exact .bind (push (hpair _ (by simp))) fun _ => push (hpair _ (by simp))
  case h_15 =>
    exact .bind (pushAll fun x hx => hparts _ (List.mem_map_of_mem hx)) fun _ => .bind (.emit rfl) fun _ => accumulator
  case h_16 => exact .givenFields (makeStruct hparts)
  case h_17 => exact cast (hparts _ (by simp))
  case h_18 => exact literal
  case h_19 => exact .throw
  all_goals exact plain rfl (by rintro ⟨⟩)

theorem exprStep {id : NodeId} {inRegister : Bool}
    (hc : K.unit.tree.kind id = .assign ∨ K.unit.tree.kind id = .call → ∀ o, ¬K.calm o)
    (hparts : ∀ p ∈ K.unit.parts (.expr id), Steady K rec p) :
    Guards K H Any (exprStep rec id inRegister) fun o values refs =>
      Own H o ∧ (inRegister = true → o.isScratch = true) ∧ Live values refs o := by
  refine .node fun n hn => .bind (.quiet (.isResolved _)) fun r => .ite (fun _ => .throw) fun _ => ?_
  simp only [AnalysisResult.parts, hn, Option.map_some, Option.getD_some] at hparts
  simp only [Tree.kind, hn] at hc
  refine .bind (.quiet (.note _)) fun _ => .bind (value hc hparts) fun op => .pull fun hop => ?_
  refine .ite (fun _ => ?_) fun hr => .pure fun _ _ hl => ⟨hop, fun h => absurd h hr, hl⟩
  exact (toRegister hop _ id).mono (fun _ _ hl => hl) fun _ _ _ hx => ⟨hx.1, fun _ => hx.2.1, live_of_copy hx.2.2⟩

end Guards

end TreeCompiler.Emit

namespace TreeCompiler

namespace AnalysisResult

/-- An assignment or a call. -/
def IsStore (u : AnalysisResult) : Place → Prop
  | .expr id => u.tree.kind id = .assign ∨ u.tree.kind id = .call
  | _ => False

/-- A place whose code comes to an assignment or a call. -/
def Stores (u : AnalysisResult) (p : Place) : Prop := ∃ q, u.Reaches p q ∧ u.IsStore q

theorem stores_of_part {u : AnalysisResult} {p q : Place} (hq : q ∈ u.parts p) (h : u.Stores q) : u.Stores p := by
  obtain ⟨r, hr, hs⟩ := h
  exact ⟨r, .head hq hr, hs⟩

end AnalysisResult

namespace Emit

variable {K : Watch}

theorem emitter_steady (fuel : Nat) : ∀ p, (K.unit.Stores p → ∀ o, ¬K.calm o) → Steady K (emitter fuel) p := by
  induction fuel with
  | zero =>
    intro p _
    cases p with
    | expr id => exact ⟨fun _ _ => emitter_good 0 _ fun _ _ _ _ _ _ _ _ _ => trivial, fun _ _ => .throw⟩
    | stmt id => trivial
    | zero t => exact fun _ _ => .throw
  | succ fuel ih =>
    intro p hp
    have hparts : ∀ q ∈ K.unit.parts p, Steady K (emitter fuel) q :=
      fun q hq => ih q fun h => hp (AnalysisResult.stores_of_part hq h)
    cases p with
    | expr id =>
      refine ⟨fun _ _ => emitter_good (fuel + 1) _ fun _ _ _ _ _ _ _ _ _ => trivial, fun H r => ?_⟩
      exact Guards.exprStep (fun hk => hp ⟨.expr id, .refl, hk⟩) hparts
    | stmt id => trivial
    | zero t => exact fun H at' => Guards.zeroStep hparts

end Emit

end TreeCompiler
