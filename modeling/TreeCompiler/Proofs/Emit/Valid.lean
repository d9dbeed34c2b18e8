import TreeCompiler.Proofs.Emit.Describe
import TreeCompiler.Proofs.Emit.Landing

/-!
# Generated programs are valid

* `Program.Valid p`, `validate_eq_ok_iff` : what it means that a program passes validation;
* `Landed.knows_in_range` : what an emitted operand names is in the range that validation asks for. Global slots are those that
  the scope table gave out, all others are rows;
* `generate_valid` : a generated program passes, and the types of the values it builds have a row.
-/

namespace TreeCompiler

namespace Program

/-- An operand is no label, and what it names is in its table. -/
def InRange (p : Program) (o : Operand) : Prop :=
  o.kind ≠ .label ∧ ∀ limit, p.limit? o.kind = some limit → 0 ≤ o.val ∧ o.val < (limit : Int)

structure Valid (p : Program) : Prop where
  known : ∀ i ∈ p.code.toList, i.op.isKnown = true
  operands : ∀ i ∈ p.code.toList, ∀ o ∈ i.operands, p.InRange o
  entry : 0 ≤ p.entry ∧ p.entry ≤ (p.code.size : Int)

theorem validateOperand_eq_ok_iff {p : Program} {ip : Nat} {o : Operand} : p.validateOperand ip o = .ok () ↔ p.InRange o := by
  unfold validateOperand InRange
  by_cases hk : o.kind = .label
  · simp [hk]
  · rw [if_neg hk]
    cases hlimit : p.limit? o.kind with
    | none => simp [hk]
    | some limit =>
      by_cases hout : (o.val < 0 || (limit : Int) ≤ o.val) = true
      · simp only [hout, if_true, hk, ne_eq, not_false_eq_true, Option.some.injEq, true_and, reduceCtorEq, false_iff]
        simp only [Bool.or_eq_true, decide_eq_true_eq] at hout
        intro h
        have hrange := h limit rfl
        omega
      · simp only [hout, hk, ne_eq, not_false_eq_true, Option.some.injEq, true_and]
        simp only [Bool.or_eq_true, decide_eq_true_eq, not_or, Int.not_lt, Int.not_le] at hout
        simp only [Bool.false_eq_true, if_false, true_iff]
        rintro limit rfl
        exact hout

theorem validateInstr_eq_ok_iff {p : Program} {ip : Nat} {i : Instr} :
    p.validateInstr ip i = .ok () ↔ i.op.isKnown = true ∧ ∀ o ∈ i.operands, p.InRange o := by
  unfold validateInstr
  cases hknown : i.op.isKnown with
  | false => simp
  | true => simp [Except.forM_eq_ok_iff, validateOperand_eq_ok_iff]

theorem validate_eq_ok_iff {p : Program} : p.validate = .ok () ↔ p.Valid := by
  have hcode : (forM p.code.toList.zipIdx fun x => p.validateInstr x.2 x.1) = .ok () ↔
      ∀ i ∈ p.code.toList, i.op.isKnown = true ∧ ∀ o ∈ i.operands, p.InRange o := by
    simp only [Except.forM_eq_ok_iff, validateInstr_eq_ok_iff]
    exact ⟨fun h i hi => by
      obtain ⟨k, hk⟩ := List.mem_iff_getElem?.1 hi
      exact h (i, k) (List.mk_mem_zipIdx_iff_getElem?.2 hk), fun h x hx => h x.1 (List.fst_mem_of_mem_zipIdx hx)⟩
  have hvalidate : p.validate = ((forM p.code.toList.zipIdx fun x => p.validateInstr x.2 x.1) >>= fun _ =>
      if (p.entry < 0 || (p.code.size : Int) < p.entry) = true then .error (.entryOutOfRange p.entry) else .ok ()) := rfl
  rw [hvalidate]
  constructor
  · intro h
    obtain ⟨⟨⟩, hok, hentry⟩ := Except.bind_ok h
    have hall := hcode.1 hok
    refine ⟨fun i hi => (hall i hi).1, fun i hi => (hall i hi).2, ?_⟩
    split at hentry
    · cases hentry
    · rename_i hout
      simpa only [Bool.or_eq_true, decide_eq_true_eq, not_or, Int.not_lt] using hout
  · rintro ⟨hknown, hoperands, hentry⟩
    rw [hcode.2 fun i hi => ⟨hknown i hi, hoperands i hi⟩]
    refine if_neg ?_
    simpa only [Bool.or_eq_true, decide_eq_true_eq, not_or, Int.not_lt] using hentry

end Program

namespace Emit

variable {u : AnalysisResult} {entry : Label} {parts : List (List Instr)} {s : EmitState} {p : Program}

/-- What an emitted operand names is in range; for a global that is a slot that the scope table gave out. -/
theorem Landed.knows_in_range (h : Landed u entry parts s p) (hglobals : s.asm.globals = u.scopes.globals)
    (hlaid : ScopeTable.Laid u.tree u.scopes) {o : Operand} (ho : s.Knows o) : p.InRange o := by
  have hrows : p.funcs.size = s.asm.funcs.size := h.size.trans h.ranged.queued.size
  obtain ⟨k, v⟩ := o
  unfold EmitState.Knows at ho
  unfold Program.InRange
  cases k <;> simp only [Program.limit?] at ho ⊢ <;> simp only [ne_eq, reduceCtorEq, not_false_eq_true, true_and,
    Option.some.injEq, forall_eq', false_imp_iff, implies_true]
  case text => rwa [h.finished.strings]
  case func => rwa [hrows]
  case native => rwa [h.finished.natives]
  case global =>
    obtain ⟨id, sym, hsym, hstorage⟩ := ho
    rw [h.ranged.unit] at hsym
    have hfits := hlaid.fits id sym hsym
    rw [hstorage] at hfits
    cases hfits with
    | @global slot hslot =>
      rw [h.finished.globals, hglobals]
      exact ⟨Int.natCast_nonneg slot, Int.ofNat_lt.2 hslot⟩

theorem Landed.valid (h : Landed u entry parts s p) (hfin : s.asm.finish entry = .ok p)
    (hglobals : s.asm.globals = u.scopes.globals) (hlaid : ScopeTable.Laid u.tree u.scopes) : p.Valid where
  known i' hi' := by
    obtain ⟨k, hk, hi'⟩ := h.exists_mem_part hi'
    obtain ⟨i, hlands, hsettled⟩ := h.instr hk hi'
    rw [hlands.op]
    exact hsettled.known
  operands i' hi' o' ho' := by
    rcases h.operand hi' ho' with hknown | ⟨ip, rfl, hip⟩
    · exact h.knows_in_range hglobals hlaid hknown
    · refine ⟨nofun, ?_⟩
      rintro _ ⟨⟩
      exact ⟨Int.natCast_nonneg ip, Int.ofNat_lt.2 hip⟩
  entry := by
    obtain ⟨-, -, ip, hip, hentry⟩ := Assembler.finish_ok hfin
    rw [h.ranged.entry] at hip
    cases hip
    rw [hentry]
    exact ⟨Int.le_refl _, Int.natCast_nonneg _⟩

/-- The type of a value that is built has a row in the table of the assembler. -/
theorem Described.row_in_range (hd : Described s) {k : Nat} {t : TypeId} (ht : s.typeRows.get? t = some k) :
    k < s.asm.types.size := by
  obtain ⟨-, r, -, hr, -⟩ := hd.met t k ht
  exact (Array.getElem?_eq_some_iff.1 hr).1

end Emit

theorem AnalysisResult.generate_ok_iff {u : AnalysisResult} {o : EmitOptions} {tracer : Tracer} {r : Program × DebugTable} :
    (u.generate o tracer).1 = .ok r ↔ ∃ s, Emit.run (Emit.start u o tracer) = .ok r s := by
  unfold AnalysisResult.generate EStateM.run
  cases Emit.run (Emit.start u o tracer) <;> simp

/-- For every tree that was analyzed and all sizes of the pools: a program that is generated passes validation. Validation
does not look at the types, and the instructions that build a struct or a union value name rows of the type table. -/
theorem AnalysisResult.generate_valid (tree : Tree) (options : AnalysisOptions) (t : Tracer) (o : EmitOptions) (tracer : Tracer)
    {p : Program} {table : DebugTable}
    (h : ((tree.analyze options t).state.result.generate o tracer).1 = .ok (p, table)) :
    p.validate = .ok () ∧
    ∀ i ∈ p.code, i.op = .makeStruct ∨ i.op = .makeVariant → ∃ k < p.types.size, i.a = .type k := by
  obtain ⟨s, hrun⟩ := AnalysisResult.generate_ok_iff.1 h
  obtain ⟨entry, parts, e, hlen, hfin, -, hglobals, -⟩ := Emit.run_ranged hrun
  refine ⟨Program.validate_eq_ok_iff.2 ((e.landed hlen hfin).valid hfin hglobals (tree.analyze_sound options t).laid),
    fun i hi hop => ?_⟩
  have hd := ((inferInstance : Emit.Performs Emit.run).acts _ _ _ hrun).described (Emit.described_start _ o tracer)
  obtain ⟨j, hj, hres⟩ := exists_mem_of_forall₂ (Assembler.finish_ok hfin).1 (Array.mem_toList_iff.2 hi)
  have hbuild : j.op.isBuild = true := by
    rw [← hres.op]
    rcases hop with hop | hop <;> rw [hop] <;> rfl
  obtain ⟨_, k, hrow, hb⟩ := hd.code j (Array.mem_toList_iff.1 hj) hbuild
  rw [Assembler.finish_types hfin]
  exact ⟨k, hd.row_in_range hrow, (hres.builds hb).row⟩

/-- Two structs are built. They have the same name, and so both name the first row. -/
theorem AnalysisResult.generate_valid_namesakes :
    ∃ p table, ((Emit.namesakes.analyze {} {}).state.result.generate {} {}).1 = .ok (p, table) ∧
      p.code.toList.countP (·.op = .makeStruct) = 2 ∧ p.types.size = 1 ∧ p.validate = .ok () ∧
      ∀ i ∈ p.code, i.op = .makeStruct → i.a = .type 0 := by
  have hview : Emit.view? Emit.run (fun r _ => (r.1.code.toList.countP (·.op = .makeStruct), r.1.types.size))
      (Emit.start (Emit.namesakes.analyze {} {}).state.result {} {}) = some (2, 1) := by decide +kernel
  obtain ⟨⟨p, table⟩, s, hrun, hcounts⟩ := Emit.view?_eq_some hview
  obtain ⟨hcount, htypes⟩ := Prod.mk.inj hcounts
  have hgenerate := AnalysisResult.generate_ok_iff.2 ⟨s, hrun⟩
  obtain ⟨hvalid, hbuilds⟩ := generate_valid Emit.namesakes {} {} {} {} hgenerate
  refine ⟨p, table, hgenerate, hcount, htypes, hvalid, fun i hi hop => ?_⟩
  obtain ⟨k, hk, hrow⟩ := hbuilds i hi (.inl hop)
  rw [htypes, Nat.lt_one_iff] at hk
  rw [hrow, hk]

end TreeCompiler
