import TreeCompiler.Proofs.Emit.Ranges

/-!
# Control stays in the code of a function

Finishing a program replaces each label by its address and leaves all else. So what holds of a range of code before holds of
the part of the program between two starts.

* `Assembler.Lands` : an operand and what it is in the finished program;
* `Landed u s p` : the parts of a program are the ranges that were emitted;
* `code_stays_in_range` : a part ends with `halt` or `ret`, unless it is that of a function without a body, and jumps stay in
  their part.
-/

namespace TreeCompiler

namespace Assembler

/-- What an operand is in the finished program. -/
structure Lands (a : Assembler) (o o' : Operand) : Prop where
  same : o.kind ≠ .label → o' = o
  address : ∀ l, o = .label l → ∃ ip, a.address? l = some ip ∧ o' = .address ip

structure LandsInstr (asm : Assembler) (i i' : Instr) : Prop where
  op : i'.op = i.op
  a : asm.Lands i.a i'.a
  b : asm.Lands i.b i'.b
  c : asm.Lands i.c i'.c

variable {a : Assembler} {ip : Nat} {i i' : Instr} {o o' : Operand}

theorem resolveOperand_lands (h : a.resolveOperand ip o = .ok o') : a.Lands o o' := by
  unfold resolveOperand at h
  split at h
  · rename_i hk
    cases h
    refine ⟨fun _ => rfl, ?_⟩
    rintro l rfl
    exact absurd rfl hk
  · rename_i hk
    refine ⟨fun hne => absurd hne hk, ?_⟩
    rintro l rfl
    cases hl : a.address? l with
    | none => simp [Operand.label, hl] at h
    | some ip' =>
      simp only [Operand.label, Int.toNat_natCast, hl, Except.ok.injEq] at h
      exact ⟨ip', rfl, h.symm⟩

theorem mapOperands_lands (h : i.mapOperands (a.resolveOperand ip) = .ok i') : a.LandsInstr i i' := by
  obtain ⟨x, ha, h₁⟩ := Except.bind_ok h
  obtain ⟨y, hb, h₂⟩ := Except.bind_ok h₁
  obtain ⟨z, hc, h₃⟩ := Except.bind_ok h₂
  cases h₃
  exact ⟨rfl, resolveOperand_lands ha, resolveOperand_lands hb, resolveOperand_lands hc⟩

theorem LandsInstr.operand (h : a.LandsInstr i i') (ho : o' ∈ i'.operands) : ∃ o ∈ i.operands, a.Lands o o' := by
  simp only [Instr.operands, List.mem_cons, List.not_mem_nil, or_false] at ho ⊢
  rcases ho with rfl | rfl | rfl
  · exact ⟨_, .inl rfl, h.a⟩
  · exact ⟨_, .inr (.inl rfl), h.b⟩
  · exact ⟨_, .inr (.inr rfl), h.c⟩

theorem LandsInstr.target (h : a.LandsInstr i i') (ho : i'.target? = some o') : ∃ o, i.target? = some o ∧ a.Lands o o' := by
  unfold Instr.target? at ho ⊢
  rw [h.op] at ho
  split at ho
  · cases ho
    exact ⟨_, rfl, h.a⟩
  all_goals first
    | (cases ho; exact ⟨_, rfl, h.b⟩)
    | cases ho

/-- What a finished program has of the assembler. -/
structure Finished (a : Assembler) (p : Program) : Prop where
  code : List.Forall₂ a.LandsInstr a.code.toList p.code.toList
  strings : p.strings = a.strings
  natives : p.natives = a.natives
  types : p.types = a.types
  globals : p.globals = a.globals

theorem finish_finished {entry : Label} {p : Program} (h : a.finish entry = .ok p) : a.Finished p := by
  obtain ⟨code, hcode, h₁⟩ := Except.bind_ok h
  obtain ⟨funcs, -, h₂⟩ := Except.bind_ok h₁
  have hlands := (Except.forall₂_of_mapM hcode).imp fun _ _ => mapOperands_lands
  have hfst : a.code.toList = a.code.toList.zipIdx.map Prod.fst := by simp
  cases he : a.address? entry with
  | none =>
    rw [he] at h₂
    cases h₂
  | some ip =>
    rw [he] at h₂
    cases h₂
    refine ⟨?_, rfl, rfl, rfl, rfl⟩
    rw [hfst, List.forall₂_map_left_iff]
    exact hlands

end Assembler

/-- Where the code of a part starts. After the last part that is the end of the code. -/
def Program.start (p : Program) (k : Nat) : Nat := (p.starts[k]?).getD p.code.size

namespace Emit

variable {u : AnalysisResult} {entry : Label} {parts : List (List Instr)} {s : EmitState} {p : Program}

theorem Assembled.start {a : Assembler} (h : Assembled parts a p) {k : Nat} (hk : k ≤ parts.length) :
    p.start k = offset parts k := by
  rw [Program.start, h.starts k hk, offset, List.length_flatten, List.map_take]

theorem Assembled.part_of {R : Instr → Instr → Prop} {a : Assembler} (h : Assembled parts a p)
    (hcode : List.Forall₂ R parts.flatten p.code.toList) {k : Nat} {is : List Instr} (hk : parts[k]? = some is) :
    List.Forall₂ R is (p.part k) := by
  obtain ⟨hlt, rfl⟩ := List.getElem?_eq_some_iff.1 hk
  rw [Program.part, h.starts k (Nat.le_of_lt hlt), h.starts (k + 1) hlt, ← List.drop_take_succ_flatten_eq_getElem]
  exact List.forall₂_drop _ (List.forall₂_take _ hcode)

/-- A program with the ranges of its code. -/
structure Landed (u : AnalysisResult) (entry : Label) (parts : List (List Instr)) (s : EmitState) (p : Program) : Prop
    where
  ranged : Ranged u entry parts s
  assembled : Assembled parts s.asm p
  length : parts.length = s.work.size + 1
  size : p.funcs.size = s.work.size
  finished : s.asm.Finished p

theorem Landed.start (h : Landed u entry parts s p) {k : Nat} (hk : k ≤ p.funcs.size + 1) : p.start k = offset parts k := by
  have hlength := h.length
  have hsize := h.size
  exact h.assembled.start (by omega)

theorem Landed.part (h : Landed u entry parts s p) {k : Nat} {is : List Instr} (hk : parts[k]? = some is) :
    List.Forall₂ s.asm.LandsInstr is (p.part k) :=
  h.assembled.part_of (h.ranged.code ▸ h.finished.code) hk

theorem Landed.exists_part (h : Landed u entry parts s p) {k : Nat} (hk : k ≤ p.funcs.size) : ∃ is, parts[k]? = some is := by
  have hlength := h.length
  have hsize := h.size
  exact ⟨_, List.getElem?_eq_getElem (by omega)⟩

/-- An instruction of a part comes from one that was emitted. -/
theorem Landed.instr (h : Landed u entry parts s p) {k : Nat} (hk : k ≤ p.funcs.size) {i' : Instr} (hi' : i' ∈ p.part k) :
    ∃ i, s.asm.LandsInstr i i' ∧ s.Settled (p.start k) (p.start (k + 1)) i := by
  obtain ⟨is, his⟩ := h.exists_part hk
  obtain ⟨i, hi, hlands⟩ := exists_mem_of_forall₂ (h.part his) hi'
  rw [h.start (by omega), h.start (by omega)]
  exact ⟨i, hlands, h.ranged.settled k is his i hi⟩

theorem Landed.ops (h : Landed u entry parts s p) {k : Nat} {is : List Instr} (hk : parts[k]? = some is) :
    (p.part k).map (·.op) = is.map (·.op) := by
  have hpart := h.part hk
  clear hk
  generalize p.part k = js at hpart ⊢
  induction hpart with
  | nil => rfl
  | cons hi _ ih => rw [List.map_cons, List.map_cons, hi.op, ih]

theorem Landed.exists_mem_part (h : Landed u entry parts s p) {i : Instr} (hi : i ∈ p.code.toList) :
    ∃ k ≤ p.funcs.size, i ∈ p.part k := by
  have hlength := h.length
  have hsize := h.size
  rw [← h.assembled.tiled, List.mem_flatMap] at hi
  obtain ⟨k, hk, hi⟩ := hi
  exact ⟨k, by have := List.mem_range.1 hk; omega, hi⟩

/-- An operand of the program names what there is, or it is an address in the code. -/
theorem Landed.operand (h : Landed u entry parts s p) {i' : Instr} (hi' : i' ∈ p.code.toList) {o' : Operand}
    (ho' : o' ∈ i'.operands) : s.Knows o' ∨ ∃ ip, o' = .address ip ∧ ip < p.code.size := by
  obtain ⟨k, hk, hi'⟩ := h.exists_mem_part hi'
  have hlength := h.length
  have hsize := h.size
  obtain ⟨i, hlands, hsettled⟩ := h.instr hk hi'
  obtain ⟨o, ho, hland⟩ := hlands.operand ho'
  rcases hsettled.operands o ho with hknown | ⟨l, rfl, hinside⟩
  · rw [hland.same (fun hlabel => by unfold EmitState.Knows at hknown; rw [hlabel] at hknown; exact hknown)]
    exact .inl hknown
  · obtain ⟨ip, hip, rfl⟩ := hland.address l rfl
    refine .inr ⟨ip, rfl, Nat.lt_of_lt_of_le (hinside.place ip hip).2 ?_⟩
    rw [h.start (by omega)]
    calc offset parts (k + 1) ≤ offset parts parts.length := offset_le (by omega)
      _ = parts.flatten.length := offset_length parts
      _ = p.code.size := h.assembled.code.length_eq

theorem Ranged.landed (e : Ranged u entry parts s) (hlen : parts.length = s.work.size + 1)
    (hfin : s.asm.finish entry = .ok p) : Landed u entry parts s p where
  ranged := e
  assembled := e.toEmitted.finish hlen hfin
  length := hlen
  size := by
    rw [e.queued.size]
    exact (Assembler.finish_ok hfin).2.1.length_eq.symm
  finished := Assembler.finish_finished hfin

/-- For every unit: the code of a program is cut into the entry code and the code of each function in the order of the rows.
The entry code ends with `halt`. The code of a function ends with `ret`, and without a body it is the reservation only. Jumps
stay in the part they are in. -/
theorem code_stays_in_range {o : EmitOptions} {tracer : Tracer} {table : DebugTable}
    (h : run (start u o tracer) = .ok (p, table) s) :
    (List.range (p.funcs.size + 1)).flatMap p.part = p.code.toList ∧
    (p.part 0).getLast?.map (·.op) = some .halt ∧
    (∀ k < p.funcs.size, ∃ fn n, s.work[k]? = some fn ∧ u.declarationOf? fn = some n ∧
      (n.b ≠ 0 → (p.part (k + 1)).getLast?.map (·.op) = some .ret) ∧
      (n.b = 0 → (p.part (k + 1)).map (·.op) = [.reserve])) ∧
    ∀ k ≤ p.funcs.size, ∀ i ∈ p.part k, ∀ o, i.target? = some o →
      ∃ ip, o = .address ip ∧ p.start k ≤ ip ∧ ip < p.start (k + 1) := by
  obtain ⟨entry, parts, e, hlen, hfin, -⟩ := run_ranged h
  have hp := e.landed hlen hfin
  refine ⟨?_, ?_, fun k hk => ?_, fun k hk i' hi' o' ho' => ?_⟩
  · rw [hp.size, ← hp.length]
    exact hp.assembled.tiled
  · obtain ⟨is, his⟩ := hp.exists_part (Nat.zero_le _)
    rw [← List.getLast?_map, hp.ops his, List.getLast?_map]
    exact hp.ranged.halts is his
  · obtain ⟨is, his⟩ := hp.exists_part hk
    obtain ⟨fn, n, hfn, hn, hshaped⟩ := hp.ranged.shaped k is his
    rw [← List.getLast?_map, hp.ops his, List.getLast?_map]
    exact ⟨fn, n, hfn, hn, hshaped.ends, hshaped.absent⟩
  · obtain ⟨i, hlands, hsettled⟩ := hp.instr hk hi'
    obtain ⟨o, ho, hland⟩ := hlands.target ho'
    obtain ⟨l, rfl, hinside⟩ := hsettled.target o ho
    obtain ⟨ip, hip, rfl⟩ := hland.address l rfl
    exact ⟨ip, rfl, hinside.place ip hip⟩

/-- A function that leaves a loop at once. -/
def leavesLoop : Tree where
  nodes := #[
    .boolLit true, .breakStmt "", .block [2], .whileLoop 1 3, .block [4], .func "f" [] 0 5,
    .ident ["f"], .call 7 [], .exprStmt 8, { kind := .file, list := [6, 9] }]
  roots := [10]

theorem leavesLoop_stays_in_range :
    let u := (leavesLoop.analyze {} {}).state.result
    ∃ p table s, run (start u {} {}) = .ok (p, table) s ∧ p.funcs.size = 1 ∧
      ∀ i ∈ p.part 1, ∀ o, i.target? = some o → ∃ ip, o = .address ip ∧ p.start 1 ≤ ip ∧ ip < p.start 2 := by
  have hview : view? run (fun r _ => r.1.funcs.size) (start (leavesLoop.analyze {} {}).state.result {} {}) = some 1 := by
    decide +kernel
  obtain ⟨⟨p, table⟩, s, hrun, hsize⟩ := view?_eq_some hview
  obtain ⟨-, -, -, hjumps⟩ := code_stays_in_range hrun
  exact ⟨p, table, s, hrun, hsize, hjumps 1 (Nat.le_of_eq hsize.symm)⟩

/-- A function without a body that is called. -/
def absentBody : Tree where
  nodes := #[.func "f" [] 0 0, .ident ["f"], .call 2 [], .exprStmt 3, { kind := .file, list := [1, 4] }]
  roots := [5]

/-- It is accepted, and behind its reservation the code is over. -/
theorem absent_body_runs_on :
    let e := absentBody.analyze {} {}
    e.failure = none ∧ e.hasErrors = false ∧
    ∃ p table s, run (start e.state.result {} {}) = .ok (p, table) s ∧
      ¬∀ k ≤ p.funcs.size, ∃ op, (op = .ret ∨ op = .halt) ∧ (p.part k).getLast?.map (·.op) = some op := by
  obtain ⟨hfailure, herrors, hview⟩ :
      let e := absentBody.analyze {} {}
      e.failure = none ∧ e.hasErrors = false ∧
        view? run (fun r _ => (r.1.funcs.size, (r.1.part 1).getLast?.map (·.op))) (start e.state.result {} {}) =
          some (1, some .reserve) := by decide +kernel
  refine ⟨hfailure, herrors, ?_⟩
  obtain ⟨⟨p, table⟩, s, hrun, hlast⟩ := view?_eq_some hview
  obtain ⟨hsize, hlast⟩ := Prod.mk.inj hlast
  refine ⟨p, table, s, hrun, fun hall => ?_⟩
  obtain ⟨op, hop, hends⟩ := hall 1 (Nat.le_of_eq hsize.symm)
  rw [hlast] at hends
  cases hends
  rcases hop with hop | hop <;> cases hop

end Emit

end TreeCompiler
