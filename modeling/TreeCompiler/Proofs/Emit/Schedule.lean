import TreeCompiler.Proofs.Emit.Landing

/-!
# Every referenced function is emitted once

A function gets its row when it is first referenced, and the queue has the functions in the order of their rows. Rows and
queue only grow, also while an attempt is made that is taken back, so each function of the queue is emitted once, into the
range that its row and the debug table name.

* `Row u s p k fn` : the row of the function `fn` and its code;
* `Scheduled u s p table` : the queue, the rows, the code and the debug table agree;
* `run_scheduled` : they do at the end of each run.
-/

namespace TreeCompiler.Emit

variable {u : AnalysisResult} {entry : Label} {parts : List (List Instr)} {s : EmitState} {p : Program} {table : DebugTable}

/-- The row of `fn` names the function, and its entry was placed once: at the reservation of the frame, where the code of
the function starts. -/
structure Row (u : AnalysisResult) (s : EmitState) (p : Program) (k : Nat) (fn : SymbolId) : Prop where
  exists_row : ∃ r row, s.asm.funcs[k]? = some r ∧ p.funcs[k]? = some row ∧ consult (funcName fn) u = .ok row.name ∧
    s.asm.bound.toList.count r.entry = 1 ∧ s.asm.address? r.entry = some (p.start (k + 1)) ∧
    row.entry = (p.start (k + 1) : Int) ∧ p.code[p.start (k + 1)]? = some { op := .reserve, a := .int row.frame }

structure Scheduled (u : AnalysisResult) (s : EmitState) (p : Program) (table : DebugTable) : Prop where
  /-- A function is queued once. -/
  distinct : s.work.toList.Nodup
  /-- The row a function was given is its place in the queue, and there are no other rows. -/
  rowOf : ∀ fn k, (∃ l, s.funcs.get? fn = some (k, l)) ↔ s.work[k]? = some fn
  size : p.funcs.size = s.work.size
  /-- The code is what the entry code and one emission of each queued function append. -/
  emitted : ∃ fuel entry s₀ s₁ s₂, s₀.asm = {} ∧ emitEntry (emitter fuel) s₀ = .ok entry s₁ ∧
    s.work.toList.forM (emitFunc (emitter fuel)) s₁ = .ok ⟨⟩ s₂ ∧ s.asm.code = s₂.asm.code
  operands : ∀ i ∈ p.code.toList, ∀ o ∈ i.operands, o.kind = .func → ∃ k < p.funcs.size, o = .func k
  rows : ∀ k fn, s.work[k]? = some fn → Row u s p k fn
  /-- The parts follow each other without gaps, from the start of the code to its end. -/
  first : p.start 0 = 0
  rising : ∀ k ≤ p.funcs.size, p.start k < p.start (k + 1)
  last : p.start (p.funcs.size + 1) = p.code.size
  tiled : (List.range (p.funcs.size + 1)).flatMap p.part = p.code.toList
  /-- The debug table has the same ranges in the same order. -/
  debug : table.funcs.toList.map (fun f => (f.name, f.start, f.stop)) =
    p.funcs.toList.zipIdx.map fun x => (x.1.name, (p.start (x.2 + 1) : Int), (p.start (x.2 + 2) : Int))

theorem queue_distinct (h : s.Queued) : s.work.toList.Nodup := by
  rw [List.nodup_iff_getElem?_ne_getElem?]
  intro i j hij hj heq
  rw [Array.length_toList] at hj
  rw [Array.getElem?_toList, Array.getElem?_toList, Array.getElem?_eq_getElem hj] at heq
  obtain ⟨_, -, hget, -⟩ := h.rows i _ heq
  obtain ⟨_, -, hget', -⟩ := h.rows j _ (Array.getElem?_eq_getElem hj)
  have hsame : i = j := (Prod.mk.inj (Option.some.inj (hget.symm.trans hget'))).1
  omega

theorem Landed.rowOf (h : Landed u entry parts s p) (fn : SymbolId) (k : Nat) :
    (∃ l, s.funcs.get? fn = some (k, l)) ↔ s.work[k]? = some fn := by
  constructor
  · rintro ⟨l, hl⟩
    exact (h.ranged.tidy.rows fn k l hl).1
  · intro hfn
    obtain ⟨r, -, hget, -⟩ := h.ranged.queued.rows k fn hfn
    exact ⟨r.entry, hget⟩

theorem Landed.rising (h : Landed u entry parts s p) {k : Nat} (hk : k ≤ p.funcs.size) : p.start k < p.start (k + 1) := by
  obtain ⟨is, his⟩ := h.exists_part hk
  have hpos := h.ranged.toEmitted.length_pos his
  rw [h.start (by omega), h.start (by omega), offset_succ his]
  omega

theorem Landed.last (h : Landed u entry parts s p) : p.start (p.funcs.size + 1) = p.code.size := by
  rw [h.start (Nat.le_refl _), h.size, ← h.length, offset_length]
  exact h.assembled.code.length_eq

theorem Landed.row (h : Landed u entry parts s p) {k : Nat} {fn : SymbolId} (hfn : s.work[k]? = some fn) : Row u s p k fn := by
  have hk : k < p.funcs.size := by
    rw [h.size]
    exact (Array.getElem?_eq_some_iff.1 hfn).1
  obtain ⟨is, his⟩ := h.exists_part hk
  obtain ⟨fn', r, slots, hfn', hr, haddr, hframe, -, hsec⟩ := h.ranged.rows k is his
  cases hfn.symm.trans hfn'
  obtain ⟨l, hget⟩ := (h.rowOf fn k).2 hfn
  obtain ⟨-, r', hr', -, hname⟩ := h.ranged.tidy.rows fn k l hget
  cases hr.symm.trans hr'
  have hstart : (parts.take (k + 1)).flatten.length = p.start (k + 1) := (h.start (by omega)).symm
  rw [hstart] at haddr
  have hfuncs := hr
  rw [← Array.getElem?_toList] at hfuncs
  obtain ⟨row, hrow, hres⟩ := getElem?_of_forall₂ h.assembled.rows hfuncs
  simp only [Assembler.resolveFunc, haddr, Except.ok.injEq] at hres
  subst hres
  rw [Array.getElem?_toList] at hrow
  refine ⟨r, _, hr, hrow, h.ranged.unit ▸ hname, ?_, haddr, rfl, ?_⟩
  · refine List.count_eq_one_of_mem h.ranged.tidy.asm.once ((h.ranged.tidy.asm.bound r.entry).2 ?_)
    rw [haddr]
    rfl
  · have hhead := (hsec.resolved (h.assembled.part his)).head
    have hrising := h.rising (k := k + 1) hk
    change ((p.code.toList.take (p.start (k + 2))).drop (p.start (k + 1))).head? = _ at hhead
    rw [List.head?_drop, List.getElem?_take, if_pos hrising, Array.getElem?_toList] at hhead
    rw [hhead, hframe]

/-- The ranges that were noted, in the order of their rows. -/
theorem Landed.drafts (h : Landed u entry parts s p) :
    s.recorder.funcs.toList.map (fun f => (f.name, f.start, f.stop)) =
      p.funcs.toList.zipIdx.map fun x => (x.1.name, (p.start (x.2 + 1) : Int), (p.start (x.2 + 2) : Int)) := by
  have hdrafts := h.ranged.drafts
  have hlength := h.length
  have hsize := h.size
  refine List.ext_getElem? fun k => ?_
  rw [List.getElem?_map, List.getElem?_map, List.getElem?_zipIdx, Array.getElem?_toList, Array.getElem?_toList]
  rcases Nat.lt_or_ge k p.funcs.size with hk | hk
  · have hk' : k < s.recorder.funcs.size := by omega
    obtain ⟨hstart, hstop, fn, hfn, hname⟩ := h.ranged.ranges k _ (Array.getElem?_eq_getElem hk')
    obtain ⟨r, row, -, hrow, hname', -⟩ := (h.row hfn).exists_row
    have hrow_name : row.name = s.recorder.funcs[k].name := Except.ok.inj (hname'.symm.trans hname)
    rw [Array.getElem?_eq_getElem hk', hrow, Option.map_some, Option.map_some, Option.map_some, hstart, hstop, hrow_name,
      h.start (by omega), h.start (by omega), Nat.zero_add]
  · rw [Array.getElem?_eq_none hk, Array.getElem?_eq_none (by omega)]
    rfl

theorem Landed.sorted (h : Landed u entry parts s p) : s.recorder.funcs.toList.Pairwise (·.start ≤ ·.start) := by
  rw [List.pairwise_iff_getElem]
  intro i j hi hj hij
  obtain ⟨hstart, -⟩ := h.ranged.ranges i _ (Array.getElem?_eq_getElem hi)
  obtain ⟨hstart', -⟩ := h.ranged.ranges j _ (Array.getElem?_eq_getElem hj)
  rw [Array.getElem_toList, Array.getElem_toList, hstart, hstart']
  exact Int.ofNat_le.2 (offset_le (by omega))

theorem Landed.closed (h : Landed u entry parts s p) : ∀ f ∈ s.recorder.funcs.toList, 0 ≤ f.stop := by
  intro f hf
  obtain ⟨k, hk, rfl⟩ := List.mem_iff_getElem.1 hf
  obtain ⟨-, hstop, -⟩ := h.ranged.ranges k _ (Array.getElem?_eq_getElem hk)
  rw [Array.getElem_toList, hstop]
  exact Int.natCast_nonneg _

theorem finish_funcs {r : Recorder} {files : FileTable} {stop : Int} (hsorted : r.funcs.toList.Pairwise (·.start ≤ ·.start))
    (hclosed : ∀ f ∈ r.funcs.toList, 0 ≤ f.stop) :
    (r.finish files stop).funcs.toList.map (fun f => (f.name, f.start, f.stop)) =
      r.funcs.toList.map fun f => (f.name, f.start, f.stop) := by
  unfold Recorder.finish
  dsimp only
  rw [List.mergeSort_of_pairwise, List.map_map]
  · refine List.map_congr_left fun f hf => ?_
    have hstop := hclosed f hf
    simp only [Function.comp_apply, if_neg (Int.not_lt.2 hstop)]
  · rw [List.pairwise_map]
    exact hsorted.imp fun h => decide_eq_true h

theorem run_scheduled {o : EmitOptions} {tracer : Tracer} (h : run (start u o tracer) = .ok (p, table) s) :
    Scheduled u s p table := by
  obtain ⟨entry, parts, e, hlen, hfin, rfl, -, hemitted⟩ := run_ranged h
  have hp := e.landed hlen hfin
  refine
    { distinct := queue_distinct hp.ranged.queued
      rowOf := hp.rowOf
      size := hp.size
      emitted := ?_
      operands := fun i hi o ho hk => ?_
      rows := fun k fn hfn => hp.row hfn
      first := by rw [hp.start (Nat.zero_le _)]; rfl
      rising := fun k hk => hp.rising hk
      last := hp.last
      tiled := ?_
      debug := ?_ }
  · obtain ⟨fuel, s₀, s₁, s₂, hrest⟩ := hemitted
    exact ⟨fuel, entry, s₀, s₁, s₂, hrest⟩
  · rcases hp.operand hi ho with hknown | ⟨ip, rfl, -⟩
    · unfold EmitState.Knows at hknown
      rw [hk] at hknown
      have hrows : s.asm.funcs.size = p.funcs.size := by rw [← e.queued.size, hp.size]
      obtain ⟨k, v⟩ := o
      cases hk
      dsimp only at hknown
      refine ⟨v.toNat, by omega, ?_⟩
      rw [Operand.func, Int.toNat_of_nonneg hknown.1]
    · cases hk
  · rw [hp.size, ← hlen]
    exact hp.assembled.tiled
  · rw [finish_funcs hp.sorted hp.closed, hp.drafts]

/-- Two functions that call each other; the second is only referenced by the first. -/
def callsBack : Tree where
  nodes := #[
    .ident ["g"], .call 1 [], .exprStmt 2, .block [3], .func "f" [] 0 4,
    .ident ["f"], .call 6 [], .exprStmt 7, .block [8], .func "g" [] 0 9,
    .ident ["f"], .call 11 [], .exprStmt 12, { kind := .file, list := [5, 10, 13] }]
  roots := [14]

theorem callsBack_scheduled :
    let u := (callsBack.analyze {} {}).state.result
    ∃ p table s, run (start u {} {}) = .ok (p, table) s ∧ p.funcs.toList.map (·.name) = ["f", "g"] ∧
      Scheduled u s p table := by
  have hview : view? run (fun r _ => r.1.funcs.toList.map (·.name)) (start (callsBack.analyze {} {}).state.result {} {}) =
      some ["f", "g"] := by decide +kernel
  obtain ⟨⟨p, table⟩, s, hrun, hnames⟩ := view?_eq_some hview
  exact ⟨p, table, s, hrun, hnames, run_scheduled hrun⟩

end TreeCompiler.Emit
