import TreeCompiler.Proofs.Emit.Schedule
import TreeCompiler.Proofs.Emit.Trail

/-!
# Positions of instructions

The table answers an address with the last entry before it, unless that entry is from before the function. Entries are
stored where the span changes, whatever function the code belongs to.

* `Landed.funcAt?` : the function at an address is the one whose part of the code it lies in;
* `Landed.position` : what the table shows there;
* `run_positions` : the same in terms of the nodes whose code was kept.
-/

namespace TreeCompiler

/-- A position as text, nothing if it has no file. -/
def Pos.shown (p : Pos) : String := if p.file = "" then "" else p.render

/-- Halving finds the place where a predicate begins to hold for good. -/
theorem searchFirst_eq {n k : Nat} {p : Nat → Bool} (hk : k ≤ n) (hbefore : ∀ i < k, p i = false)
    (hafter : ∀ i, k ≤ i → p i = true) : searchFirst n p = k := by
  have mono : ∀ i j, i ≤ j → p i = true → p j = true := by
    intro i j hij hi
    refine hafter j (Nat.le_trans (Nat.le_of_not_lt fun hlt => ?_) hij)
    rw [hbefore i hlt] at hi
    cases hi
  have hfuel : n - 0 < n + 1 := by omega
  obtain ⟨hlo, hhi⟩ := searchAux_spec mono hfuel (fun _ h => absurd h (Nat.not_lt_zero _)) fun i hi => hafter i (Nat.le_trans hk hi)
  refine Nat.le_antisymm (Nat.le_of_not_lt fun hlt => ?_) (Nat.le_of_not_lt fun hlt => ?_)
  · have hfalse := hlo k hlt
    rw [hafter k (Nat.le_refl _)] at hfalse
    cases hfalse
  · have htrue := hhi _ (Nat.le_refl _)
    change p (searchFirst n p) = true at htrue
    rw [hbefore _ hlt] at htrue
    cases htrue

section

variable {log : List Noted} {es : List DebugEntry} {a b : Int}

theorem lastNoted_some {n : Noted} (h : lastNoted log a = some n) : n ∈ log ∧ n.ip ≤ a :=
  ⟨List.mem_of_find?_eq_some h, by simpa using List.find?_some h⟩

theorem lastEntry_some {e : DebugEntry} (h : lastEntry es a = some e) : e ∈ es ∧ e.ip ≤ a :=
  ⟨List.mem_reverse.1 (List.mem_of_find?_eq_some h), by simpa using List.find?_some h⟩

/-- What is found from a later address and lies before an earlier one is found from there too. -/
theorem find?_of_stronger {α : Type} {p q : α → Bool} {l : List α} {x : α} (hpq : ∀ y ∈ l, q y = true → p y = true)
    (h : l.find? p = some x) (hx : q x = true) : l.find? q = some x := by
  obtain ⟨hp, front, back, rfl, hfront⟩ := List.find?_eq_some_iff_append.1 h
  refine List.find?_eq_some_iff_append.2 ⟨hx, front, back, rfl, fun y hy => ?_⟩
  have hfalse := hfront y hy
  by_contra htrue
  rw [hpq y (by simp [hy]) (by simpa using htrue)] at hfalse
  cases hfalse

theorem lastNoted_of_le {n : Noted} (h : lastNoted log b = some n) (hn : n.ip ≤ a) (hab : a ≤ b) : lastNoted log a = some n :=
  find?_of_stronger (fun y _ hy => by simp only [decide_eq_true_eq] at hy ⊢; omega) h (by simpa using hn)

theorem lastEntry_of_le {e : DebugEntry} (h : lastEntry es b = some e) (he : e.ip ≤ a) (hab : a ≤ b) : lastEntry es a = some e :=
  find?_of_stronger (fun y _ hy => by simp only [decide_eq_true_eq] at hy ⊢; omega) h (by simpa using he)

/-- Behind the last entry the span does not change. -/
theorem Tells.spans_behind (h : Tells es log) {e : DebugEntry} (he : lastEntry es b = some e) (hea : e.ip ≤ a) (hab : a ≤ b) :
    (lastNoted log a).map (·.span) = some e.span := by
  rw [← h.agrees a, lastEntry_of_le he hea hab]
  rfl

theorem exists_lastNoted {n : Noted} (h : n ∈ log) (hn : n.ip ≤ a) : ∃ m, lastNoted log a = some m :=
  Option.isSome_iff_exists.1 (List.find?_isSome.2 ⟨n, h, by simpa using hn⟩)

/-- Where every call from `a` on repeats the span from before it, no entry was stored. -/
theorem Tells.before_of_repeats (h : Tells es log) {e : DebugEntry} (he : lastEntry es b = some e)
    (hsame : ∀ n ∈ log, a ≤ n.ip → n.ip ≤ b → (lastNoted log (a - 1)).map (·.span) = some n.span) : e.ip < a := by
  obtain ⟨hmem, hle⟩ := lastEntry_some he
  refine Int.not_le.1 fun hge => ?_
  -- the call that the entry was stored for brought another span than the last call before it
  obtain ⟨n, hn, hip, hfresh⟩ := h.fresh e hmem
  have hspan := hsame n hn (by omega) (by omega)
  obtain ⟨m, hm, hmspan⟩ := Option.map_eq_some_iff.1 hspan
  obtain ⟨hmlog, hmle⟩ := lastNoted_some hm
  obtain ⟨m', hm'⟩ := exists_lastNoted (a := e.ip - 1) hmlog (by omega)
  obtain ⟨hmlog', hmle'⟩ := lastNoted_some hm'
  refine hfresh ?_
  rcases Int.lt_or_le m'.ip a with hlt | hge'
  · have hsame' := lastNoted_of_le (a := a - 1) hm' (by omega) (by omega)
    rw [hm'.trans hsame'.symm, hspan]
  · rw [hm', Option.map_some, ← hspan]
    exact (hsame m' hmlog' hge' (by omega)).symm

end

/-- The span that counts at an address. -/
def EmitState.spanAt (s : EmitState) (a : Int) : Option Span := (lastNoted s.log a).map (·.span)

namespace Emit

variable {u : AnalysisResult} {entry : Label} {parts : List (List Instr)} {s : EmitState} {p : Program} {k ip : Nat}

/-- Entries lie in the code. -/
theorem entry_nonneg {o : EmitOptions} {tracer : Tracer} {table : DebugTable}
    (h : run (start u o tracer) = .ok (p, table) s) : ∀ e ∈ s.entries, 0 ≤ e.ip := by
  intro e he
  have htrail : Trail (start u o tracer) s := Carries.run.carries _ _ _ h
  obtain ⟨new, hnew, hle⟩ := htrail.notes
  have hmem := List.mem_of_mem_filter ((run_told h).noted e he)
  rw [hnew] at hmem
  exact hle _ ((List.mem_append.1 hmem).resolve_right nofun)

section

variable (h : Landed u entry parts s p) (files : FileTable) (stop : Int)

include h

theorem Landed.start_le {i j : Nat} (hij : i ≤ j) (hj : j ≤ p.funcs.size + 1) : p.start i ≤ p.start j := by
  rw [h.start (by omega), h.start hj]
  exact offset_le hij

theorem Landed.start_zero : p.start 0 = 0 := by
  rw [h.start (Nat.zero_le _)]
  rfl

theorem Landed.ranges : (s.recorder.finish files stop).funcs.size = p.funcs.size ∧
    ∀ j f, (s.recorder.finish files stop).funcs[j]? = some f →
      f.start = (p.start (j + 1) : Int) ∧ f.stop = (p.start (j + 2) : Int) := by
  have hsame : (s.recorder.finish files stop).funcs.toList.map (fun f => (f.name, f.start, f.stop)) = _ :=
    (finish_funcs h.sorted h.closed).trans h.drafts
  refine ⟨by simpa using congrArg List.length hsame, fun j f hf => ?_⟩
  have hj := congrArg (·[j]?) hsame
  simp only [List.getElem?_map, Array.getElem?_toList, List.getElem?_zipIdx, hf, Option.map_some] at hj
  cases hrow : p.funcs[j]? with
  | none =>
    rw [hrow] at hj
    cases hj
  | some row =>
    rw [hrow, Option.map_some, Option.map_some, Option.some.injEq, Prod.mk.injEq, Prod.mk.injEq, Nat.zero_add] at hj
    exact hj.2

theorem Landed.funcAt? (hk : k ≤ p.funcs.size) (hstart : p.start k ≤ ip) (hstop : ip < p.start (k + 1)) :
    ((s.recorder.finish files stop).funcAt? ip).map (·.start) = if k = 0 then none else some (p.start k : Int) := by
  obtain ⟨hsize, hranges⟩ := h.ranges files stop
  generalize s.recorder.finish files stop = t at hsize hranges ⊢
  have hfirst {q : Nat → Bool} (hq : ∀ i, q i = (t.funcs[i]?).elim true fun f => decide ((ip : Int) < f.start)) :
      searchFirst t.funcs.size q = k := by
    refine searchFirst_eq (by omega) (fun i hi => ?_) fun i hi => ?_
    · have hf := (hranges i _ (Array.getElem?_eq_getElem (by omega))).1
      have hle := h.start_le (show i + 1 ≤ k from hi) (by omega)
      rw [hq, Array.getElem?_eq_getElem (by omega), Option.elim_some, hf]
      simp only [decide_eq_false_iff_not]
      omega
    · rw [hq]
      cases hf : t.funcs[i]? with
      | none => rfl
      | some f =>
        have hlt := (Array.getElem?_eq_some_iff.1 hf).1
        have hle := h.start_le (show k + 1 ≤ i + 1 by omega) (by omega)
        rw [Option.elim_some, (hranges i f hf).1]
        simp only [decide_eq_true_eq]
        omega
  unfold DebugTable.funcAt?
  dsimp only
  rw [hfirst fun i => by cases t.funcs[i]? <;> rfl]
  cases k with
  | zero => rfl
  | succ k =>
    have hlt : k < t.funcs.toList.length := by rw [Array.length_toList]; omega
    obtain ⟨hfs, hfe⟩ := hranges k _ (Array.getElem?_eq_getElem hlt)
    rw [List.take_succ_eq_append_getElem hlt, List.reverse_append, List.reverse_singleton, List.singleton_append,
      List.find?_cons_of_pos (by rw [Array.getElem_toList, hfe]; simpa using hstop), if_neg (Nat.succ_ne_zero k),
      Option.map_some, Array.getElem_toList, hfs]

/-- An entry from before the part does not count. -/
theorem Landed.position (hrising : Rising s.entries) (hnonneg : ∀ e ∈ s.entries, 0 ≤ e.ip) (hk : k ≤ p.funcs.size)
    (hstart : p.start k ≤ ip) (hstop : ip < p.start (k + 1)) :
    (s.recorder.finish files stop).position ip = match lastEntry s.entries ip with
      | none => ""
      | some e => if e.ip < p.start k then "" else (Pos.ofSpan files e.span).shown := by
  have hlookup : (s.recorder.finish files stop).lookup? ip =
      (lastEntry s.entries ip).map fun e => { e with pos := Pos.ofSpan files e.span } :=
    (Recorder.lookup?_finish hrising files stop ip).2
  unfold DebugTable.position
  rw [hlookup]
  cases hlast : lastEntry s.entries ip with
  | none => rfl
  | some e =>
    have hfunc := h.funcAt? files stop hk hstart hstop
    dsimp only [Option.map_some]
    unfold Pos.shown
    by_cases hzero : k = 0
    · subst hzero
      rw [if_pos rfl, Option.map_eq_none_iff] at hfunc
      have hinside : ¬e.ip < p.start 0 := by
        rw [h.start_zero]
        exact Int.not_lt.2 (hnonneg e (lastEntry_some hlast).1)
      rw [hfunc, if_neg hinside]
    · rw [if_neg hzero, Option.map_eq_some_iff] at hfunc
      obtain ⟨f, hf, hfstart⟩ := hfunc
      rw [hf]
      dsimp only
      rw [hfstart]
      split
      · split <;> rfl
      · rfl

end

/-- What the table of a run shows at an address of a part. -/
theorem run_position {o : EmitOptions} {tracer : Tracer} {table : DebugTable} (h : run (start u o tracer) = .ok (p, table) s)
    (hk : k ≤ p.funcs.size) (hstart : p.start k ≤ ip) (hstop : ip < p.start (k + 1)) :
    p.start 0 = 0 ∧ table.position ip = match lastEntry s.entries ip with
      | none => ""
      | some e => if e.ip < p.start k then "" else (Pos.ofSpan u.tree.files e.span).shown := by
  obtain ⟨entry, parts, ranged, hlen, hfin, rfl, -⟩ := run_ranged h
  have hp := ranged.landed hlen hfin
  exact ⟨hp.start_zero, hp.position u.tree.files s.asm.pos (run_told h).rising (entry_nonneg h) hk hstart hstop⟩

/-- What a table shows at an address is nothing, or the position of a node of the same function or of the entry code that was
recorded at or before it. If all expressions have spans it is the last such node's, except in a function where no address up to
there has brought another span than the last one before the function; where every node repeats that span there is nothing. -/
theorem run_positions {o : EmitOptions} {tracer : Tracer} {table : DebugTable} (h : run (start u o tracer) = .ok (p, table) s)
    (hk : k ≤ p.funcs.size) (hstart : p.start k ≤ ip) (hstop : ip < p.start (k + 1)) :
    (table.position ip = "" ∨ ∃ n ∈ s.log, p.start k ≤ n.ip ∧ n.ip ≤ ip ∧
      table.position ip = (Pos.ofSpan u.tree.files n.span).shown) ∧
    (u.tree.Spanned → ∀ n, lastNoted s.log ip = some n → p.start k ≤ n.ip →
      table.position ip = (Pos.ofSpan u.tree.files n.span).shown ∨
        0 < k ∧ table.position ip = "" ∧ ∀ a : Int, p.start k ≤ a → a ≤ ip → s.spanAt a = s.spanAt (p.start k - 1)) ∧
    (u.tree.Spanned → (∀ n ∈ s.log, p.start k ≤ n.ip → n.ip ≤ ip → s.spanAt (p.start k - 1) = some n.span) →
      table.position ip = "") := by
  have htold := run_told h
  have hnonneg := entry_nonneg h
  have htrail : Trail (start u o tracer) s := Carries.run.carries _ _ _ h
  have htells (hspanned : u.tree.Spanned) : Tells s.entries s.log := htold.tells (htrail.unit ▸ hspanned)
  obtain ⟨hzero, hposition⟩ := run_position h hk hstart hstop
  rw [hposition]
  cases hlast : lastEntry s.entries ip with
  | none =>
    refine ⟨.inl rfl, fun hspanned n hn _ => ?_, fun _ _ => rfl⟩
    have hspan := (htells hspanned).agrees ip
    rw [hn, hlast] at hspan
    cases hspan
  | some e =>
    obtain ⟨hmem, hle⟩ := lastEntry_some hlast
    dsimp only
    refine ⟨?_, fun hspanned n hn _ => ?_, fun hspanned hsame => if_pos ((htells hspanned).before_of_repeats hlast hsame)⟩
    · split
      · exact .inl rfl
      · exact .inr ⟨_, htold.noted e hmem, Int.not_lt.1 ‹_›, hle, rfl⟩
    · have hspan := (htells hspanned).spans_behind hlast hle (Int.le_refl _)
      rw [hn, Option.map_some, Option.some.injEq] at hspan
      by_cases hbefore : e.ip < p.start k
      · refine .inr ⟨Nat.pos_of_ne_zero fun hk0 => ?_, if_pos hbefore, fun a ha hle => ?_⟩
        · have hge := hnonneg e hmem
          rw [hk0, hzero] at hbefore
          omega
        · exact ((htells hspanned).spans_behind hlast (by omega) hle).trans
            ((htells hspanned).spans_behind hlast (by omega) (by omega)).symm
      · rw [if_neg hbefore, hspan]
        exact .inl rfl

/-- A generic function with two instances, whose nodes have the same spans. -/
def calledTwice : Tree where
  files := { files := #[{ path := "u", content := none, inMemory := false, breaks := [] }] }
  nodes := (#[
    .typeName ["T"], .param "x" 1, .returnStmt 0, .block [3], { Node.func "f" [2] 0 4 with params := ["T"] },
    .ident ["f"], .intLit 1, .call 6 [7], .exprStmt 8,
    .ident ["f"], .realLit 0x3ff8000000000000, .call 10 [11], .exprStmt 12,
    { kind := .file, list := [5, 9, 13] }] : Array Node).mapIdx fun i n =>
      { n with span := { start := 2 * i + 1, stop := 2 * i + 2 } }
  roots := [14]

def calledTwiceUnit : AnalysisResult := (calledTwice.analyze {} {}).state.result

theorem calledTwice_accepted :
    (calledTwice.analyze {} {}).failure = none ∧ (calledTwice.analyze {} {}).hasErrors = false ∧
      calledTwiceUnit.tree.Spanned ∧
      (∀ n ∈ calledTwiceUnit.tree.nodes.toList, (calledTwiceUnit.tree.files.get? n.span.file).isSome) ∧
      (Pos.ofSpan calledTwiceUnit.tree.files ⟨0, 5, 6⟩).shown = "u:0:0" := by
  decide +kernel

theorem calledTwice_runs :
    ∃ p table s, run (start calledTwiceUnit {} {}) = .ok (p, table) s ∧
      [p.funcs.size, p.start 1, p.start 2, p.start 3] = [2, 6, 9, 12] ∧
      [s.log.head?, lastNoted s.log 8] = [some ⟨10, ⟨0, 5, 6⟩⟩, some ⟨7, ⟨0, 5, 6⟩⟩] ∧
      [s.spanAt 5, s.spanAt 7] = [some ⟨0, 21, 22⟩, some ⟨0, 5, 6⟩] ∧ (lastEntry s.entries 11).map (·.ip) = some 7 := by
  have hview : view? run (fun r s => ([r.1.funcs.size, r.1.start 1, r.1.start 2, r.1.start 3],
      [s.log.head?, lastNoted s.log 8], [s.spanAt 5, s.spanAt 7], (lastEntry s.entries 11).map (·.ip)))
      (start calledTwiceUnit {} {}) =
      some ([2, 6, 9, 12], [some ⟨10, ⟨0, 5, 6⟩⟩, some ⟨7, ⟨0, 5, 6⟩⟩], [some ⟨0, 21, 22⟩, some ⟨0, 5, 6⟩], some 7) := by
    decide +kernel
  obtain ⟨⟨p, table⟩, s, hrun, hseen⟩ := view?_eq_some hview
  simp only [Prod.mk.injEq] at hseen
  exact ⟨p, table, s, hrun, hseen⟩

/-- The first instance has a position. -/
theorem calledTwice_shown :
    calledTwiceUnit.tree.Spanned ∧ ∃ p table s, run (start calledTwiceUnit {} {}) = .ok (p, table) s ∧
      1 ≤ p.funcs.size ∧ p.start 1 ≤ 8 ∧ 8 < p.start 2 ∧ table.position 8 = "u:0:0" := by
  obtain ⟨-, -, hspanned, -, hpos⟩ := calledTwice_accepted
  obtain ⟨p, table, s, hrun, hplaces, hnoted, hspans, -⟩ := calledTwice_runs
  simp only [List.cons.injEq, and_true] at hplaces hnoted hspans
  obtain ⟨hsize, hstart, hstop, -⟩ := hplaces
  have hle : p.start 1 ≤ 8 := by omega
  have hlt : 8 < p.start 2 := by omega
  refine ⟨hspanned, p, table, s, hrun, by omega, hle, hlt, ?_⟩
  have hshown := (run_positions (k := 1) hrun (by omega) hle hlt).2.1 hspanned _ hnoted.2 (by rw [hstart]; decide)
  refine (hshown.resolve_right fun hrest => ?_).trans hpos
  have hsame := hrest.2.2 7 (by rw [hstart]; decide) (by decide)
  rw [hspans.2, hstart, show s.spanAt (((6 : Nat) : Int) - 1) = _ from hspans.1] at hsame
  exact absurd hsame (by decide)

/-- In the second instance nothing is shown: its node has the span that came last in the first one. -/
theorem calledTwice_unshown :
    (calledTwice.analyze {} {}).failure = none ∧ (calledTwice.analyze {} {}).hasErrors = false ∧
      (∀ n ∈ calledTwiceUnit.tree.nodes.toList, (calledTwiceUnit.tree.files.get? n.span.file).isSome) ∧
      ∃ p table s, run (start calledTwiceUnit {} {}) = .ok (p, table) s ∧
        ∃ n ∈ s.log, p.start 2 ≤ n.ip ∧ n.ip ≤ 11 ∧ 11 < p.start 3 ∧
          (Pos.ofSpan calledTwiceUnit.tree.files n.span).shown = "u:0:0" ∧ table.position 11 = "" := by
  obtain ⟨hfailure, herrors, -, hfiles, hpos⟩ := calledTwice_accepted
  obtain ⟨p, table, s, hrun, hplaces, hnoted, -, hlast⟩ := calledTwice_runs
  simp only [List.cons.injEq, and_true] at hplaces hnoted
  obtain ⟨hsize, -, hstart, hstop⟩ := hplaces
  have hle : p.start 2 ≤ 11 := by omega
  have hlt : 11 < p.start 3 := by omega
  have hposition := (run_position (k := 2) hrun (by omega) hle hlt).2
  refine ⟨hfailure, herrors, hfiles, p, table, s, hrun, _, List.mem_of_head? hnoted.1, ?_⟩
  refine ⟨by rw [hstart]; decide, by decide, hlt, hpos, hposition.trans ?_⟩
  obtain ⟨x, hx, hip⟩ := Option.map_eq_some_iff.1 hlast
  rw [show lastEntry s.entries ((11 : Nat) : Int) = some x from hx]
  exact if_pos (by rw [hip, hstart]; decide)

/-- Two calls of a function, and their sum in the next line, where neither the first operand nor the statement has a span. -/
def sumOfCalls : Tree where
  files := { files := #[{ path := "u", content := some [10, 10], inMemory := false, breaks := [0, 1] }] }
  nodes := #[
    .typeName ["int"], .intLit 1, .returnStmt 2, .block [3], .func "f" [] 1 4,
    .ident ["f"], { Node.call 6 [] with span := ⟨0, 0, 1⟩ }, .exprStmt 7, .ident ["f"], .call 9 [], .ident ["f"], .call 11 [],
    { Node.binary .add 10 12 with span := ⟨0, 1, 2⟩ }, .exprStmt 13, { kind := .file, list := [5, 8, 14] }]
  roots := [15]

/-- The entry of the sum is lost with the first attempt to compile its operands, and not made again: the sum is shown where
the statement before is. -/
theorem sumOfCalls_keeps_position :
    let e := sumOfCalls.analyze {} {}
    let u := e.state.result
    e.failure = none ∧ e.hasErrors = false ∧ (Pos.ofSpan u.tree.files ⟨0, 1, 2⟩).shown = "u:2:1" ∧
    ∃ p table s, run (start u {} {}) = .ok (p, table) s ∧ lastNoted s.log 7 = some ⟨2, ⟨0, 1, 2⟩⟩ ∧
      (p.code[7]?).map (·.op) = some .addInt ∧ table.position 7 = "u:1:1" := by
  have hends :
      let e := sumOfCalls.analyze {} {}
      let u := e.state.result
      e.failure = none ∧ e.hasErrors = false ∧ (Pos.ofSpan u.tree.files ⟨0, 1, 2⟩).shown = "u:2:1" ∧
        view? run (fun r s => decide (lastNoted s.log 7 = some ⟨2, ⟨0, 1, 2⟩⟩ ∧ (r.1.code[7]?).map (·.op) = some .addInt ∧
          r.2.position 7 = "u:1:1")) (start u {} {}) = some true := by decide +kernel
  obtain ⟨hfailure, herrors, hpos, hview⟩ := hends
  obtain ⟨r, s, hrun, hseen⟩ := view?_eq_some hview
  exact ⟨hfailure, herrors, hpos, r.1, r.2, s, hrun, of_decide_eq_true hseen⟩

end Emit

end TreeCompiler
