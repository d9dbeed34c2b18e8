import TreeCompiler.Proofs.Debug.Log
import TreeCompiler.Proofs.Emit.Grow

/-!
# The nodes that code was emitted for

`EmitState.notes` has every node whose code was kept. The recorder is told the same nodes, and is told by addresses alone what
was taken back, so it also forgets nodes at the address of a mark from before it.

* `EmitState.log` : the nodes that count, which are those with a span;
* `Told s` : each entry of the recorder is such a node. The entries answer every question about the log if all expressions
  have spans;
* `Behind s` : the same right after a rewind, where the entries tell only what lies before the code's end;
* `Trail s s'` : only nodes at the end of the code were added, and what was told still is. Across an expression it holds from
  `Behind` too, as its node comes first.
-/

namespace TreeCompiler

/-- Every expression has a span. -/
def Tree.Spanned (t : Tree) : Prop := ∀ n ∈ t.nodes.toList, n.kind.isExpr = true → n.span.isBlank = false

theorem Tree.Spanned.isBlank {t : Tree} (h : t.Spanned) {id : NodeId} {n : Node} (hn : t.get? id = some n)
    (hk : n.kind.isExpr = true) : n.span.isBlank = false := by
  unfold Tree.get? at hn
  split at hn
  · cases hn
  · exact h n (Array.mem_toList_iff.2 (Array.mem_of_getElem? hn)) hk

instance Tree.decidableSpanned (t : Tree) : Decidable t.Spanned := inferInstanceAs (Decidable (∀ n ∈ t.nodes.toList, _))

namespace EmitState

/-- The nodes with a span, newest first. -/
def log (s : EmitState) : List Noted := s.notes.filter fun n => !n.span.isBlank

def entries (s : EmitState) : List DebugEntry := s.recorder.entries.toList

end EmitState

namespace Emit

variable {s s₁ s₂ s' : EmitState}

/-- Each entry is a node that was kept. -/
structure Traced (s : EmitState) : Prop where
  rising : Rising s.entries
  reached : ∀ n ∈ s.log, n.ip ≤ (s.asm.pos : Int)
  noted : ∀ e ∈ s.entries, (⟨e.ip, e.span⟩ : Noted) ∈ s.log

structure Told (s : EmitState) : Prop extends Traced s where
  tells : s.unit.tree.Spanned → Tells s.entries s.log

structure Behind (s : EmitState) : Prop extends Traced s where
  cut : s.unit.tree.Spanned → Cut s.asm.pos s.entries s.log

structure Trail (s s' : EmitState) : Prop where
  unit : s'.unit = s.unit
  pos : s.asm.pos ≤ s'.asm.pos
  notes : ∃ new, s'.notes = new ++ s.notes ∧ ∀ n ∈ new, (s.asm.pos : Int) ≤ n.ip
  told : Told s → Told s'

structure Restart (s s' : EmitState) : Prop extends Trail s s' where
  behind : Behind s → Told s'

namespace Trail

theorem trans (h : Trail s s₁) (h' : Trail s₁ s') : Trail s s' := by
  obtain ⟨new, hnew, hle⟩ := h.notes
  obtain ⟨new', hnew', hle'⟩ := h'.notes
  refine ⟨h'.unit.trans h.unit, Nat.le_trans h.pos h'.pos, ⟨new' ++ new, ?_, fun n hn => ?_⟩, fun ht => h'.told (h.told ht)⟩
  · rw [hnew', hnew, List.append_assoc]
  · rcases List.mem_append.1 hn with hn | hn
    · exact Int.le_trans (Int.ofNat_le.2 h.pos) (hle' n hn)
    · exact hle n hn

/-- Code may be added, but no node. -/
theorem quiet (unit : s'.unit = s.unit) (pos : s.asm.pos ≤ s'.asm.pos) (entries : s'.recorder.entries = s.recorder.entries)
    (notes : s'.notes = s.notes) : Trail s s' := by
  refine ⟨unit, pos, ⟨[], notes, nofun⟩, fun h => ?_⟩
  have hentries : s'.entries = s.entries := congrArg Array.toList entries
  have hlog : s'.log = s.log := congrArg (List.filter _) notes
  refine ⟨⟨?_, ?_, ?_⟩, ?_⟩
  · rw [hentries]
    exact h.rising
  · rw [hlog]
    exact fun n hn => Int.le_trans (h.reached n hn) (Int.ofNat_le.2 pos)
  · rw [hentries, hlog]
    exact h.noted
  · rw [hentries, hlog, unit]
    exact h.tells

theorem refl (s : EmitState) : Trail s s := quiet rfl (Nat.le_refl _) rfl rfl

end Trail

/-! ### Nodes -/

section

variable {span : Span} {a : Unit}

theorem log_note (h : note span s = .ok a s') : s'.log = if span.isBlank then s.log else ⟨s.asm.pos, span⟩ :: s.log := by
  cases h
  cases hspan : span.isBlank with
  | true => exact List.filter_cons_of_neg (by simp [hspan])
  | false => exact List.filter_cons_of_pos (by simp [hspan])

theorem entries_note (h : note span s = .ok a s') :
    s'.entries = if span.isBlank then s.entries else noteEntries s.entries s.asm.pos span := by
  cases h
  cases hspan : span.isBlank with
  | true => exact congrArg (·.entries.toList) (Recorder.entries_node_of_blank hspan)
  | false => exact Recorder.entries_node hspan

theorem Traced.note (h : Traced s) (hm : Emit.note span s = .ok a s') : Traced s' := by
  have hentries := entries_note hm
  have hlog := log_note hm
  have hpos : s'.asm.pos = s.asm.pos := by cases hm; rfl
  cases hspan : span.isBlank with
  | true =>
    rw [hspan, if_pos rfl] at hentries hlog
    refine ⟨?_, ?_, ?_⟩
    · rw [hentries]
      exact h.rising
    · rw [hlog, hpos]
      exact h.reached
    · rw [hentries, hlog]
      exact h.noted
  | false =>
    rw [hspan, if_neg (by decide)] at hentries hlog
    refine ⟨?_, ?_, ?_⟩
    · rw [hentries]
      exact rising_noteEntries h.rising fun e he => h.reached _ (h.noted e he)
    · rw [hlog, hpos]
      intro n hn
      rcases List.mem_cons.1 hn with rfl | hn
      · exact Int.le_refl _
      · exact h.reached n hn
    · rw [hentries, hlog]
      intro e he
      rcases mem_noteEntries he with he | ⟨hip, hsp⟩
      · exact List.mem_cons_of_mem _ (h.noted e he)
      · rw [hip, hsp]
        exact List.mem_cons_self ..

theorem Told.note (h : Told s) (hm : Emit.note span s = .ok a s') : Told s' := by
  refine ⟨h.toTraced.note hm, fun hs => ?_⟩
  have htells := h.tells (by cases hm; exact hs)
  rw [entries_note hm, log_note hm]
  split
  · exact htells
  · exact htells.node h.reached span

/-- A node with a span makes up for what the rewind took too much. -/
theorem Behind.note (h : Behind s) (hspan : s.unit.tree.Spanned → span.isBlank = false) (hm : Emit.note span s = .ok a s') :
    Told s' := by
  refine ⟨h.toTraced.note hm, fun hs => ?_⟩
  have hs : s.unit.tree.Spanned := by cases hm; exact hs
  rw [entries_note hm, log_note hm, if_neg (by simp [hspan hs]), if_neg (by simp [hspan hs])]
  exact (h.cut hs).node span

theorem trail_note (hm : note span s = .ok a s') : Trail s s' := by
  refine ⟨?_, ?_, ?_, fun h => h.note hm⟩ <;> cases hm
  · rfl
  · exact Nat.le_refl _
  · exact ⟨[_], rfl, by simp⟩

end

/-! ### Taking code back -/

theorem log_append {new : List Noted} (h : s'.notes = new ++ s.notes) :
    s'.log = new.filter (fun n => !n.span.isBlank) ++ s.log := by
  rw [EmitState.log, h, List.filter_append]
  rfl

theorem rewind_pos {a : Unit} (h : s.asm.pos ≤ s₁.asm.pos) (hm : rewind (markOf s) s₁ = .ok a s₂) : s₂.asm.pos = s.asm.pos := by
  cases hm
  unfold Assembler.pos at h ⊢
  simpa [Assembler.rewind, markOf, Assembler.mark, Assembler.pos] using Nat.min_eq_left h

theorem behind_rewind {a : Unit} (h : Trail s s₁) (hs : Traced s) (ht : Told s₁) (hm : rewind (markOf s) s₁ = .ok a s₂) :
    Behind s₂ := by
  obtain ⟨new, hnew, hle⟩ := h.notes
  have hlog₁ := log_append hnew
  have hold : ∀ n ∈ new.filter (fun n => !n.span.isBlank), (s.asm.pos : Int) ≤ n.ip := fun n hn => hle n (List.mem_filter.1 hn).1
  have hlog : s₂.log = s.log := by cases hm; rfl
  have hentries : s₂.entries = cutEntries s₁.entries s.asm.pos := by
    cases hm
    exact Recorder.entries_truncate ht.rising
  have hpos := rewind_pos h.pos hm
  refine ⟨⟨?_, ?_, ?_⟩, fun hspanned => ?_⟩
  · rw [hentries]
    exact ht.rising.sublist (List.takeWhile_sublist _)
  · rw [hlog, hpos]
    exact hs.reached
  · rw [hentries, hlog]
    intro e he
    have hbelow := cutEntries_below he
    have hmem := ht.noted e ((List.takeWhile_sublist _).subset he)
    rw [hlog₁] at hmem
    refine (List.mem_append.1 hmem).resolve_left fun hin => ?_
    have hle := hold _ hin
    dsimp only at hle
    omega
  · have hspanned₁ : s₁.unit.tree.Spanned := by cases hm; exact hspanned
    rw [hentries, hlog, hpos]
    exact (hlog₁ ▸ ht.tells hspanned₁).cut hold

/-! ### Everything that is emitted -/

theorem entries_endFunc (s : EmitState) :
    ((s.recorder.endFunc? s.asm.pos).getD s.recorder).entries = s.recorder.entries := by
  unfold Recorder.endFunc?
  split <;> rfl

instance : Closed Trail Restart where
  refl := .refl
  trans := .trans
  pools _ _ _ := .quiet rfl (Nat.le_refl _) rfl rfl
  frame _ _ := .quiet rfl (Nat.le_refl _) rfl rfl
  counting _ _ := .quiet rfl (Nat.le_refl _) rfl rfl
  emit _ := .modify fun s => .quiet rfl (by simp [Assembler.emit, Assembler.pos]) rfl rfl
  note _ := ⟨fun _ _ _ => trail_note⟩
  newLabel := .modifyGet fun _ => .quiet rfl (Nat.le_refl _) rfl rfl
  bindLabel _ := ⟨fun s a s' h => by
    obtain ⟨-, -, rfl⟩ := bindLabel_ok h
    exact .quiet rfl (Nat.le_refl _) rfl rfl⟩
  stringRef text := .modifyGet fun s =>
    .quiet rfl (Nat.le_of_eq (congrArg Array.size (Performs.types_addString s.asm text).2).symm) rfl rfl
  funcRef _ := ⟨fun s k s' h => by
    obtain rfl | ⟨name, params, -, rfl⟩ := funcRef_cases h
    · exact .refl _
    · exact .quiet rfl (Nat.le_refl _) rfl rfl⟩
  nativeRef _ := ⟨fun s k s' h => by
    obtain rfl | ⟨row, rfl⟩ := nativeRef_cases h
    · exact .refl _
    · exact .quiet rfl (Nat.le_refl _) rfl rfl⟩
  typeRef _ := ⟨fun s k s' h => by
    obtain rfl | ⟨row, rfl⟩ := typeRef_cases h
    · exact .refl _
    · exact .quiet rfl (Nat.le_of_eq (congrArg Array.size (code_addType s.asm row)).symm) rfl rfl⟩
  le := Restart.toTrail
  enter hn hk hnote h :=
    { toTrail := (trail_note hnote).trans h
      behind := fun hb => h.told (hb.note (fun hs => hs.isBlank hn hk) hnote) }
  after h h' :=
    { toTrail := h.toTrail.trans h'
      behind := fun hb => h'.told (h.behind hb) }
  retry {s s₁ s₂ s' a} h hrewind h' := by
    have hkept : s₂.unit = s₁.unit ∧ s₂.notes = s.notes := by cases hrewind; exact ⟨rfl, rfl⟩
    have hpos : s₂.asm.pos = s.asm.pos := rewind_pos h.pos hrewind
    refine ⟨⟨?_, ?_, ?_, fun ht => ?_⟩, fun hb => ?_⟩
    · rw [h'.unit, hkept.1, h.unit]
    · rw [← hpos]
      exact h'.pos
    · rw [← hpos, ← hkept.2]
      exact h'.notes
    · exact h'.behind (behind_rewind h.toTrail ht.toTraced (h.told ht) hrewind)
    · exact h'.behind (behind_rewind h.toTrail hb.toTraced (h.behind hb) hrewind)

instance : ClosedProgram Trail Restart where
  reserve := .modifyGet fun _ => .quiet rfl (by simp [Assembler.reserve, Assembler.emit, Assembler.pos]) rfl rfl
  patch _ _ := ⟨fun s a s' h => by
    obtain ⟨i, -, -, rfl⟩ := patch_ok h
    exact .quiet rfl (by simp [Assembler.pos]) rfl rfl⟩
  opening _ _ _ _ := .quiet rfl (Nat.le_refl _) rfl rfl
  beginning _ _ _ := .quiet rfl (Nat.le_refl _) rfl rfl
  closing s _ _ _ _ := .quiet rfl (Nat.le_refl _) (entries_endFunc s) rfl
  globals _ _ _ := .quiet rfl (Nat.le_refl _) rfl rfl

theorem told_start (u : AnalysisResult) (o : EmitOptions) (tracer : Tracer) : Told (start u o tracer) :=
  ⟨⟨List.Pairwise.nil, nofun, nofun⟩, fun _ => .nil⟩

theorem run_told {u : AnalysisResult} {o : EmitOptions} {tracer : Tracer} {p : Program} {table : DebugTable}
    (h : run (start u o tracer) = .ok (p, table) s) : Told s :=
  (Carries.run.carries _ _ _ h : Trail _ _).told (told_start u o tracer)

end Emit

end TreeCompiler
