import TreeCompiler.Proofs.Emit.Traverse

/-!
# Tables and labels that only grow

Whatever is emitted, and whatever of it is taken back, rows that were handed out stay and labels that were made are not made
again.

* `Assembler.Tidy`, `EmitState.Tidy` : entries of functions are labels, a label is bound at most once, and what is looked up
  by symbol is a row;
* `Assembler.Grown`, `Emit.Grown` : the tables have more rows, the new functions new labels, and what was tidy is tidy;
* `Emit.Grows m` : the computation `m` does nothing else to them, which holds of all emission.
-/

namespace TreeCompiler

namespace Assembler

/-- The entry labels of the function rows. -/
def entries (a : Assembler) : List Label := a.funcs.toList.map (·.entry)

structure Tidy (a : Assembler) : Prop where
  entries : ∀ l ∈ a.entries, l < a.labels.size
  once : a.bound.toList.Nodup
  bound : ∀ l, l ∈ a.bound.toList ↔ (a.address? l).isSome

structure Grown (a a' : Assembler) : Prop where
  texts : a.strings.size ≤ a'.strings.size
  natives : a.natives.size ≤ a'.natives.size
  labels : a.labels.size ≤ a'.labels.size
  rows : ∃ ls, a'.entries = a.entries ++ ls ∧ ∀ l ∈ ls, a.labels.size ≤ l
  tidy : a.Tidy → a'.Tidy

variable {a a' a'' : Assembler}

theorem Grown.of_same (texts : a'.strings = a.strings) (natives : a'.natives = a.natives) (labels : a'.labels = a.labels)
    (bound : a'.bound = a.bound) (rows : a'.entries = a.entries) : a.Grown a' where
  texts := Nat.le_of_eq (by rw [texts])
  natives := Nat.le_of_eq (by rw [natives])
  labels := Nat.le_of_eq (by rw [labels])
  rows := ⟨[], by rw [rows, List.append_nil], fun _ h => absurd h List.not_mem_nil⟩
  tidy := fun h => by
    refine ⟨?_, ?_, ?_⟩
    · rw [rows, labels]
      exact h.entries
    · rw [bound]
      exact h.once
    · unfold address?
      rw [bound, labels]
      exact h.bound

theorem Grown.refl (a : Assembler) : a.Grown a := .of_same rfl rfl rfl rfl rfl

theorem Grown.trans (h : a.Grown a') (h' : a'.Grown a'') : a.Grown a'' := by
  obtain ⟨ls, hls, hnew⟩ := h.rows
  obtain ⟨ls', hls', hnew'⟩ := h'.rows
  refine
    { texts := Nat.le_trans h.texts h'.texts
      natives := Nat.le_trans h.natives h'.natives
      labels := Nat.le_trans h.labels h'.labels
      rows := ⟨ls ++ ls', by rw [hls', hls, List.append_assoc], fun l hl => ?_⟩
      tidy := fun ht => h'.tidy (h.tidy ht) }
  rcases List.mem_append.1 hl with hl | hl
  · exact hnew l hl
  · exact Nat.le_trans h.labels (hnew' l hl)

theorem Grown.funcs_size (h : a.Grown a') : a.funcs.size ≤ a'.funcs.size := by
  obtain ⟨ls, hls, -⟩ := h.rows
  have hlen := congrArg List.length hls
  simp only [entries, List.length_append, List.length_map, Array.length_toList] at hlen
  omega

/-- A label that was no entry and is not new has not become one. -/
theorem Grown.not_entry (h : a.Grown a') {l : Label} (hl : l < a.labels.size) (hn : l ∉ a.entries) : l ∉ a'.entries := by
  obtain ⟨ls, hls, hnew⟩ := h.rows
  rw [hls, List.mem_append, not_or]
  exact ⟨hn, fun hmem => Nat.not_le_of_lt hl (hnew l hmem)⟩

theorem grown_newLabel (a : Assembler) : a.Grown a.newLabel.2 := by
  refine
    { Grown.refl a with
      labels := by simp [newLabel]
      tidy := fun h => ⟨fun l hl => ?_, h.once, fun l => ?_⟩ }
  · simp only [newLabel, Array.size_push]
    exact Nat.lt_succ_of_lt (h.entries l hl)
  · rw [Emit.address?_push a a.newLabel.2 rfl]
    exact h.bound l

theorem grown_place {l : Label} (hl : l < a.labels.size) (hfree : a.address? l = none) : a.Grown (a.place l) := by
  refine
    { Grown.refl a with
      labels := Nat.le_of_eq (by simp [place])
      tidy := fun h => ⟨fun k hk => ?_, ?_, fun k => ?_⟩ }
  · simpa [place] using h.entries k hk
  · have hnot : l ∉ a.bound.toList := by
      rw [h.bound l, hfree]
      simp
    simp only [place, Array.toList_push, List.nodup_append, List.nodup_cons, List.not_mem_nil, not_false_eq_true,
      List.nodup_nil, and_self, List.mem_singleton, forall_eq, true_and]
    refine ⟨h.once, fun x hx hxl => hnot ?_⟩
    rwa [← hxl]
  · rw [address?_place hl]
    simp only [place, Array.toList_push, List.mem_append, List.mem_singleton, h.bound k]
    by_cases hk : k = l
    · simp [hk]
    · simp [hk]

theorem bound_rewind (a : Assembler) (m : AsmMark) : (a.rewind m).bound.toList = a.bound.toList.take m.bound := by
  simp [rewind]

/-- A rewind unbinds the labels that were bound since the mark. -/
theorem address?_rewind_eq (a : Assembler) (m : AsmMark) (l : Label) :
    (a.rewind m).address? l = if l ∈ a.bound.toList.drop m.bound then none else a.address? l := by
  have hfold : ∀ (ls : List Label) (labels : Array (Option Nat)),
      ((ls.foldl (fun a l => a.setIfInBounds l none) labels)[l]?).join = if l ∈ ls then none else (labels[l]?).join := by
    intro ls
    induction ls with
    | nil => exact fun labels => by simp
    | cons k ls ih =>
      intro labels
      rw [List.foldl_cons, ih]
      by_cases hk : k = l
      · rw [hk, Array.getElem?_setIfInBounds, if_pos rfl]
        split
        · simp
        · split <;> simp
      · rw [Array.getElem?_setIfInBounds_ne hk]
        simp [Ne.symm hk]
  exact hfold _ a.labels

theorem grown_rewind (a : Assembler) (m : AsmMark) : a.Grown (a.rewind m) := by
  refine
    { Grown.refl a with
      labels := Nat.le_of_eq (labels_rewind_size a m).symm
      tidy := fun h => ⟨fun l hl => ?_, ?_, fun l => ?_⟩ }
  · rw [labels_rewind_size]
    exact h.entries l hl
  · rw [bound_rewind]
    exact h.once.sublist (List.take_sublist ..)
  · have hsplit : l ∈ a.bound.toList ↔ l ∈ a.bound.toList.take m.bound ∨ l ∈ a.bound.toList.drop m.bound := by
      rw [← List.mem_append, List.take_append_drop]
    rw [bound_rewind, address?_rewind_eq]
    by_cases hd : l ∈ a.bound.toList.drop m.bound
    · rw [if_pos hd]
      have hapart := (List.nodup_append.1 ((List.take_append_drop m.bound a.bound.toList).symm ▸ h.once)).2.2
      simp only [Option.isSome_none, Bool.false_eq_true, iff_false]
      exact fun ht => hapart l ht l hd rfl
    · rw [if_neg hd, ← h.bound l, hsplit]
      simp [hd]

theorem grown_declareFunc (a : Assembler) (name : String) (params : Int) : a.Grown (a.declareFunc name params).2.2 := by
  refine
    { texts := Nat.le_refl _
      natives := Nat.le_refl _
      labels := by simp [declareFunc, newLabel]
      rows := ⟨[a.labels.size], by simp [declareFunc, newLabel, entries], by simp⟩
      tidy := fun h => ⟨fun l hl => ?_, h.once, fun l => ?_⟩ }
  · simp only [declareFunc, newLabel, entries, Array.toList_push, List.map_append, List.mem_append, List.map_cons,
      List.map_nil, List.mem_singleton, Array.size_push] at hl ⊢
    rcases hl with hl | rfl
    · exact Nat.lt_succ_of_lt (h.entries l hl)
    · exact Nat.lt_succ_self _
  · rw [Emit.address?_push a (a.declareFunc name params).2.2 rfl]
    exact h.bound l

theorem entries_setFrame (a : Assembler) (index : Nat) (frame captures : Int) :
    (a.setFrame index frame captures).entries = a.entries := by
  simp only [setFrame, entries, Array.toList_modify]
  refine List.ext_getElem? fun k => ?_
  rw [List.getElem?_map, List.getElem?_map, List.getElem?_modify]
  cases a.funcs.toList[k]? with
  | none => rfl
  | some r => by_cases hk : index = k <;> simp [hk]

theorem grown_addString (a : Assembler) (text : String) : a.Grown (a.addString text).2 := by
  unfold addString
  split
  · exact .refl a
  · exact { Grown.refl a with
      texts := by simp
      tidy := fun h => ⟨h.entries, h.once, h.bound⟩ }

theorem grown_addNative (a : Assembler) (row : NativeRow) : a.Grown (a.addNative row).2 :=
  { Grown.refl a with
    natives := by simp [addNative]
    tidy := fun h => ⟨h.entries, h.once, h.bound⟩ }

theorem grown_addType (a : Assembler) (row : TypeRow) : a.Grown (a.addType row).2 := by
  unfold addType
  split
  · exact .refl a
  · exact .of_same rfl rfl rfl rfl rfl

end Assembler

/-! ## States -/

open Emit in
/-- What is looked up by symbol is a row of that symbol, and functions are queued in the order of their rows. -/
structure EmitState.Tidy (s : EmitState) : Prop where
  asm : s.asm.Tidy
  queue : s.work.size = s.asm.funcs.size
  rows : ∀ fn k l, s.funcs.get? fn = some (k, l) → s.work[k]? = some fn ∧
    ∃ r, s.asm.funcs[k]? = some r ∧ r.entry = l ∧ consult (funcName fn) s.unit = .ok r.row.name
  natives : ∀ fn k, s.natives.get? fn = some k → k < s.asm.natives.size

namespace Emit

structure Grown (s s' : EmitState) : Prop where
  unit : s'.unit = s.unit
  asm : s.asm.Grown s'.asm
  work : s.work.toList <+: s'.work.toList
  tidy : s.Tidy → s'.Tidy

namespace Grown

variable {s s' s'' : EmitState}

/-- A step that looks up the same rows. -/
theorem of_asm (unit : s'.unit = s.unit) (asm : s.asm.Grown s'.asm) (rows : s'.asm.funcs = s.asm.funcs)
    (funcs : s'.funcs = s.funcs) (work : s'.work = s.work) (natives : s'.natives = s.natives) : Grown s s' where
  unit := unit
  asm := asm
  work := by rw [work]
  tidy := fun h => by
    refine ⟨asm.tidy h.asm, by rw [work, rows, h.queue], ?_, fun fn k hk => ?_⟩
    · rw [rows, funcs, work, unit]
      exact h.rows
    · rw [natives] at hk
      exact Nat.lt_of_lt_of_le (h.natives fn k hk) asm.natives

theorem of_same (unit : s'.unit = s.unit) (asm : s'.asm = s.asm) (funcs : s'.funcs = s.funcs) (work : s'.work = s.work)
    (natives : s'.natives = s.natives) : Grown s s' :=
  of_asm unit (by rw [asm]; exact .refl _) (by rw [asm]) funcs work natives

theorem refl (s : EmitState) : Grown s s := of_same rfl rfl rfl rfl rfl

theorem trans (h : Grown s s') (h' : Grown s' s'') : Grown s s'' :=
  ⟨h'.unit.trans h.unit, h.asm.trans h'.asm, h.work.trans h'.work, fun ht => h'.tidy (h.tidy ht)⟩

end Grown

/-- A function that is new has its row behind the others. -/
theorem grown_declare {s : EmitState} {fn : SymbolId} {name : String} (params : Int)
    (hname : consult (funcName fn) s.unit = .ok name) :
    Grown s { s with
      asm := (s.asm.declareFunc name params).2.2
      funcs := s.funcs.insert fn ((s.asm.declareFunc name params).1, (s.asm.declareFunc name params).2.1)
      work := s.work.push fn } := by
  have hasm := s.asm.grown_declareFunc name params
  refine ⟨rfl, hasm, by simp, fun h => ⟨hasm.tidy h.asm, ?_, fun fn' k l hk => ?_, h.natives⟩⟩
  · simp only [Assembler.declareFunc, Assembler.newLabel, Array.size_push, h.queue]
  · simp only [IdMap.get?_insert] at hk
    simp only [Assembler.declareFunc, Assembler.newLabel, Array.getElem?_push, h.queue] at hk ⊢
    by_cases hfn : fn' = fn
    · rw [if_pos hfn, Option.some.injEq, Prod.mk.injEq] at hk
      obtain ⟨rfl, rfl⟩ := hk
      exact ⟨by rw [if_pos rfl, hfn], _, if_pos rfl, rfl, hfn ▸ hname⟩
    · rw [if_neg hfn] at hk
      obtain ⟨hwork, r, hr, hentry⟩ := h.rows fn' k l hk
      have hlt : k < s.asm.funcs.size := (Array.getElem?_eq_some_iff.1 hr).1
      exact ⟨by rw [if_neg (Nat.ne_of_lt hlt), hwork], r, by rw [if_neg (Nat.ne_of_lt hlt), hr], hentry⟩

/-- A native function that is new has its row behind the others. -/
theorem grown_declareNative {s : EmitState} (fn : SymbolId) (row : NativeRow) :
    Grown s { s with
      asm := (s.asm.addNative row).2
      natives := s.natives.insert fn (s.asm.addNative row).1 } := by
  have hasm := s.asm.grown_addNative row
  refine ⟨rfl, hasm, List.prefix_rfl, fun h => ⟨hasm.tidy h.asm, h.queue, h.rows, fun fn' k hk => ?_⟩⟩
  simp only [IdMap.get?_insert] at hk
  simp only [Assembler.addNative, Array.size_push] at hk ⊢
  split at hk
  · cases hk
    exact Nat.lt_succ_self _
  · exact Nat.lt_succ_of_lt (h.natives fn' k hk)

theorem grown_setFrame {s s' : EmitState} {index : Nat} {frame captures : Int} (unit : s'.unit = s.unit)
    (asm : s'.asm = s.asm.setFrame index frame captures) (funcs : s'.funcs = s.funcs) (work : s'.work = s.work)
    (natives : s'.natives = s.natives) : Grown s s' := by
  have hasm : s.asm.Grown s'.asm := by
    rw [asm]
    exact .of_same rfl rfl rfl rfl (s.asm.entries_setFrame index frame captures)
  refine ⟨unit, hasm, by rw [work], fun h => ⟨hasm.tidy h.asm, ?_, fun fn k l hk => ?_, fun fn k hk => ?_⟩⟩
  · rw [asm, work, Assembler.setFrame, Array.size_modify, h.queue]
  · rw [funcs] at hk
    obtain ⟨hwork, r, hr, hentry, hname⟩ := h.rows fn k l hk
    rw [asm, work, Assembler.setFrame, Array.getElem?_modify, hr, unit]
    by_cases hi : index = k
    · rw [if_pos hi]
      exact ⟨hwork, _, rfl, hentry, hname⟩
    · rw [if_neg hi]
      exact ⟨hwork, r, rfl, hentry, hname⟩
  · rw [natives] at hk
    exact Nat.lt_of_lt_of_le (h.natives fn k hk) hasm.natives

/-! ## Computations -/

/-- The computation does nothing else to tables, labels and the queue. -/
abbrev Grows {α : Type} (m : EmitM α) : Prop := Carries Grown m

abbrev EmitterGrows (rec : Emitter) : Prop := EmitterCarries Grown Grown rec

theorem grown_note (span : Span) : Grows (note span) := .modify fun _ => .of_same rfl rfl rfl rfl rfl

theorem grown_rewind (m : Mark) : Grows (rewind m) :=
  .modify fun s => .of_asm rfl (s.asm.grown_rewind m.code) rfl rfl rfl rfl

instance : Closed Grown Grown where
  refl := .refl
  trans := .trans
  pools _ _ _ := .of_same rfl rfl rfl rfl rfl
  frame _ _ := .of_same rfl rfl rfl rfl rfl
  counting _ _ := .of_same rfl rfl rfl rfl rfl
  emit _ := .modify fun _ => .of_asm rfl (.of_same rfl rfl rfl rfl rfl) rfl rfl rfl rfl
  note := grown_note
  newLabel := .modifyGet fun s => .of_asm rfl s.asm.grown_newLabel rfl rfl rfl rfl
  bindLabel l := ⟨fun s a s' h => by
    obtain ⟨hl, hfree, rfl⟩ := bindLabel_ok h
    exact .of_asm rfl (Assembler.grown_place hl hfree) rfl rfl rfl rfl⟩
  stringRef text := .modifyGet fun s => by
    refine .of_asm rfl (s.asm.grown_addString text) ?_ rfl rfl rfl
    dsimp only [Assembler.addString]
    split <;> rfl
  funcRef fn := ⟨fun s k s' h => by
    obtain rfl | ⟨name, params, hname, rfl⟩ := funcRef_cases h
    · exact .refl _
    · exact grown_declare params hname⟩
  nativeRef fn := ⟨fun s k s' h => by
    obtain rfl | ⟨row, rfl⟩ := nativeRef_cases h
    · exact .refl _
    · exact grown_declareNative fn row⟩
  typeRef t := ⟨fun s k s' h => by
    obtain rfl | ⟨row, rfl⟩ := typeRef_cases h
    · exact .refl _
    · refine .of_asm rfl (s.asm.grown_addType row) ?_ rfl rfl rfl
      dsimp only [Assembler.addType]
      split <;> rfl⟩
  le h := h
  enter _ _ hnote h := ((grown_note _).carries _ _ _ hnote).trans h
  after := .trans
  retry h hrewind h' := (h.trans ((grown_rewind _).carries _ _ _ hrewind)).trans h'

theorem grown_patch (ip slots : Nat) : Grows (patch ip slots) := by
  refine ⟨fun s a s' h => ?_⟩
  obtain ⟨i, -, -, rfl⟩ := patch_ok h
  exact .of_asm rfl (.of_same rfl rfl rfl rfl rfl) rfl rfl rfl rfl

instance : ClosedProgram Grown Grown where
  reserve := .modifyGet fun _ => .of_asm rfl (.of_same rfl rfl rfl rfl rfl) rfl rfl rfl rfl
  patch := grown_patch
  opening _ _ _ _ := .of_same rfl rfl rfl rfl rfl
  beginning _ _ _ := .of_same rfl rfl rfl rfl rfl
  closing _ _ _ _ _ := grown_setFrame rfl rfl rfl rfl rfl
  globals _ _ _ := .of_asm rfl (.of_same rfl rfl rfl rfl rfl) rfl rfl rfl rfl

instance (m : Mark) : Grows (rewind m) := grown_rewind m

end Emit

end TreeCompiler
