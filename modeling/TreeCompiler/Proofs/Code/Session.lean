import TreeCompiler.Proofs.Emit.Grow
import TreeCompiler.Proofs.Except

/-!
# Calls of an assembler

Labels are bound, code is emitted and tables are filled in any order, and what was emitted since a mark may be taken back at any
time, as long as the marks are used like a stack.

* `AsmCall`, `AsmSession` : the calls, and what they lead to. A call that is refused changes nothing; beside the assembler stand
  the marks that may be returned to and where each label was bound last;
* `AsmSession.Since` : what holds between a mark and the return to it, whatever is called in between;
* `RewoundTo` : code and bindings are those of the mark, with the sizes of reservations patched since;
* `finish_eq_ok_iff` : when a program can be finished, and what it is then;
* `session_spec` : all of this for every sequence of calls. `rewind_keeps_patch` : a patch is not taken back.
-/

namespace TreeCompiler

/-- An operand that refers to a label if it has the kind of one. -/
abbrev AsmOperand := { o : Operand // o.kind = .label → ∃ l, o = .label l }

inductive AsmCall
  | emit (op : Opcode) (args : List AsmOperand)
  | newLabel
  | bind (l : Label)
  | reserve
  | patch (ip : Nat) (slots : Int)
  | addString (text : String)
  | addType (row : TypeRow)
  | addNative (row : NativeRow)
  | declareFunc (name : String) (params : Int)
  | mark
  /-- Return to the mark with this number, counted from the oldest, which makes the younger ones invalid. -/
  | rewind (k : Nat)

structure AsmSession where
  asm : Assembler := {}
  /-- The marks that are valid, the oldest first. -/
  marks : List AsmMark := []
  /-- Where a label was bound last, whether or not that was taken back. -/
  placed : Label → Nat := fun _ => 0

namespace Assembler

/-- The assembler after a call that may be refused. -/
def unlessRefused (a : Assembler) (r : Except AsmMisuse Assembler) : Assembler := r.toOption.getD a

/-- What the calls patch, and nothing else of what they do. -/
def patched (a : Assembler) (calls : List AsmCall) : Assembler :=
  calls.foldl (fun a call =>
    match call with
    | .patch ip slots => a.unlessRefused (a.patch ip slots)
    | _ => a) a

end Assembler

namespace AsmSession

def step (s : AsmSession) : AsmCall → AsmSession
  | .emit op args => { s with asm := s.asm.unlessRefused (s.asm.emitOperands op (args.map (·.val))) }
  | .newLabel => { s with asm := s.asm.newLabel.2 }
  | .bind l =>
    match s.asm.bindLabel l with
    | .ok a => { s with asm := a, placed := Function.update s.placed l s.asm.pos }
    | .error _ => s
  | .reserve => { s with asm := s.asm.reserve }
  | .patch ip slots => { s with asm := s.asm.unlessRefused (s.asm.patch ip slots) }
  | .addString text => { s with asm := (s.asm.addString text).2 }
  | .addType row => { s with asm := (s.asm.addType row).2 }
  | .addNative row => { s with asm := (s.asm.addNative row).2 }
  | .declareFunc name params => { s with asm := (s.asm.declareFunc name params).2.2 }
  | .mark => { s with marks := s.marks ++ [s.asm.mark] }
  | .rewind k =>
    match s.marks[k]? with
    | some m => { s with asm := s.asm.rewind m, marks := s.marks.take (k + 1) }
    | none => s

def run (s : AsmSession) (calls : List AsmCall) : AsmSession := calls.foldl step s

def ofCalls (calls : List AsmCall) : AsmSession := run {} calls

theorem run_append (s : AsmSession) (calls more : List AsmCall) : s.run (calls ++ more) = (s.run calls).run more :=
  List.foldl_append

/-- What every call preserves holds after all of them. -/
theorem run_induction {P : AsmSession → Prop} (hstep : ∀ s call, P s → P (s.step call)) {s : AsmSession} (hs : P s)
    (calls : List AsmCall) : P (s.run calls) := by
  induction calls generalizing s with
  | nil => exact hs
  | cons call calls ih => exact ih (hstep s call hs)

end AsmSession

namespace Assembler

variable {a a' a'' : Assembler} {l : Label}

/-! ## Single calls -/

theorem emitOperands_cases (op : Opcode) (args : List Operand) :
    a.unlessRefused (a.emitOperands op args) = a ∨
      ∃ i, Instr.ofOperands? op args = some i ∧ a.unlessRefused (a.emitOperands op args) = a.emit i := by
  unfold emitOperands
  cases Instr.ofOperands? op args with
  | none => exact .inl rfl
  | some i => exact .inr ⟨i, rfl, rfl⟩

theorem bindLabel_eq_ok (hl : l < a.labels.size) (hfree : a.address? l = none) : a.bindLabel l = .ok (a.place l) := by
  rw [bindLabel, if_neg (Nat.not_le_of_lt hl), hfree]
  rfl

theorem bindLabel_ok (h : a.bindLabel l = .ok a') : l < a.labels.size ∧ a.address? l = none ∧ a' = a.place l := by
  unfold bindLabel at h
  split at h
  · cases h
  · split at h
    · cases h
    · rename_i hl hfree
      cases h
      exact ⟨Nat.lt_of_not_le hl, by simpa using hfree, rfl⟩

theorem code_rewind (a : Assembler) (m : AsmMark) : (a.rewind m).code.toList = a.code.toList.take m.ip := by
  simp [rewind]

/-- A reservation of another size. -/
def resized (slots : Int) (i : Instr) : Instr := if i.op = .reserve then { i with a := .int slots } else i

theorem code_patch (a : Assembler) (ip : Nat) (slots : Int) :
    a.unlessRefused (a.patch ip slots) = { a with code := a.code.modify ip (resized slots) } := by
  have hsame {code : Array Instr} (h : code = a.code) : a = { a with code := code } := by rw [h]
  unfold patch
  cases hi : a.code[ip]? with
  | none =>
    refine hsame (Array.ext_getElem? fun k => ?_)
    rw [Array.getElem?_modify]
    split
    · rename_i hk
      rw [← hk, hi]
      rfl
    · rfl
  | some i =>
    dsimp only
    split
    · rename_i hop
      refine congrArg (fun code => { a with code := code }) (Array.ext_getElem? fun k => ?_)
      rw [Array.getElem?_modify]
      split
      · rename_i hk
        have hlt : ip < a.code.size := (Array.getElem?_eq_some_iff.1 hi).1
        rw [← hk, hi, Array.getElem?_setIfInBounds_self_of_lt hlt]
        exact congrArg some (if_pos hop).symm
      · rename_i hk
        rw [Array.getElem?_setIfInBounds_ne hk]
    · rename_i hop
      refine hsame (Array.ext_getElem? fun k => ?_)
      rw [Array.getElem?_modify]
      split
      · rename_i hk
        rw [← hk, hi]
        exact congrArg some (if_neg hop)
      · rfl

/-- A patch changes the code, and not how long it is. -/
structure SamePlaces (a a' : Assembler) : Prop where
  pos : a'.pos = a.pos
  bound : a'.bound = a.bound
  labels : a'.labels = a.labels

theorem SamePlaces.address? (h : a.SamePlaces a') (l : Label) : a'.address? l = a.address? l := by
  rw [Assembler.address?, h.labels]
  rfl

theorem samePlaces_patch (a : Assembler) (ip : Nat) (slots : Int) : a.SamePlaces (a.unlessRefused (a.patch ip slots)) := by
  rw [code_patch]
  exact ⟨Array.size_modify .., rfl, rfl⟩

theorem grown_patch (a : Assembler) (ip : Nat) (slots : Int) : a.Grown (a.unlessRefused (a.patch ip slots)) := by
  rw [code_patch]
  exact .of_same rfl rfl rfl rfl rfl

theorem grown_patched (calls : List AsmCall) : ∀ a : Assembler, a.Grown (a.patched calls) := by
  induction calls with
  | nil => exact .refl
  | cons call calls ih =>
    intro a
    have hone : a.Grown (a.patched [call]) := by
      cases call with
      | patch ip slots => exact grown_patch a ip slots
      | _ => exact .refl a
    exact hone.trans (ih _)

theorem samePlaces_patched (calls : List AsmCall) : ∀ a : Assembler, a.SamePlaces (a.patched calls) := by
  induction calls with
  | nil => exact fun a => ⟨rfl, rfl, rfl⟩
  | cons call calls ih =>
    intro a
    have hrest := ih (a.patched [call])
    have hone : a.SamePlaces (a.patched [call]) := by
      cases call with
      | patch ip slots => exact samePlaces_patch a ip slots
      | _ => exact ⟨rfl, rfl, rfl⟩
    exact ⟨hrest.pos.trans hone.pos, hrest.bound.trans hone.bound, hrest.labels.trans hone.labels⟩

theorem tidy_step {s : AsmSession} (h : s.asm.Tidy) (call : AsmCall) : (s.step call).asm.Tidy := by
  cases call with
  | emit op args =>
    simp only [AsmSession.step]
    rcases emitOperands_cases (a := s.asm) op (args.map (·.val)) with heq | ⟨i, -, heq⟩
    · rwa [heq]
    · rw [heq]
      exact (Grown.of_same rfl rfl rfl rfl rfl : s.asm.Grown (s.asm.emit i)).tidy h
  | newLabel => exact (grown_newLabel s.asm).tidy h
  | bind l =>
    simp only [AsmSession.step]
    split
    · obtain ⟨hl, hfree, rfl⟩ := bindLabel_ok ‹_›
      exact (grown_place hl hfree).tidy h
    · exact h
  | reserve => exact (Grown.of_same rfl rfl rfl rfl rfl : s.asm.Grown s.asm.reserve).tidy h
  | patch ip slots => exact (grown_patch s.asm ip slots).tidy h
  | addString text => exact (grown_addString s.asm text).tidy h
  | addType row => exact (grown_addType s.asm row).tidy h
  | addNative row => exact (grown_addNative s.asm row).tidy h
  | declareFunc name params => exact (grown_declareFunc s.asm name params).tidy h
  | mark => exact h
  | rewind k =>
    simp only [AsmSession.step]
    split
    · exact (grown_rewind s.asm _).tidy h
    · exact h

theorem tidy_ofCalls (calls : List AsmCall) : (AsmSession.ofCalls calls).asm.Tidy :=
  AsmSession.run_induction (P := fun s => s.asm.Tidy) (fun _ call h => tidy_step h call)
    ⟨fun _ hl => absurd hl List.not_mem_nil, List.nodup_nil, fun l => by simp [address?]⟩ calls

end Assembler

/-! ## Between a mark and the return to it -/

namespace AsmSession

variable {s : AsmSession} {old : Assembler} {k : Nat} {call : AsmCall}

/-- The mark with number `k` was made of `old`. What was there then is still there, and younger marks lie behind it. -/
structure Since (k : Nat) (old : Assembler) (s : AsmSession) : Prop where
  mark : s.marks[k]? = some old.mark
  younger : ∀ j m, k ≤ j → s.marks[j]? = some m → old.pos ≤ m.ip ∧ old.bound.size ≤ m.bound
  code : s.asm.code.toList.take old.pos = old.code.toList
  bound : s.asm.bound.toList.take old.bound.size = old.bound.toList
  address : ∀ l ∈ old.bound.toList, s.asm.address? l = old.address? l

theorem Since.pos_le (h : Since k old s) : old.pos ≤ s.asm.pos := by
  have hlength := congrArg List.length h.code
  simp only [List.length_take, Array.length_toList] at hlength
  unfold Assembler.pos at *
  omega

theorem Since.bound_le (h : Since k old s) : old.bound.size ≤ s.asm.bound.size := by
  have hlength := congrArg List.length h.bound
  simp only [List.length_take, Array.length_toList] at hlength
  omega

/-- A call that leaves what is there, and the marks. -/
theorem Since.of_append {a : Assembler} {placed : Label → Nat} (h : Since k old s)
    (hcode : ∃ is, a.code.toList = s.asm.code.toList ++ is) (hbound : ∃ ls, a.bound.toList = s.asm.bound.toList ++ ls)
    (haddress : ∀ l ∈ old.bound.toList, a.address? l = s.asm.address? l) :
    Since k old { s with asm := a, placed := placed } where
  mark := h.mark
  younger := h.younger
  code := by
    obtain ⟨is, his⟩ := hcode
    rw [his, List.take_append_of_le_length h.pos_le, h.code]
  bound := by
    obtain ⟨ls, hls⟩ := hbound
    rw [hls, List.take_append_of_le_length h.bound_le, h.bound]
  address l hl := (haddress l hl).trans (h.address l hl)

theorem since_mark (s : AsmSession) : Since s.marks.length s.asm (s.step .mark) where
  mark := by simp [step]
  younger j m hj hm := by
    have hlt := (List.getElem?_eq_some_iff.1 hm).1
    simp only [step, List.length_append, List.length_singleton] at hlt
    obtain rfl : j = s.marks.length := by omega
    obtain rfl : s.asm.mark = m := by simpa [step] using hm
    exact ⟨Nat.le_refl _, Nat.le_refl _⟩
  code := List.take_of_length_le (Nat.le_refl _)
  bound := List.take_of_length_le (Nat.le_refl _)
  address _ _ := rfl

theorem Since.patch (h : Since k old s) (ip : Nat) (slots : Int) :
    Since k (old.patched [.patch ip slots]) (s.step (.patch ip slots)) := by
  have hold : old.patched [.patch ip slots] = { old with code := old.code.modify ip (Assembler.resized slots) } :=
    Assembler.code_patch old ip slots
  have hpos : (old.patched [.patch ip slots]).pos = old.pos := (Assembler.samePlaces_patch old ip slots).pos
  have hasm : (s.step (.patch ip slots)).asm = { s.asm with code := s.asm.code.modify ip (Assembler.resized slots) } :=
    Assembler.code_patch s.asm ip slots
  refine ⟨h.mark.trans ?_, ?_, ?_, ?_, ?_⟩
  · rw [Assembler.mark, Assembler.mark, hpos, hold]
  · rw [hpos, hold]
    exact h.younger
  · rw [hpos, hold, hasm]
    simp only [Array.toList_modify, List.take_modify, h.code]
  · rw [hold, hasm]
    exact h.bound
  · rw [hold, hasm]
    exact h.address

/-- Returning to the mark or to a younger one. -/
theorem Since.rewind (h : Since k old s) (htidy : s.asm.Tidy) {j : Nat} (hj : k ≤ j) : Since k old (s.step (.rewind j)) := by
  simp only [step]
  split
  · rename_i m hm
    obtain ⟨hip, hbound⟩ := h.younger j m hj hm
    refine ⟨?_, fun i m' hi hm' => ?_, ?_, ?_, fun l hl => ?_⟩
    · rw [List.getElem?_take_of_lt (by omega)]
      exact h.mark
    · rw [List.getElem?_take] at hm'
      split at hm'
      · exact h.younger i m' hi hm'
      · cases hm'
    · rw [Assembler.code_rewind, List.take_take, Nat.min_eq_left hip, h.code]
    · rw [Assembler.bound_rewind, List.take_take, Nat.min_eq_left hbound, h.bound]
    · have hkept : l ∈ s.asm.bound.toList.take m.bound := by
        rw [← h.bound] at hl
        exact List.take_subset_take_left _ hbound hl
      have hapart := (List.nodup_append.1 ((List.take_append_drop m.bound s.asm.bound.toList).symm ▸ htidy.once)).2.2
      rw [Assembler.address?_rewind_eq, if_neg fun hd => hapart l hkept l hd rfl]
      exact h.address l hl
  · exact h

theorem Since.step (h : Since k old s) (htidy : s.asm.Tidy) (hold : old.Tidy) (hcall : ∀ j, call = .rewind j → k ≤ j) :
    Since k (old.patched [call]) (s.step call) := by
  have hnone : s.asm.code.toList = s.asm.code.toList ++ [] := (List.append_nil _).symm
  have hnone' : s.asm.bound.toList = s.asm.bound.toList ++ [] := (List.append_nil _).symm
  cases call with
  | emit op args =>
    simp only [AsmSession.step]
    rcases Assembler.emitOperands_cases (a := s.asm) op (args.map (·.val)) with heq | ⟨i, -, heq⟩
    · rw [heq]
      exact h
    · rw [heq]
      exact h.of_append ⟨[i], Array.toList_push ..⟩ ⟨[], hnone'⟩ fun _ _ => rfl
  | newLabel => exact h.of_append ⟨[], hnone⟩ ⟨[], hnone'⟩ fun l _ => Emit.address?_push s.asm s.asm.newLabel.2 rfl l
  | bind l =>
    simp only [AsmSession.step]
    split
    · obtain ⟨hl, hfree, rfl⟩ := Assembler.bindLabel_ok ‹_›
      refine h.of_append ⟨[], hnone⟩ ⟨[l], Array.toList_push ..⟩ fun l' hl' => ?_
      rw [Assembler.address?_place hl, if_neg]
      rintro rfl
      have hbound := (hold.bound l').1 hl'
      rw [← h.address l' hl', hfree] at hbound
      cases hbound
    · exact h
  | reserve => exact h.of_append ⟨[_], Array.toList_push ..⟩ ⟨[], hnone'⟩ fun _ _ => rfl
  | patch ip slots => exact h.patch ip slots
  | addString text =>
    simp only [AsmSession.step, Assembler.addString]
    split <;> exact h.of_append ⟨[], hnone⟩ ⟨[], hnone'⟩ fun _ _ => rfl
  | addType row =>
    simp only [AsmSession.step, Assembler.addType]
    split <;> exact h.of_append ⟨[], hnone⟩ ⟨[], hnone'⟩ fun _ _ => rfl
  | addNative row => exact h.of_append ⟨[], hnone⟩ ⟨[], hnone'⟩ fun _ _ => rfl
  | declareFunc name params =>
    exact h.of_append ⟨[], hnone⟩ ⟨[], hnone'⟩ fun l _ => Emit.address?_push s.asm (s.asm.declareFunc name params).2.2 rfl l
  | mark =>
    refine { h with mark := ?_, younger := fun j m hj hm => ?_ }
    · exact (List.getElem?_append_left (List.getElem?_eq_some_iff.1 h.mark).1).trans h.mark
    · rcases List.mem_append.1 (List.mem_of_getElem? hm) with hmem | hmem
      · rw [AsmSession.step, List.getElem?_append] at hm
        split at hm
        · exact h.younger j m hj hm
        · obtain rfl := List.mem_singleton.1 (List.mem_of_getElem? hm)
          exact ⟨h.pos_le, h.bound_le⟩
      · obtain rfl := List.mem_singleton.1 hmem
        exact ⟨h.pos_le, h.bound_le⟩
  | rewind j => exact h.rewind htidy (hcall j rfl)

theorem Since.run {calls : List AsmCall} (h : Since k old s) (htidy : s.asm.Tidy) (hold : old.Tidy)
    (hcalls : ∀ j, .rewind j ∈ calls → k ≤ j) : Since k (old.patched calls) (s.run calls) := by
  induction calls generalizing s old with
  | nil => exact h
  | cons call calls ih =>
    have hstep := h.step htidy hold fun j hj => hcalls j (hj ▸ List.mem_cons_self ..)
    exact ih hstep (Assembler.tidy_step htidy call) ((Assembler.grown_patched [call] old).tidy hold)
      fun j hj => hcalls j (List.mem_cons_of_mem _ hj)

end AsmSession

/-! ## After the return -/

namespace Assembler

variable {a a' a'' : Assembler} {l : Label}

/-- Code and bindings are those of `old`. A label that is not bound there can be bound. -/
structure RewoundTo (old a : Assembler) : Prop where
  code : a.code = old.code
  address : ∀ l, a.address? l = old.address? l
  labels : old.labels.size ≤ a.labels.size
  free : ∀ l < a.labels.size, old.address? l = none → ∃ a', a.bindLabel l = .ok a' ∧ a'.address? l = some old.pos

/-- Labels and rows of `a` have the same numbers in `a'`. -/
structure Keeps (a a' : Assembler) : Prop where
  labels : a.labels.size ≤ a'.labels.size
  funcs : a.funcs.toList <+: a'.funcs.toList
  natives : a.natives.toList <+: a'.natives.toList
  strings : a.strings.toList <+: a'.strings.toList
  types : a.types.toList <+: a'.types.toList

theorem Keeps.refl (a : Assembler) : a.Keeps a :=
  ⟨Nat.le_refl _, List.prefix_refl _, List.prefix_refl _, List.prefix_refl _, List.prefix_refl _⟩

theorem Keeps.trans (h : a.Keeps a') (h' : a'.Keeps a'') : a.Keeps a'' :=
  ⟨h.labels.trans h'.labels, h.funcs.trans h'.funcs, h.natives.trans h'.natives, h.strings.trans h'.strings,
    h.types.trans h'.types⟩

theorem keeps_step (s : AsmSession) (call : AsmCall) : s.asm.Keeps (s.step call).asm := by
  have hpush {α : Type} (rows : Array α) (row : α) : rows.toList <+: (rows.push row).toList :=
    ⟨[row], (Array.toList_push ..).symm⟩
  cases call with
  | emit op args =>
    simp only [AsmSession.step]
    rcases emitOperands_cases (a := s.asm) op (args.map (·.val)) with heq | ⟨i, -, heq⟩
    · rw [heq]
      exact .refl _
    · rw [heq]
      exact { Keeps.refl s.asm with }
  | newLabel => exact { Keeps.refl s.asm with labels := by simp [AsmSession.step, newLabel] }
  | bind l =>
    simp only [AsmSession.step]
    split
    · obtain ⟨-, -, rfl⟩ := bindLabel_ok ‹_›
      exact { Keeps.refl s.asm with labels := by simp [place] }
    · exact .refl _
  | reserve => exact { Keeps.refl s.asm with }
  | patch ip slots =>
    simp only [AsmSession.step, code_patch]
    exact { Keeps.refl s.asm with }
  | addString text =>
    simp only [AsmSession.step, addString]
    split
    · exact .refl _
    · exact { Keeps.refl s.asm with strings := hpush .. }
  | addType row =>
    simp only [AsmSession.step, addType]
    split
    · exact .refl _
    · exact { Keeps.refl s.asm with types := hpush .. }
  | addNative row => exact { Keeps.refl s.asm with natives := hpush .. }
  | declareFunc name params =>
    exact { Keeps.refl s.asm with labels := by simp [AsmSession.step, declareFunc, newLabel], funcs := hpush .. }
  | mark => exact .refl _
  | rewind k =>
    simp only [AsmSession.step]
    split
    · exact { Keeps.refl s.asm with labels := Nat.le_of_eq (labels_rewind_size ..).symm }
    · exact .refl _

theorem keeps_run (s : AsmSession) (calls : List AsmCall) : s.asm.Keeps (s.run calls).asm :=
  AsmSession.run_induction (P := fun s' => s.asm.Keeps s'.asm) (fun s' call h => h.trans (keeps_step s' call)) (.refl _) calls

/-- The first row that is found is found in a longer table, too. -/
theorem findIdx?_prefix {α : Type} {p : α → Bool} {rows rows' : Array α} (h : rows.toList <+: rows'.toList) {i : Nat}
    (hi : rows.findIdx? p = some i) : rows'.findIdx? p = some i := by
  obtain ⟨more, hmore⟩ := h
  obtain ⟨rows⟩ := rows
  obtain ⟨rows'⟩ := rows'
  rw [List.findIdx?_toArray] at hi ⊢
  rw [show rows' = rows ++ more from hmore.symm, List.findIdx?_append, hi]
  rfl

/-- What `a` has handed out is valid in `a'`: adding a text or a type again gives the number that it has. -/
structure StillValid (a a' : Assembler) : Prop extends a.Keeps a' where
  addString : ∀ text ∈ a.strings, a'.addString text = ((a.addString text).1, a')
  addType : ∀ row ∈ a.types, ∀ row', typeKey row = typeKey row' → a'.addType row' = ((a.addType row').1, a')

theorem Keeps.stillValid (h : a.Keeps a') : a.StillValid a' := by
  refine { h with addString := fun text htext => ?_, addType := fun row hrow row' hkey => ?_ }
  · obtain ⟨i, hi⟩ : ∃ i, a.strings.findIdx? (· == text) = some i :=
      Option.isSome_iff_exists.1 (Array.findIdx?_isSome.trans (Array.any_eq_true'.2 ⟨text, htext, beq_self_eq_true _⟩))
    simp only [Assembler.addString, hi, findIdx?_prefix h.strings hi]
  · obtain ⟨i, hi⟩ : ∃ i, a.types.findIdx? (fun u => typeKey u == typeKey row') = some i :=
      Option.isSome_iff_exists.1 (Array.findIdx?_isSome.trans (Array.any_eq_true'.2 ⟨row, hrow, beq_iff_eq.2 hkey⟩))
    simp only [Assembler.addType, hi, findIdx?_prefix h.types hi]

theorem rewoundTo_of_since {s : AsmSession} {old : Assembler} {k : Nat} (h : AsmSession.Since k old s) (htidy : s.asm.Tidy)
    (hold : old.Tidy) (hlabels : old.labels.size ≤ s.asm.labels.size) : old.RewoundTo (s.step (.rewind k)).asm := by
  have hasm : (s.step (.rewind k)).asm = s.asm.rewind old.mark := by
    simp only [AsmSession.step, h.mark]
  have hcode : (s.asm.rewind old.mark).code = old.code := by
    rw [← Array.toList_inj, code_rewind]
    exact h.code
  have haddress : ∀ l, (s.asm.rewind old.mark).address? l = old.address? l := by
    intro l
    have hsplit : l ∈ s.asm.bound.toList ↔ l ∈ old.bound.toList ∨ l ∈ s.asm.bound.toList.drop old.bound.size := by
      rw [← h.bound, ← List.mem_append, List.take_append_drop]
    rw [address?_rewind_eq, show old.mark.bound = old.bound.size from rfl]
    by_cases hl : l ∈ old.bound.toList
    · have hapart := (List.nodup_append.1 ((List.take_append_drop old.bound.size s.asm.bound.toList).symm ▸ htidy.once)).2.2
      rw [h.bound] at hapart
      rw [if_neg fun hd => hapart l hl l hd rfl, h.address l hl]
    · have hunbound : old.address? l = none := by
        rw [← Option.not_isSome_iff_eq_none, ← hold.bound l]
        exact hl
      rw [hunbound]
      split
      · rfl
      · rename_i hd
        rw [← Option.not_isSome_iff_eq_none, ← htidy.bound l, hsplit]
        exact fun hmem => hmem.elim hl hd
  rw [hasm]
  refine ⟨hcode, haddress, by rwa [labels_rewind_size], fun l hl hfree => ?_⟩
  refine ⟨_, bindLabel_eq_ok hl ((haddress l).trans hfree), ?_⟩
  rw [address?_place hl, if_pos rfl, pos, hcode]
  rfl

/-! ## Finishing -/

end Assembler

/-- The operand with an address in the place of its label. -/
def Operand.resolved (place : Label → Nat) (o : Operand) : Operand :=
  if o.kind = .label then .address (place o.val.toNat) else o

def Instr.resolved (place : Label → Nat) (i : Instr) : Instr :=
  { i with a := i.a.resolved place, b := i.b.resolved place, c := i.c.resolved place }

namespace Assembler

variable {a : Assembler} {place : Label → Nat} {entry : Label}

/-- Whatever is jumped to, called or started at is bound. -/
structure AllBound (a : Assembler) (entry : Label) : Prop where
  jumps : ∀ i ∈ a.code, ∀ l, .label l ∈ i.operands → (a.address? l).isSome
  bodies : ∀ f ∈ a.funcs, (a.address? f.entry).isSome
  entry : (a.address? entry).isSome

/-- The program with the labels at the given places. -/
def program (a : Assembler) (place : Label → Nat) (entry : Label) : Program where
  code := a.code.map (·.resolved place)
  strings := a.strings
  funcs := a.funcs.map fun f => { f.row with entry := place f.entry }
  natives := a.natives
  types := a.types
  globals := a.globals
  entry := place entry

/-- Operands of the kind of a label refer to labels, and a label that is bound is bound where it was placed last. -/
structure Labelled (a : Assembler) (place : Label → Nat) : Prop where
  operands : ∀ i ∈ a.code, ∀ o ∈ i.operands, o.kind = .label → ∃ l, o = .label l
  placed : ∀ l ip, a.address? l = some ip → place l = ip

end Assembler

/-- A check of each element and what becomes of it. -/
theorem Except.mapM_eq_ok_iff {ε α β : Type} {f : α → Except ε β} {p : α → Prop} {g : α → β} {l : List α} {l' : List β}
    (h : ∀ a b, f a = .ok b ↔ p a ∧ b = g a) : l.mapM f = .ok l' ↔ (∀ a ∈ l, p a) ∧ l' = l.map g := by
  induction l generalizing l' with
  | nil => simp [pure, Except.pure, eq_comm]
  | cons a l ih =>
    rw [List.mapM_cons, List.forall_mem_cons, List.map_cons]
    constructor
    · intro hok
      obtain ⟨b, hb, h₁⟩ := Except.bind_ok hok
      obtain ⟨bs, hbs, h₂⟩ := Except.bind_ok h₁
      cases h₂
      obtain ⟨ha, rfl⟩ := (h a b).1 hb
      obtain ⟨hl, rfl⟩ := ih.1 hbs
      exact ⟨⟨ha, hl⟩, rfl⟩
    · rintro ⟨⟨ha, hl⟩, rfl⟩
      rw [(h a _).2 ⟨ha, rfl⟩, ih.2 ⟨hl, rfl⟩]
      rfl

namespace Assembler

variable {a : Assembler} {place : Label → Nat} {entry : Label}

theorem resolveOperand_eq_ok_iff (hplaced : ∀ l ip, a.address? l = some ip → place l = ip) {ip : Nat} {o o' : Operand} :
    a.resolveOperand ip o = .ok o' ↔ (o.kind = .label → (a.address? o.val.toNat).isSome) ∧ o' = o.resolved place := by
  unfold resolveOperand Operand.resolved
  by_cases hk : o.kind = .label
  · cases hat : a.address? o.val.toNat with
    | none => simp [hk]
    | some at' => simp [hk, hplaced _ _ hat, eq_comm]
  · rw [if_pos hk, if_neg hk]
    exact ⟨fun h => ⟨fun hl => absurd hl hk, (Except.ok.inj h).symm⟩, fun h => congrArg Except.ok h.2.symm⟩

theorem mapOperands_eq_ok_iff (hplaced : ∀ l ip, a.address? l = some ip → place l = ip) {ip : Nat} {i i' : Instr} :
    i.mapOperands (a.resolveOperand ip) = .ok i' ↔
      (∀ o ∈ i.operands, o.kind = .label → (a.address? o.val.toNat).isSome) ∧ i' = i.resolved place := by
  have hresolve (o : Operand) := @resolveOperand_eq_ok_iff a place hplaced ip o
  simp only [Instr.operands, List.forall_mem_cons, List.not_mem_nil, false_implies, implies_true, and_true]
  constructor
  · intro h
    obtain ⟨x, hx, h₁⟩ := Except.bind_ok h
    obtain ⟨y, hy, h₂⟩ := Except.bind_ok h₁
    obtain ⟨z, hz, h₃⟩ := Except.bind_ok h₂
    cases h₃
    obtain ⟨ha, rfl⟩ := (hresolve _).1 hx
    obtain ⟨hb, rfl⟩ := (hresolve _).1 hy
    obtain ⟨hc, rfl⟩ := (hresolve _).1 hz
    exact ⟨⟨ha, hb, hc⟩, rfl⟩
  · rintro ⟨⟨ha, hb, hc⟩, rfl⟩
    rw [Instr.mapOperands, (hresolve _).2 ⟨ha, rfl⟩, (hresolve _).2 ⟨hb, rfl⟩, (hresolve _).2 ⟨hc, rfl⟩]
    rfl

theorem resolveFunc_eq_ok_iff (hplaced : ∀ l ip, a.address? l = some ip → place l = ip) {f : AsmFunc} {row : FuncRow} :
    a.resolveFunc f = .ok row ↔ (a.address? f.entry).isSome ∧ row = { f.row with entry := place f.entry } := by
  unfold resolveFunc
  cases hat : a.address? f.entry with
  | none => simp
  | some ip => simp [hplaced _ _ hat, eq_comm]

theorem finish_eq_ok_iff (h : a.Labelled place) {p : Program} :
    a.finish entry = .ok p ↔ a.AllBound entry ∧ p = a.program place entry := by
  have hcode {code : List Instr} := @Except.mapM_eq_ok_iff _ _ _ (fun x : Instr × Nat => x.1.mapOperands (a.resolveOperand x.2))
    (fun x => ∀ o ∈ x.1.operands, o.kind = .label → (a.address? o.val.toNat).isSome) (fun x => x.1.resolved place)
    a.code.toList.zipIdx code fun _ _ => mapOperands_eq_ok_iff h.placed
  have hfuncs {rows : List FuncRow} := @Except.mapM_eq_ok_iff _ _ _ a.resolveFunc _ _ a.funcs.toList rows
    fun _ _ => resolveFunc_eq_ok_iff h.placed
  have hfst : a.code.toList.zipIdx.map (fun x => x.1.resolved place) = a.code.toList.map (·.resolved place) := by
    calc
      _ = (a.code.toList.zipIdx.map Prod.fst).map (·.resolved place) := (List.map_map ..).symm
      _ = _ := by rw [List.zipIdx_map_fst]
  have hprogram {ip : Nat} (hip : a.address? entry = some ip) : a.program place entry =
      { code := (a.code.toList.map (·.resolved place)).toArray, strings := a.strings,
        funcs := (a.funcs.toList.map fun f => { f.row with entry := place f.entry }).toArray, natives := a.natives,
        types := a.types, globals := a.globals, entry := ip } := by
    simp only [program, h.placed _ _ hip, ← Array.toList_map, Array.toArray_toList]
  constructor
  · intro hok
    obtain ⟨code, hc, h₁⟩ := Except.bind_ok hok
    obtain ⟨rows, hf, h₂⟩ := Except.bind_ok h₁
    obtain ⟨hjumps, rfl⟩ := hcode.1 hc
    obtain ⟨hbodies, rfl⟩ := hfuncs.1 hf
    cases hip : a.address? entry with
    | none =>
      rw [hip] at h₂
      cases h₂
    | some ip =>
      rw [hip] at h₂
      cases h₂
      refine ⟨⟨fun i hi l hl => ?_, fun f hf => hbodies f hf.val, by rw [hip]; rfl⟩, ?_⟩
      · obtain ⟨k, hk, rfl⟩ := Array.mem_iff_getElem.1 hi
        exact hjumps (a.code[k], k) (by simp [List.mk_mem_zipIdx_iff_getElem?, hk]) _ hl rfl
      · rw [hprogram hip, hfst]
  · rintro ⟨hbound, rfl⟩
    obtain ⟨ip, hip⟩ := Option.isSome_iff_exists.1 hbound.entry
    have hjumps : ∀ x ∈ a.code.toList.zipIdx, ∀ o ∈ x.1.operands, o.kind = .label → (a.address? o.val.toNat).isSome := by
      intro x hx o ho hk
      have hi : x.1 ∈ a.code := ⟨List.fst_mem_of_mem_zipIdx hx⟩
      obtain ⟨l, rfl⟩ := h.operands x.1 hi o ho hk
      exact hbound.jumps x.1 hi l ho
    rw [finish, hcode.2 ⟨hjumps, rfl⟩, hfuncs.2 ⟨fun f hf => hbound.bodies f ⟨hf⟩, rfl⟩, hprogram hip, hip, hfst]
    rfl

/-- Only what is bound now counts for where a label was placed. -/
theorem Labelled.of_same {a' : Assembler} (h : a.Labelled place) (hcode : ∀ i ∈ a'.code, i ∈ a.code)
    (haddress : ∀ l ip, a'.address? l = some ip → a.address? l = some ip) : a'.Labelled place where
  operands i hi := h.operands i (hcode i hi)
  placed l ip hip := h.placed l ip (haddress l ip hip)

theorem mem_operands_of_ofOperands? {op : Opcode} {args : List Operand} {i : Instr} (h : Instr.ofOperands? op args = some i)
    {o : Operand} (ho : o ∈ i.operands) : o ∈ args ∨ o = .none := by
  unfold Instr.ofOperands? at h
  split at h <;> cases h <;> simp only [Instr.operands, List.mem_cons, List.not_mem_nil, or_false] at ho ⊢ <;> grind

theorem labelled_step {s : AsmSession} (h : s.asm.Labelled s.placed) (call : AsmCall) :
    (s.step call).asm.Labelled (s.step call).placed := by
  cases call with
  | emit op args =>
    simp only [AsmSession.step]
    rcases emitOperands_cases (a := s.asm) op (args.map (·.val)) with heq | ⟨i, hi, heq⟩
    · rwa [heq]
    · rw [heq]
      refine { h with operands := fun j hj o ho hk => ?_ }
      rcases Array.mem_push.1 hj with hj | rfl
      · exact h.operands j hj o ho hk
      · rcases mem_operands_of_ofOperands? hi ho with hmem | rfl
        · obtain ⟨o, -, rfl⟩ := List.mem_map.1 hmem
          exact o.2 hk
        · cases hk
  | newLabel =>
    refine h.of_same (fun _ hi => hi) fun l ip hip => ?_
    rwa [AsmSession.step, Emit.address?_push s.asm s.asm.newLabel.2 rfl] at hip
  | bind l =>
    simp only [AsmSession.step]
    split
    · obtain ⟨hl, -, rfl⟩ := bindLabel_ok ‹_›
      refine { h with placed := fun l' ip hip => ?_ }
      rw [address?_place hl] at hip
      split at hip
      · rename_i heq
        exact (congrArg _ heq).trans ((Function.update_self ..).trans (Option.some.inj hip))
      · rename_i hne
        exact (Function.update_of_ne hne ..).trans (h.placed l' ip hip)
    · exact h
  | reserve =>
    refine { h with operands := fun j hj o ho hk => ?_ }
    rcases Array.mem_push.1 hj with hj | rfl
    · exact h.operands j hj o ho hk
    · simp only [Instr.operands, List.mem_cons, List.not_mem_nil, or_false] at ho
      rcases ho with rfl | rfl | rfl <;> cases hk
  | patch ip slots =>
    simp only [AsmSession.step, code_patch]
    refine { h with operands := fun j hj o ho hk => ?_ }
    obtain ⟨k, hk'⟩ := Array.mem_iff_getElem?.1 hj
    rw [Array.getElem?_modify] at hk'
    split at hk'
    · obtain ⟨i, hi, rfl⟩ := Option.map_eq_some_iff.1 hk'
      unfold resized at ho
      split at ho
      · rcases List.mem_cons.1 ho with rfl | ho
        · cases hk
        · exact h.operands i (Array.mem_of_getElem? hi) o (List.mem_cons_of_mem _ ho) hk
      · exact h.operands i (Array.mem_of_getElem? hi) o ho hk
    · exact h.operands j (Array.mem_of_getElem? hk') o ho hk
  | addString text =>
    simp only [AsmSession.step, addString]
    split <;> exact { h with }
  | addType row =>
    simp only [AsmSession.step, addType]
    split <;> exact { h with }
  | addNative row => exact { h with }
  | declareFunc name params =>
    refine h.of_same (fun _ hi => hi) fun l ip hip => ?_
    rwa [AsmSession.step, Emit.address?_push s.asm (s.asm.declareFunc name params).2.2 rfl] at hip
  | mark => exact h
  | rewind k =>
    simp only [AsmSession.step]
    split
    · rename_i m _
      refine h.of_same (fun i hi => ?_) fun l ip hip => ?_
      · rw [← Array.mem_toList_iff, code_rewind] at hi
        exact Array.mem_toList_iff.1 (List.mem_of_mem_take hi)
      · rw [address?_rewind_eq] at hip
        split at hip
        · cases hip
        · exact hip
    · exact h

theorem labelled_ofCalls (calls : List AsmCall) :
    (AsmSession.ofCalls calls).asm.Labelled (AsmSession.ofCalls calls).placed :=
  AsmSession.run_induction (P := fun s => s.asm.Labelled s.placed) (fun _ call h => labelled_step h call)
    ⟨fun i hi => absurd hi (Array.not_mem_empty i), fun l ip hip => by simp [address?] at hip⟩ calls

end Assembler

namespace AsmSession

/-- For every sequence of calls:

* the return to a mark restores code and bindings but for the patches since the mark, as long as no older mark is returned to in
  between, and what was unbound can be bound;
* rows keep their numbers whatever is called afterwards, and a text or type that is added again gets its number;
* a program is finished exactly when everything is bound, with each label where it was bound last. -/
theorem session_spec (calls : List AsmCall) :
    (∀ since, (∀ k, AsmCall.rewind k ∈ since → (ofCalls calls).marks.length ≤ k) →
      ((ofCalls calls).asm.patched since).RewoundTo
        (ofCalls (calls ++ AsmCall.mark :: since ++ [AsmCall.rewind (ofCalls calls).marks.length])).asm) ∧
    (∀ more, (ofCalls calls).asm.StillValid (ofCalls (calls ++ more)).asm) ∧
    ∀ entry p, (ofCalls calls).asm.finish entry = .ok p ↔
      (ofCalls calls).asm.AllBound entry ∧ p = (ofCalls calls).asm.program (ofCalls calls).placed entry := by
  refine ⟨fun since hsince => ?_, fun more => ?_, fun entry p =>
    Assembler.finish_eq_ok_iff (Assembler.labelled_ofCalls calls)⟩
  · have hrun : ofCalls (calls ++ AsmCall.mark :: since ++ [AsmCall.rewind (ofCalls calls).marks.length]) =
        (((ofCalls calls).step .mark).run since).step (.rewind (ofCalls calls).marks.length) := by
      simp [ofCalls, run]
    have htidy := Assembler.tidy_ofCalls calls
    have hmark : ((ofCalls calls).step .mark).asm.Tidy := Assembler.tidy_step htidy .mark
    have hlabels := (Assembler.keeps_run ((ofCalls calls).step .mark) since).labels
    rw [hrun]
    refine Assembler.rewoundTo_of_since ((since_mark _).run hmark htidy hsince) ?_
      ((Assembler.grown_patched since _).tidy htidy) ?_
    · exact run_induction (P := fun s => s.asm.Tidy) (fun _ call h => Assembler.tidy_step h call) hmark since
    · rw [(Assembler.samePlaces_patched since _).labels]
      exact hlabels
  · have hrun : ofCalls (calls ++ more) = (ofCalls calls).run more := run_append {} calls more
    rw [hrun]
    exact (Assembler.keeps_run _ more).stillValid

/-- A label that is bound between two marks, and taken back by the return to the first one. -/
theorem session_spec_nested :
    (ofCalls [.newLabel, .reserve]).asm.RewoundTo
      (ofCalls [.newLabel, .reserve, .mark, .reserve, .mark, .bind 0, .rewind 1, .bind 0, .rewind 0]).asm ∧
    (ofCalls [.newLabel, .reserve, .mark, .reserve, .mark, .bind 0, .rewind 1, .bind 0, .rewind 0]).placed 0 = 2 :=
  ⟨(session_spec [.newLabel, .reserve]).1 [.reserve, .mark, .bind 0, .rewind 1, .bind 0] fun _ _ => Nat.zero_le _, by decide⟩

/-- A reservation that was patched since the mark keeps its size. -/
theorem rewind_keeps_patch : ¬∀ calls since, (∀ k, AsmCall.rewind k ∈ since → (ofCalls calls).marks.length ≤ k) →
    (ofCalls calls).asm.RewoundTo
      (ofCalls (calls ++ AsmCall.mark :: since ++ [AsmCall.rewind (ofCalls calls).marks.length])).asm := by
  intro hclaim
  have hcode := (hclaim [.reserve] [.patch 0 3] (by simp)).code
  revert hcode
  decide

end AsmSession

end TreeCompiler
