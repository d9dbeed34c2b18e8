import TreeCompiler.Proofs.Code.Machine
import TreeCompiler.Proofs.Emit.Act
import TreeCompiler.Proofs.Emit.Grow

/-!
# What code refers to

The operands of an instruction are immediates, registers and slots, rows of the tables, and labels. Rows stay, so it is enough
that they are there in some later state; labels are bound again and again by what is taken back, so they are followed from one
state to the next.

* `EmitState.Knows` : the row or the variable that an operand names exists;
* `Site` : the place of a piece of code; `Site.Own` : its labels, which are neither older nor entries of functions;
* `Leads K s s'` : from `s` to `s'` code was appended that refers to known operands and jumps to own labels only, and each
  label that was bound is an own one and lies in that code;
* `Refers K m Q` : the computation `m` does so, with what holds of its result.
-/

namespace TreeCompiler

/-- An instruction that does not jump. -/
def Opcode.isPlain : Opcode → Bool
  | jump | jumpIf | jumpUnless | iterNext => false
  | o => o.isKnown

/-- What an operand names exists. A label is no such name. -/
def EmitState.Knows (s : EmitState) (o : Operand) : Prop :=
  match o.kind with
  | .text => 0 ≤ o.val ∧ o.val < s.asm.strings.size
  | .func => 0 ≤ o.val ∧ o.val < s.asm.funcs.size
  | .native => 0 ≤ o.val ∧ o.val < s.asm.natives.size
  | .global => ∃ v sym, s.unit.scopes.symbol? v = some sym ∧ sym.storage = .global o.val
  | .label | .address => False
  | _ => True

/-- Functions that start before the address are kept. -/
theorem Recorder.truncate_of_before {r : Recorder} {ip : Int} (h : ∀ f ∈ r.funcs.toList, f.start < ip) :
    (r.truncate ip).funcs = r.funcs ∧ (r.truncate ip).openRanges = r.openRanges := by
  have hdrop (fuel : Nat) (entries : Array DebugEntry) : dropFuncs ip fuel { r with entries } = { r with entries } := by
    cases fuel with
    | zero => rfl
    | succ fuel =>
      unfold dropFuncs
      cases hlast : r.funcs.back? with
      | none => rfl
      | some f =>
        have hmem : f ∈ r.funcs.toList := Array.mem_toList_iff.2 (Array.mem_of_back? hlast)
        dsimp only
        rw [if_pos (h f hmem)]
  unfold truncate
  dsimp only
  rw [hdrop]
  exact ⟨rfl, rfl⟩

namespace Emit

theorem Grown.knows {s s' : EmitState} {o : Operand} (h : Grown s s') (ho : s.Knows o) : s'.Knows o := by
  have htexts := h.asm.texts
  have hfuncs := h.asm.funcs_size
  have hnatives := h.asm.natives
  unfold EmitState.Knows at ho ⊢
  rw [h.unit]
  split at ho
  · omega
  · omega
  · omega
  · exact ho
  · exact ho
  · exact ho
  · trivial

theorem knows_of_kind {s : EmitState} {o : Operand} (h : o.kind = .value ∨ o.kind = .ref ∨ o.kind = .stack) : s.Knows o := by
  unfold EmitState.Knows
  rcases h with h | h | h <;> rw [h] <;> trivial

/-! ## Sites -/

/-- The place of a piece of code: a state that comes later, and how many labels and instructions there were before. -/
structure Site where
  later : EmitState
  base : Nat
  floor : Nat

namespace Site

variable (K : Site)

structure Own (l : Label) : Prop where
  base : K.base ≤ l
  made : l < K.later.asm.labels.size
  entry : l ∉ K.later.asm.entries

/-- A state while the code is emitted. -/
structure At (s : EmitState) : Prop where
  unit : s.unit = K.later.unit
  tidy : s.Tidy
  base : K.base ≤ s.asm.labels.size
  floor : K.floor ≤ s.asm.pos
  values : s.values.kind = .value
  refs : s.refs.kind = .ref
  loops : ∀ l ∈ s.frame.loops, K.Own l.exit ∧ K.Own l.again
  ranges : ∀ f ∈ s.recorder.funcs.toList, f.start < (K.floor : Int)

end Site

/-- An instruction that refers to what is known and jumps to own labels. -/
structure Confined (K : Site) (i : Instr) : Prop where
  known : i.op.isKnown = true
  operands : ∀ o ∈ i.operands, K.later.Knows o ∨ ∃ l, o = .label l ∧ K.Own l
  target : ∀ o, i.target? = some o → ∃ l, o = .label l ∧ K.Own l

structure Leads (K : Site) (s s' : EmitState) : Prop where
  values : s'.values.kind = s.values.kind
  refs : s'.refs.kind = s.refs.kind
  loops : s'.frame.loops = s.frame.loops
  code : ∃ is, s'.asm.code.toList = s.asm.code.toList ++ is ∧ ∀ i ∈ is, Confined K i
  bound : s.asm.bound.toList <+: s'.asm.bound.toList
  places : ∀ l ip, s'.asm.address? l = some ip →
    s.asm.address? l = some ip ∨ l ∉ s.asm.bound.toList ∧ K.Own l ∧ s.asm.pos ≤ ip ∧ ip ≤ s'.asm.pos
  ranges : s'.recorder.funcs = s.recorder.funcs
  openRanges : s'.recorder.openRanges = s.recorder.openRanges

variable {K : Site} {s s₁ s₂ s₃ : EmitState}

namespace Leads

/-- A step that emits and binds nothing. -/
theorem quiet (values : s₂.values.kind = s₁.values.kind) (refs : s₂.refs.kind = s₁.refs.kind)
    (loops : s₂.frame.loops = s₁.frame.loops) (code : s₂.asm.code = s₁.asm.code) (bound : s₂.asm.bound = s₁.asm.bound)
    (places : ∀ l, s₂.asm.address? l = s₁.asm.address? l) (recorder : s₂.recorder.funcs = s₁.recorder.funcs)
    (openRanges : s₂.recorder.openRanges = s₁.recorder.openRanges) : Leads K s₁ s₂ where
  values := values
  refs := refs
  loops := loops
  code := ⟨[], by rw [code, List.append_nil], fun _ h => absurd h List.not_mem_nil⟩
  bound := by rw [bound]
  places := fun l ip hl => .inl (by rw [← places l, hl])
  ranges := recorder
  openRanges := openRanges

theorem refl (s : EmitState) : Leads K s s := quiet rfl rfl rfl rfl rfl (fun _ => rfl) rfl rfl

theorem pos_le (h : Leads K s₁ s₂) : s₁.asm.pos ≤ s₂.asm.pos := by
  obtain ⟨is, hcode, -⟩ := h.code
  have hlen := congrArg List.length hcode
  simp only [Array.length_toList, List.length_append] at hlen
  unfold Assembler.pos
  omega

theorem trans (h : Leads K s₁ s₂) (h' : Leads K s₂ s₃) : Leads K s₁ s₃ := by
  obtain ⟨is, hcode, his⟩ := h.code
  obtain ⟨is', hcode', his'⟩ := h'.code
  refine
    { values := h'.values.trans h.values
      refs := h'.refs.trans h.refs
      loops := h'.loops.trans h.loops
      code := ⟨is ++ is', by rw [hcode', hcode, List.append_assoc], fun i hi => (List.mem_append.1 hi).elim (his i) (his' i)⟩
      bound := h.bound.trans h'.bound
      places := fun l ip hl => ?_
      ranges := h'.ranges.trans h.ranges
      openRanges := h'.openRanges.trans h.openRanges }
  have hpos := h.pos_le
  have hpos' := h'.pos_le
  rcases h'.places l ip hl with hl | ⟨hnew, hown, hlo, hhi⟩
  · rcases h.places l ip hl with hl | ⟨hnew, hown, hlo, hhi⟩
    · exact .inl hl
    · exact .inr ⟨hnew, hown, hlo, by omega⟩
  · exact .inr ⟨fun hmem => hnew (h.bound.subset hmem), hown, by omega, hhi⟩

theorem at_later (h : Leads K s₁ s₂) (hg : Grown s₁ s₂) (hs : K.At s₁) : K.At s₂ where
  unit := hg.unit.trans hs.unit
  tidy := hg.tidy hs.tidy
  base := Nat.le_trans hs.base hg.asm.labels
  floor := Nat.le_trans hs.floor h.pos_le
  values := h.values.trans hs.values
  refs := h.refs.trans hs.refs
  loops := by
    rw [h.loops]
    exact hs.loops
  ranges := by
    rw [h.ranges]
    exact hs.ranges

/-- A rewind takes back the code and the labels that were bound since the mark. -/
theorem rewind {m : Mark} {a : Unit} (h : Leads K s s₁) (hg : Grown s s₁) (hs : K.At s) (hm : mark s = .ok m s)
    (hr : Emit.rewind m s₁ = .ok a s₂) : Leads K s s₂ := by
  cases hm
  cases hr
  obtain ⟨is, hcode, -⟩ := h.code
  obtain ⟨ls, hbound⟩ := h.bound
  have hearlier : ∀ f ∈ s₁.recorder.funcs.toList, f.start < (s.asm.mark.ip : Int) := by
    rw [h.ranges]
    intro f hf
    have hlt := hs.ranges f hf
    have hfloor := hs.floor
    simp only [Assembler.mark]
    omega
  have htruncate := Recorder.truncate_of_before hearlier
  refine
    { values := rfl
      refs := rfl
      loops := h.loops
      code := ⟨[], by simp [Assembler.rewind, Assembler.mark, Assembler.pos, hcode], fun _ h => absurd h List.not_mem_nil⟩
      bound := by
        rw [Assembler.bound_rewind, ← hbound]
        simp [Assembler.mark]
      places := fun l ip hl => ?_
      ranges := htruncate.1.trans h.ranges
      openRanges := htruncate.2.trans h.openRanges }
  have hdrop : s₁.asm.bound.toList.drop s.asm.mark.bound = ls := by
    rw [← hbound]
    exact List.drop_left' (by simp [Assembler.mark])
  rw [Assembler.address?_rewind_eq, hdrop] at hl
  split at hl
  · cases hl
  · rename_i hkept
    refine .inl ((h.places l ip hl).resolve_right fun hnew => ?_)
    have hmem : l ∈ s₁.asm.bound.toList := ((hg.tidy hs.tidy).asm.bound l).2 (by rw [hl]; rfl)
    rw [← hbound, List.mem_append] at hmem
    exact hmem.elim hnew.1 hkept

end Leads

/-! ## Computations -/

variable {α β : Type}

def Refers (K : Site) (m : EmitM α) (Q : α → Prop) : Prop :=
  ∀ s a s', K.At s → m s = .ok a s' → Grown s' K.later → Leads K s s' ∧ Q a

theorem Consults.reads {m : EmitM α} (h : Consults m) : Reads m := by
  intro s a s' hm
  have hstay := h.ok rfl hm
  rw [hm] at hstay
  cases hstay
  rfl

namespace Refers

/-- What is handed over by the first part is known in the later state because the second part only adds to the tables. -/
theorem bind_grows {x : EmitM α} {f : α → EmitM β} {P : α → Prop} {Q : β → Prop} [hgx : Grows x] (hx : Refers K x P)
    (hf : ∀ a, P a → Refers K (f a) Q) (hgf : ∀ a, Grows (f a)) : Refers K (x >>= f) Q := by
  intro s c s' hs h hl
  obtain ⟨a, s₁, hxs, hfs⟩ := bind_ok h
  obtain ⟨h₁, hP⟩ := hx s a s₁ hs hxs (((hgf a).carries s₁ c s' hfs).trans hl)
  obtain ⟨h₂, hQ⟩ := hf a hP s₁ c s' (h₁.at_later (hgx.carries s a s₁ hxs) hs) hfs hl
  exact ⟨h₁.trans h₂, hQ⟩

/-- As `bind_grows`, where the second part is no `match` and is seen to grow at once. -/
theorem bind {x : EmitM α} {f : α → EmitM β} {P : α → Prop} {Q : β → Prop} [Grows x] (hx : Refers K x P)
    (hf : ∀ a, P a → Refers K (f a) Q) [hgf : ∀ a, Grows (f a)] : Refers K (x >>= f) Q :=
  bind_grows hx hf hgf

/-- A first part that only looks hands over a result of which nothing is needed. -/
theorem look {x : EmitM α} {f : α → EmitM β} {Q : β → Prop} (hx : Consults x) (hf : ∀ a, Refers K (f a) Q) :
    Refers K (x >>= f) Q := by
  intro s c s' hs h hl
  obtain ⟨a, s₁, hxs, hfs⟩ := bind_ok h
  obtain rfl := hx.reads s a s₁ hxs
  exact hf a s₁ c s' hs hfs hl

/-- As `look`, with what holds of every result. -/
theorem knowing {x : EmitM α} {f : α → EmitM β} {P : α → Prop} {Q : β → Prop} (hx : Consults x) (hP : Yields x P)
    (hf : ∀ a, P a → Refers K (f a) Q) : Refers K (x >>= f) Q := by
  intro s c s' hs h hl
  obtain ⟨a, s₁, hxs, hfs⟩ := bind_ok h
  obtain rfl := hx.reads s a s₁ hxs
  exact hf a (hP _ a _ hxs) s₁ c s' hs hfs hl

theorem get_bind {f : EmitState → EmitM β} {Q : β → Prop} (h : ∀ s, K.At s → Refers K (f s) Q) : Refers K (get >>= f) Q :=
  fun s c s' hs hm hl => h s hs s c s' hs hm hl

theorem pure {a : α} {Q : α → Prop} (h : Q a) : Refers K (pure a) Q := by
  intro s c s' _ hm _
  cases hm
  exact ⟨.refl s, h⟩

theorem throw {e : EmitFailure} {Q : α → Prop} : Refers K (throw e : EmitM α) Q := by
  intro s c s' _ h
  cases h

theorem fatal {id : NodeId} {cause : EmitCause} {Q : α → Prop} : Refers K (fatal id cause : EmitM α) Q := throw

theorem ite {c : Prop} [Decidable c] {x y : EmitM α} {Q : α → Prop} (hx : c → Refers K x Q) (hy : ¬c → Refers K y Q) :
    Refers K (if c then x else y) Q := by
  split
  · exact hx ‹_›
  · exact hy ‹_›

theorem modify {f : EmitState → EmitState} (h : ∀ s, Leads K s (f s)) : Refers K (modify f) fun _ => True := by
  intro s a s' _ hm _
  cases hm
  exact ⟨h s, trivial⟩

theorem forM {f : α → EmitM PUnit} [∀ a, Grows (f a)] (l : List α) (h : ∀ a ∈ l, Refers K (f a) fun _ => True) :
    Refers K (l.forM f) fun _ => True := by
  induction l with
  | nil => exact .pure trivial
  | cons a l ih => exact .bind (h a (List.mem_cons_self ..)) fun _ _ => ih fun x hx => h x (List.mem_cons_of_mem _ hx)

theorem mapM {f : α → EmitM β} [∀ a, Grows (f a)] {Q : β → Prop} (l : List α) (h : ∀ a ∈ l, Refers K (f a) Q) :
    Refers K (l.mapM f) fun bs => ∀ x ∈ bs, Q x := by
  induction l with
  | nil => exact .pure nofun
  | cons a l ih =>
    rw [List.mapM_cons]
    refine .bind (h a (List.mem_cons_self ..)) fun x hx => ?_
    refine .bind (ih fun y hy => h y (List.mem_cons_of_mem _ hy)) fun xs hxs => .pure ?_
    exact List.forall_mem_cons.2 ⟨hx, hxs⟩

theorem foldlM {f : β → α → EmitM β} [∀ b a, Grows (f b a)] (l : List α) (h : ∀ b, ∀ a ∈ l, Refers K (f b a) fun _ => True) :
    ∀ b, Refers K (l.foldlM f b) fun _ => True := by
  induction l with
  | nil => exact fun b => .pure trivial
  | cons a l ih =>
    intro b
    refine .bind (h b a (List.mem_cons_self ..)) fun b' _ => ?_
    exact ih (fun b x hx => h b x (List.mem_cons_of_mem _ hx)) b'

theorem forIn {f : α → PUnit → EmitM (ForInStep PUnit)} [∀ a b, Grows (f a b)] (l : List α)
    (h : ∀ a ∈ l, Refers K (f a ⟨⟩) fun _ => True) : Refers K (forIn l PUnit.unit f) fun _ => True := by
  induction l with
  | nil => exact .pure trivial
  | cons a l ih =>
    rw [List.forIn_cons]
    refine .bind_grows (h a (List.mem_cons_self ..)) (fun r _ => ?_) fun r => ?_
    · cases r with
      | done _ => exact .pure trivial
      | yield _ => exact ih fun x hx => h x (List.mem_cons_of_mem _ hx)
    · cases r with
      | done _ => exact inferInstanceAs (Grows (Pure.pure _))
      | yield _ => exact inferInstanceAs (Grows (ForIn.forIn ..))

/-! ### Instructions and labels -/

theorem emit_confined {i : Instr} (h : Confined K i) : Refers K (emit i) fun _ => True := by
  refine .modify fun s => ?_
  exact
    { Leads.refl (K := K) s with
      code := ⟨[i], by simp [Assembler.emit], by simpa using h⟩
      places := fun l ip hl => .inl hl }

/-- An instruction that does not jump. -/
theorem emit {i : Instr} (h : i.op.isPlain = true) (ha : K.later.Knows i.a) (hb : K.later.Knows i.b)
    (hc : K.later.Knows i.c) : Refers K (emit i) fun _ => True := by
  refine emit_confined ⟨?_, fun o ho => .inl ?_, fun o ho => ?_⟩
  · unfold Opcode.isPlain at h
    split at h <;> first | exact h | cases h
  · simp only [Instr.operands, List.mem_cons, List.not_mem_nil, or_false] at ho
    rcases ho with rfl | rfl | rfl
    · exact ha
    · exact hb
    · exact hc
  · unfold Instr.target? at ho
    unfold Opcode.isPlain at h
    split at ho <;> simp_all

theorem jumpTo {l : Label} (hl : K.Own l) : Refers K (jumpTo l) fun _ => True := by
  refine emit_confined ⟨rfl, fun o ho => ?_, fun o ho => ?_⟩
  · simp only [Instr.operands, List.mem_cons, List.not_mem_nil, or_false] at ho
    rcases ho with rfl | rfl | rfl
    · exact .inr ⟨l, rfl, hl⟩
    · exact .inl trivial
    · exact .inl trivial
  · cases ho
    exact ⟨l, rfl, hl⟩

/-- A jump that depends on a value. -/
theorem branch {op : Opcode} {c : Operand} {l : Label} (h : op = .jumpIf ∨ op = .jumpUnless ∨ op = .iterNext)
    (hc : K.later.Knows c) (hl : K.Own l) : Refers K (Emit.emit { op, a := c, b := .label l }) fun _ => True := by
  refine emit_confined ⟨?_, fun o ho => ?_, fun o ho => ?_⟩
  · rcases h with rfl | rfl | rfl <;> rfl
  · simp only [Instr.operands, List.mem_cons, List.not_mem_nil, or_false] at ho
    rcases ho with rfl | rfl | rfl
    · exact .inl hc
    · exact .inr ⟨l, rfl, hl⟩
    · exact .inl trivial
  · rcases h with rfl | rfl | rfl <;> cases ho <;> exact ⟨l, rfl, hl⟩

theorem note (span : Span) : Refers K (note span) fun _ => True := by
  refine .modify fun s => .quiet rfl rfl rfl rfl rfl (fun _ => rfl) ?_ ?_
  all_goals
    dsimp only [Recorder.node]
    split
    · rfl
    · split
      · split
        · rfl
        · split <;> rfl
      · rfl

/-- A new label is not an entry: those that are made later are different. -/
theorem newLabel : Refers K newLabel K.Own := by
  intro s l s' hs hm hl
  cases hm
  have hmade : s.asm.labels.size < (s.asm.newLabel).2.labels.size := by simp [Assembler.newLabel]
  refine ⟨.quiet rfl rfl rfl rfl rfl (address?_push s.asm s.asm.newLabel.2 rfl) rfl rfl, hs.base, ?_, ?_⟩
  · exact Nat.lt_of_lt_of_le hmade hl.asm.labels
  · exact hl.asm.not_entry hmade fun hmem => Nat.lt_irrefl _ (hs.tidy.asm.entries _ hmem)

theorem bindLabel {l : Label} (h : K.Own l) : Refers K (bindLabel l) fun _ => True := by
  intro s a s' hs hm _
  obtain ⟨hlt, hfree, rfl⟩ := bindLabel_ok hm
  refine ⟨?_, trivial⟩
  have hnew : l ∉ s.asm.bound.toList := by
    rw [hs.tidy.asm.bound l, hfree]
    simp
  exact
    { Leads.refl (K := K) s with
      bound := by simp
      places := fun k ip hk => by
        have hplace := Assembler.address?_place (a := s.asm) hlt k
        unfold Assembler.place at hplace
        rw [hplace] at hk
        split at hk
        · rename_i hkl
          cases hk
          subst hkl
          exact .inr ⟨hnew, h, Nat.le_refl _, Nat.le_refl _⟩
        · exact .inl hk }

/-! ### Rows -/

theorem stringRef (text : String) : Refers K (stringRef text) K.later.Knows := by
  intro s o s' _ hm hl
  cases hm
  have hle := hl.asm.texts
  dsimp only [Assembler.addString] at hle ⊢
  cases hf : s.asm.strings.findIdx? (· == text) with
  | some i =>
    obtain ⟨hi, -, -⟩ := Array.findIdx?_eq_some_iff_getElem.1 hf
    rw [hf] at hle
    refine ⟨.quiet rfl rfl rfl rfl rfl (fun _ => rfl) rfl rfl, Int.natCast_nonneg _, Int.ofNat_lt.2 ?_⟩
    exact Nat.lt_of_lt_of_le hi hle
  | none =>
    rw [hf] at hle
    simp only [Array.size_push] at hle
    exact ⟨.quiet rfl rfl rfl rfl rfl (fun _ => rfl) rfl rfl, Int.natCast_nonneg _, Int.ofNat_lt.2 hle⟩

theorem funcRef (fn : SymbolId) : Refers K (funcRef fn) fun k => K.later.Knows (.func k) := by
  intro s k s' hs hm hl
  have hle := hl.asm.funcs_size
  unfold Emit.funcRef at hm
  rw [get_bind_apply] at hm
  cases hf : s.funcs.get? fn with
  | some p =>
    rw [hf] at hm
    cases hm
    obtain ⟨-, r, hr, -⟩ := hs.tidy.rows fn p.1 p.2 hf
    have hlt := (Array.getElem?_eq_some_iff.1 hr).1
    exact ⟨.refl s, Int.natCast_nonneg _, Int.ofNat_lt.2 (Nat.lt_of_lt_of_le hlt hle)⟩
  | none =>
    rw [hf] at hm
    obtain ⟨sym, s₁, hsym, h₁⟩ := bind_ok hm
    obtain ⟨-, rfl⟩ := symbol_ok hsym
    obtain ⟨n, s₂, hn, h₂⟩ := bind_ok h₁
    obtain ⟨-, rfl⟩ := declaration_ok hn
    obtain ⟨name, s₃, hname, h₃⟩ := bind_ok h₂
    obtain rfl := reads_funcName fn _ _ _ hname
    cases h₃
    simp only [Array.size_push] at hle
    refine ⟨.quiet rfl rfl rfl rfl rfl (address?_push _ _ rfl) rfl rfl, Int.natCast_nonneg _, Int.ofNat_lt.2 ?_⟩
    exact hle

theorem nativeRef (fn : SymbolId) : Refers K (nativeRef fn) fun k => K.later.Knows (.native k) := by
  intro s k s' hs hm hl
  have hle := hl.asm.natives
  unfold Emit.nativeRef at hm
  rw [get_bind_apply] at hm
  cases hf : s.natives.get? fn with
  | some k =>
    rw [hf] at hm
    cases hm
    have hlt := hs.tidy.natives fn k hf
    exact ⟨.refl s, Int.natCast_nonneg _, Int.ofNat_lt.2 (Nat.lt_of_lt_of_le hlt hle)⟩
  | none =>
    rw [hf] at hm
    obtain ⟨sym, s₁, hsym, h₁⟩ := bind_ok hm
    obtain ⟨-, rfl⟩ := symbol_ok hsym
    obtain ⟨u, s₂, hu, h₂⟩ := bind_ok h₁
    cases hu
    obtain ⟨n, s₃, hn, h₃⟩ := bind_ok h₂
    obtain ⟨-, rfl⟩ := declaration_ok hn
    cases h₃
    simp only [Array.size_push] at hle
    exact ⟨.quiet rfl rfl rfl rfl rfl (fun _ => rfl) rfl rfl, Int.natCast_nonneg _, Int.ofNat_lt.2 hle⟩

/-- No row of a type is looked at. -/
theorem typeRef (t : TypeId) : Refers K (typeRef t) fun _ => True := by
  refine .get_bind fun s _ => ?_
  split
  · exact .pure trivial
  · refine .look (.typeInfo t) fun ty => .look .unit fun u => ?_
    intro s k s' _ hm _
    cases hm
    have hsame (row : TypeRow) : (s.asm.addType row).2.bound = s.asm.bound ∧
        ∀ l, (s.asm.addType row).2.address? l = s.asm.address? l := by
      unfold Assembler.addType
      split <;> exact ⟨rfl, fun _ => rfl⟩
    exact ⟨.quiet rfl rfl rfl (code_addType ..) (hsame _).1 (hsame _).2 rfl rfl, trivial⟩

/-- A variable is where its symbol says. -/
theorem storage (v : SymbolId) : Refers K (storage v) K.later.Knows := by
  intro s o s' hs hm _
  obtain ⟨sym, s₁, hsym, h₁⟩ := bind_ok hm
  obtain ⟨hsym, rfl⟩ := symbol_ok hsym
  obtain ⟨_, _, hget, h₂⟩ := bind_ok h₁
  cases hget
  cases hst : sym.storage with
  | global slot =>
    rw [hst] at h₂
    cases h₂
    exact ⟨.refl _, v, sym, hs.unit ▸ hsym, hst⟩
  | frame off =>
    rw [hst] at h₂
    cases h₂
    exact ⟨.refl _, trivial⟩
  | captured i =>
    rw [hst] at h₂
    cases h₂
    exact ⟨.refl _, trivial⟩
  | none =>
    rw [hst] at h₂
    obtain ⟨u, s₂, -, h₃⟩ := bind_ok h₂
    cases h₃

/-! ### Registers and spill slots -/

theorem acquireValue (id : NodeId) : Refers K (acquireValue id) K.later.Knows := by
  intro s o s' hs hm _
  obtain ⟨values, hp, rfl⟩ := acquireValue_ok hm
  obtain ⟨i, -, -, rfl, rfl⟩ := Pool.acquire?_eq_some hp
  exact ⟨.quiet rfl rfl rfl rfl rfl (fun _ => rfl) rfl rfl, knows_of_kind (.inl hs.values)⟩

theorem acquireRef (id : NodeId) : Refers K (acquireRef id) K.later.Knows := by
  intro s o s' hs hm _
  obtain ⟨refs, hp, rfl⟩ := acquireRef_ok hm
  obtain ⟨i, -, -, rfl, rfl⟩ := Pool.acquire?_eq_some hp
  exact ⟨.quiet rfl rfl rfl rfl rfl (fun _ => rfl) rfl rfl, knows_of_kind (.inr (.inl hs.refs))⟩

theorem withValues {step : Pool → Except EmitCause Pool} (h : ∀ p q, step p = .ok q → q.kind = p.kind) :
    Refers K (withValues step) fun _ => True := by
  intro s a s' _ hm _
  obtain ⟨values, hp, rfl⟩ := withValues_ok hm
  exact ⟨.quiet (h _ _ hp) rfl rfl rfl rfl (fun _ => rfl) rfl rfl, trivial⟩

theorem withRefs {step : Pool → Except EmitCause Pool} (h : ∀ p q, step p = .ok q → q.kind = p.kind) :
    Refers K (withRefs step) fun _ => True := by
  intro s a s' _ hm _
  obtain ⟨refs, hp, rfl⟩ := withRefs_ok hm
  exact ⟨.quiet rfl (h _ _ hp) rfl rfl rfl (fun _ => rfl) rfl rfl, trivial⟩

theorem free (o : Operand) : Refers K (free o) fun _ => True := by
  unfold Emit.free
  split
  · exact .withValues fun _ _ => Pool.kind_release
  · exact .withRefs fun _ _ => Pool.kind_release
  · exact .pure trivial

theorem toRegister {o : Operand} (ho : K.later.Knows o) (t : TypeId) (id : NodeId) :
    Refers K (toRegister o t id) K.later.Knows := by
  have copy (r : Operand) (hr : K.later.Knows r) :
      Refers K (do Emit.emit { op := .mov, a := r, b := o }; Pure.pure r) K.later.Knows :=
    .bind (.emit rfl hr ho trivial) fun _ _ => .pure hr
  unfold Emit.toRegister
  split
  · exact .pure ho
  · exact .pure ho
  · exact .fatal
  · refine .look (.isValue t) fun v => ?_
    cases v
    · exact .bind (acquireRef id) fun r hr => copy r hr
    · exact .bind (acquireValue id) fun r hr => copy r hr

theorem stable {o : Operand} (ho : K.later.Knows o) (t : TypeId) (id : NodeId) : Refers K (stable o t id) K.later.Knows := by
  unfold Emit.stable
  exact .ite (fun _ => toRegister ho t id) fun _ => .pure ho

theorem move {dst src : Operand} (hd : K.later.Knows dst) (hs : K.later.Knows src) :
    Refers K (move dst src) fun _ => True := by
  unfold Emit.move
  exact .ite (fun _ => .bind (.emit rfl hd hs trivial) fun _ _ => free src) fun _ => free src

theorem pushOperand {o : Operand} (ho : K.later.Knows o) : Refers K (pushOperand o) fun _ => True :=
  .bind (.emit rfl ho trivial trivial) fun _ _ => free o

theorem spill : Refers K spill K.later.Knows := by
  intro s o s' _ hm _
  cases hm
  exact ⟨.quiet rfl rfl rfl rfl rfl (fun _ => rfl) rfl rfl, trivial⟩

theorem unspill (n : Nat) : Refers K (unspill n) fun _ => True :=
  .modify fun _ => .quiet rfl rfl rfl rfl rfl (fun _ => rfl) rfl rfl

end Refers

end Emit

end TreeCompiler
