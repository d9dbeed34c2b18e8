import Mathlib.Logic.Function.Basic
import Mathlib.Logic.Relation
import TreeCompiler.Code.Assembler

/-!
# Running code

Only the operands matter here, not what values are or what instructions compute: an instruction leaves some value in the
accumulator, a call also in every other register and in every variable.

* `Store V` : what every operand holds;
* `Instr.Effect` : what an instruction does to a store; `Assembler.Step` : one instruction, with the jumps;
* `Exec` : instructions without jumps;
* `Preserves a n o lo hi` : code that is entered at `lo` and left at `hi` only, with the operand `o` as it was.
-/

namespace TreeCompiler

/-- What every operand holds; constants are operands too. -/
abbrev Store (V : Type) := Operand → V

/-- What a call leaves as it is: constants, and the spill slots of a frame with `locals` locals. -/
def Operand.Outlives (locals : Nat) (o : Operand) : Prop :=
  match o.kind with
  | .global | .value | .ref | .accumulator | .returned | .spreadCount => False
  | .stack => o.val ≤ -(locals : Int)
  | _ => True

variable {V : Type} {locals : Nat}

namespace Instr

def Effect (locals : Nat) (i : Instr) (σ τ : Store V) : Prop :=
  if i.op = .mov then τ = Function.update σ i.a (σ i.b)
  else if i.op.isCall then ∀ o : Operand, o.Outlives locals → τ o = σ o
  else if i.op.writesAccumulator then ∀ o, o ≠ .accumulator → τ o = σ o
  else if i.op = .unpack then ∀ o, o ≠ .spreadCount → τ o = σ o
  else τ = σ

/-- Where an instruction may jump. -/
def target? (i : Instr) : Option Operand :=
  match i.op with
  | .jump => some i.a
  | .jumpIf | .jumpUnless | .iterNext => some i.b
  | _ => none

/-- Whether the next instruction may follow. -/
def falls (i : Instr) : Bool := i.op ≠ .jump && i.op ≠ .ret && i.op ≠ .halt

/-- An instruction that always goes on to the next one. -/
def isStraight (i : Instr) : Bool := i.falls && i.target?.isNone

end Instr

/-- Instructions one after the other. -/
def Exec (locals : Nat) : List Instr → Store V → Store V → Prop
  | [], σ, τ => τ = σ
  | i :: is, σ, τ => ∃ ρ, i.Effect locals σ ρ ∧ Exec locals is ρ τ

theorem Exec.append {is js : List Instr} {σ τ : Store V} (h : Exec locals (is ++ js) σ τ) :
    ∃ ρ, Exec locals is σ ρ ∧ Exec locals js ρ τ := by
  induction is generalizing σ with
  | nil => exact ⟨σ, rfl, h⟩
  | cons i is ih =>
    obtain ⟨ρ, hi, hrest⟩ := h
    obtain ⟨ρ', his, hjs⟩ := ih hrest
    exact ⟨ρ', ⟨ρ, hi, his⟩, hjs⟩

/-! ## Saving registers across a call -/

theorem Instr.effect_mov {x y o : Operand} {σ τ : Store V} (h : Instr.Effect locals { op := .mov, a := x, b := y } σ τ) :
    τ x = σ y ∧ (o ≠ x → τ o = σ o) := by
  simp only [Instr.Effect, if_true] at h
  subst h
  exact ⟨Function.update_self .., fun hne => Function.update_of_ne hne ..⟩

/-- Copies each register of a list to its slot. -/
def saveCode (l : List (Operand × Operand)) : List Instr := l.map fun p => { op := .mov, a := p.2, b := p.1 }

def restoreCode (l : List (Operand × Operand)) : List Instr := l.map fun p => { op := .mov, a := p.1, b := p.2 }

/-- The slots are distinct and no registers. -/
structure SlotsApart (l : List (Operand × Operand)) : Prop where
  slots : l.Pairwise fun p q => p.2 ≠ q.2
  registers : ∀ p ∈ l, ∀ q ∈ l, p.1 ≠ q.2

theorem SlotsApart.tail {p : Operand × Operand} {l : List (Operand × Operand)} (h : SlotsApart (p :: l)) : SlotsApart l :=
  ⟨(List.pairwise_cons.1 h.slots).2,
    fun q hq r hr => h.registers q (List.mem_cons_of_mem _ hq) r (List.mem_cons_of_mem _ hr)⟩

theorem exec_saveCode {l : List (Operand × Operand)} {σ τ : Store V} (h : Exec locals (saveCode l) σ τ) (hl : SlotsApart l) :
    (∀ p ∈ l, τ p.2 = σ p.1) ∧ ∀ o, (∀ p ∈ l, o ≠ p.2) → τ o = σ o := by
  induction l generalizing σ with
  | nil =>
    cases h
    exact ⟨List.forall_mem_nil _, fun _ _ => rfl⟩
  | cons p l ih =>
    obtain ⟨ρ, hp, hrest⟩ := h
    obtain ⟨hsaved, hother⟩ := ih hrest hl.tail
    have hslots := (List.pairwise_cons.1 hl.slots).1
    refine ⟨List.forall_mem_cons.2 ⟨?_, fun q hq => ?_⟩, fun o ho => ?_⟩
    · rw [hother p.2 hslots]
      exact (Instr.effect_mov (o := p.2) hp).1
    · rw [hsaved q hq]
      exact (Instr.effect_mov hp).2 (hl.registers q (List.mem_cons_of_mem _ hq) p (List.mem_cons_self ..))
    · rw [hother o fun q hq => ho q (List.mem_cons_of_mem _ hq)]
      exact (Instr.effect_mov hp).2 (ho p (List.mem_cons_self ..))

/-- A register that is restored gets the value of its slots, all others keep theirs. -/
theorem exec_restoreCode {l : List (Operand × Operand)} {σ τ : Store V} (h : Exec locals (restoreCode l) σ τ)
    (hl : SlotsApart l) {o : Operand} {v : V} (hv : ∀ p ∈ l, p.1 = o → σ p.2 = v) (ho : σ o = v ∨ ∃ p ∈ l, p.1 = o) :
    τ o = v := by
  induction l generalizing σ with
  | nil =>
    cases h
    exact ho.resolve_right (by simp)
  | cons p l ih =>
    obtain ⟨ρ, hp, hrest⟩ := h
    have hslot : ∀ q ∈ l, ρ q.2 = σ q.2 := fun q hq =>
      (Instr.effect_mov hp).2 (Ne.symm (hl.registers p (List.mem_cons_self ..) q (List.mem_cons_of_mem _ hq)))
    refine ih hrest hl.tail (fun q hq hqo => ?_) ?_
    · rw [hslot q hq]
      exact hv q (List.mem_cons_of_mem _ hq) hqo
    · by_cases hpo : p.1 = o
      · subst hpo
        exact .inl ((Instr.effect_mov (o := p.1) hp).1.trans (hv p (List.mem_cons_self ..) rfl))
      · rcases ho with ho | ⟨q, hq, rfl⟩
        · exact .inl (((Instr.effect_mov hp).2 (Ne.symm hpo)).trans ho)
        · rcases List.mem_cons.1 hq with rfl | hq
          · exact absurd rfl hpo
          · exact .inr ⟨q, hq, rfl⟩

/-- Saved registers and constants come through a call. -/
theorem exec_call {l : List (Operand × Operand)} {i : Instr} {σ τ : Store V} (hi : i.op.isCall = true)
    (h : Exec locals (saveCode l ++ i :: restoreCode l) σ τ) (hl : SlotsApart l)
    (hslots : ∀ p ∈ l, p.2.Outlives locals) {o : Operand}
    (ho : (∃ p ∈ l, p.1 = o) ∨ o.Outlives locals ∧ ∀ p ∈ l, o ≠ p.2) : τ o = σ o := by
  obtain ⟨ρ, hsave, ρ', hcall, hrestore⟩ := h.append
  obtain ⟨hsaved, hother⟩ := exec_saveCode hsave hl
  have hcall : ∀ x : Operand, x.Outlives locals → ρ' x = ρ x := by
    have hmov : i.op ≠ .mov := by
      intro hmov
      rw [hmov] at hi
      cases hi
    rwa [Instr.Effect, if_neg hmov, if_pos hi] at hcall
  refine exec_restoreCode hrestore hl (fun p hp hpo => ?_) ?_
  · rw [hcall p.2 (hslots p hp), hsaved p hp, hpo]
  · refine ho.symm.imp_left fun ⟨hout, hne⟩ => ?_
    rw [hcall o hout, hother o hne]

namespace Assembler

/-- One instruction; which way a conditional jump goes is left open. -/
inductive Step (a : Assembler) (locals : Nat) : Nat × Store V → Nat × Store V → Prop
  | next {ip : Nat} {i : Instr} {σ τ : Store V} (hi : a.code[ip]? = some i) (hf : i.falls = true)
      (h : i.Effect locals σ τ) : Step a locals (ip, σ) (ip + 1, τ)
  | jump {ip dest : Nat} {i : Instr} {l : Label} {σ : Store V} (hi : a.code[ip]? = some i) (ht : i.target? = some (.label l))
      (hl : a.address? l = some dest) : Step a locals (ip, σ) (dest, σ)

abbrev Steps (a : Assembler) (locals : Nat) : Nat × Store V → Nat × Store V → Prop :=
  Relation.ReflTransGen (a.Step locals)

/-- A run that enters at `lo` is still before `hi` or has come to `hi`, where `o` held what it held at `lo`. -/
def Preserves (a : Assembler) (locals : Nat) (o : Operand) (lo hi : Nat) : Prop :=
  ∀ (V : Type) (σ τ : Store V) (c : Nat), a.Steps locals (lo, σ) (c, τ) →
    (lo ≤ c ∧ c < hi) ∨ ∃ ρ, a.Steps locals (lo, σ) (hi, ρ) ∧ a.Steps locals (hi, ρ) (c, τ) ∧ ρ o = σ o

variable {a : Assembler} {o : Operand} {lo mid hi : Nat}

theorem Preserves.refl : a.Preserves locals o lo lo := fun _ σ _ _ h => .inr ⟨σ, .refl, h, rfl⟩

theorem Preserves.trans (h : a.Preserves locals o lo mid) (h' : a.Preserves locals o mid hi) (hlo : lo ≤ mid)
    (hhi : mid ≤ hi) : a.Preserves locals o lo hi := by
  intro V σ τ c hrun
  rcases h V σ τ c hrun with hin | ⟨ρ, hto, hfrom, hρ⟩
  · exact .inl ⟨hin.1, Nat.lt_of_lt_of_le hin.2 hhi⟩
  · rcases h' V ρ τ c hfrom with hin | ⟨ρ', hto', hfrom', hρ'⟩
    · exact .inl ⟨Nat.le_trans hlo hin.1, hin.2⟩
    · exact .inr ⟨ρ', hto.trans hto', hfrom', hρ'.trans hρ⟩

/-- The steps from a straight instruction. -/
theorem Step.of_straight {i : Instr} {σ : Store V} {c : Nat × Store V} (hi : a.code[lo]? = some i)
    (hs : i.isStraight = true) (h : a.Step locals (lo, σ) c) : c.1 = lo + 1 ∧ i.Effect locals σ c.2 := by
  simp only [Instr.isStraight, Bool.and_eq_true, Option.isNone_iff_eq_none] at hs
  cases h with
  | next hi' _ he =>
    rw [hi] at hi'
    cases hi'
    exact ⟨rfl, he⟩
  | jump hi' ht _ =>
    rw [hi] at hi'
    cases hi'
    rw [hs.2] at ht
    cases ht

theorem Preserves.instr {i : Instr} (hi : a.code[lo]? = some i) (hs : i.isStraight = true)
    (h : ∀ (V : Type) (σ τ : Store V), i.Effect locals σ τ → τ o = σ o) : a.Preserves locals o lo (lo + 1) := by
  intro V σ τ c hrun
  rcases hrun.cases_head with heq | ⟨⟨ip, ρ⟩, hstep, hrest⟩
  · cases heq
    exact .inl ⟨Nat.le_refl _, Nat.lt_succ_self _⟩
  · obtain ⟨rfl, he⟩ := hstep.of_straight hi hs
    exact .inr ⟨ρ, .single hstep, hrest, h V σ ρ he⟩

/-- A conditional jump over code that preserves the operand. -/
theorem Preserves.branch {i : Instr} {l : Label} (hlo : a.code[lo]? = some i) (ht : i.target? = some (.label l))
    (hl : a.address? l = some hi) (hle : lo < hi) (he : ∀ (V : Type) (σ τ : Store V), i.Effect locals σ τ → τ o = σ o)
    (h : a.Preserves locals o (lo + 1) hi) : a.Preserves locals o lo hi := by
  intro V σ τ c hrun
  rcases hrun.cases_head with heq | ⟨⟨ip, ρ⟩, hstep, hrest⟩
  · cases heq
    exact .inl ⟨Nat.le_refl _, hle⟩
  · have hstep' := hstep
    cases hstep with
    | next hi' _ heff =>
      rw [hlo] at hi'
      cases hi'
      rcases h V ρ τ c hrest with hin | ⟨ρ', hto, hfrom, hρ⟩
      · exact .inl ⟨Nat.le_of_succ_le hin.1, hin.2⟩
      · exact .inr ⟨ρ', hto.head hstep', hfrom, hρ.trans (he V σ ρ heff)⟩
    | @jump _ _ _ k _ hi' ht' hk =>
      rw [hlo] at hi'
      cases hi'
      have hlk : l = k := by
        rw [ht, Option.some.injEq, Operand.label, Operand.label, Operand.mk.injEq] at ht'
        exact Int.ofNat.inj ht'.2
      subst hlk
      rw [hl] at hk
      cases hk
      exact .inr ⟨σ, .single hstep', hrest, rfl⟩

/-- Instructions that always go on can be run. -/
theorem steps_of_exec {is : List Instr} (hs : ∀ i ∈ is, i.isStraight = true) {σ τ : Store V}
    (hcode : ∀ k < is.length, a.code[lo + k]? = is[k]?) (h : Exec locals is σ τ) :
    a.Steps locals (lo, σ) (lo + is.length, τ) := by
  induction is generalizing lo σ with
  | nil =>
    cases h
    exact .refl
  | cons i is ih =>
    obtain ⟨ρ, hi, hrest⟩ := h
    have hfalls : i.falls = true := by
      have := hs i (List.mem_cons_self ..)
      simp only [Instr.isStraight, Bool.and_eq_true] at this
      exact this.1
    have hlo : a.code[lo]? = some i := hcode 0 (Nat.zero_lt_succ _)
    rw [List.length_cons, Nat.add_comm is.length, ← Nat.add_assoc]
    refine (ih (fun j hj => hs j (List.mem_cons_of_mem _ hj)) (fun k hk => ?_) hrest).head (.next hlo hfalls hi)
    rw [Nat.add_assoc, Nat.add_comm 1]
    exact hcode (k + 1) (Nat.succ_lt_succ hk)

/-- A run through instructions that always go on executes them. -/
theorem Steps.exec {is : List Instr} (hs : ∀ i ∈ is, i.isStraight = true) {σ τ : Store V} {c : Nat}
    (hcode : ∀ k < is.length, a.code[lo + k]? = is[k]?) (hrun : a.Steps locals (lo, σ) (c, τ)) :
    (lo ≤ c ∧ c < lo + is.length) ∨
      ∃ ρ, a.Steps locals (lo, σ) (lo + is.length, ρ) ∧ a.Steps locals (lo + is.length, ρ) (c, τ) ∧ Exec locals is σ ρ := by
  induction is generalizing lo σ with
  | nil => exact .inr ⟨σ, .refl, hrun, rfl⟩
  | cons i is ih =>
    have hlo : a.code[lo]? = some i := hcode 0 (Nat.zero_lt_succ _)
    rcases hrun.cases_head with heq | ⟨⟨ip, ρ⟩, hstep, hrest⟩
    · cases heq
      exact .inl ⟨Nat.le_refl _, Nat.lt_add_of_pos_right (Nat.zero_lt_succ _)⟩
    · obtain ⟨rfl, he⟩ := hstep.of_straight hlo (hs i (List.mem_cons_self ..))
      have hlen : lo + (i :: is).length = lo + 1 + is.length := by simp only [List.length_cons]; omega
      rw [hlen]
      have hcode' : ∀ k < is.length, a.code[lo + 1 + k]? = is[k]? := by
        intro k hk
        have := hcode (k + 1) (Nat.succ_lt_succ hk)
        rwa [List.getElem?_cons_succ, ← Nat.add_assoc, Nat.add_right_comm] at this
      rcases ih (fun j hj => hs j (List.mem_cons_of_mem _ hj)) hcode' hrest with hin | ⟨ρ', hto, hfrom, hexec⟩
      · exact .inl ⟨Nat.le_of_succ_le hin.1, hin.2⟩
      · exact .inr ⟨ρ', hto.head hstep, hfrom, ρ, he, hexec⟩

theorem Preserves.block {is : List Instr} (hs : ∀ i ∈ is, i.isStraight = true)
    (hcode : ∀ k < is.length, a.code[lo + k]? = is[k]?)
    (h : ∀ (V : Type) (σ τ : Store V), Exec locals is σ τ → τ o = σ o) : a.Preserves locals o lo (lo + is.length) := by
  intro V σ τ c hrun
  refine (Steps.exec hs hcode hrun).imp_right ?_
  rintro ⟨ρ, hto, hfrom, hexec⟩
  exact ⟨ρ, hto, hfrom, h V σ ρ hexec⟩

end Assembler

end TreeCompiler
