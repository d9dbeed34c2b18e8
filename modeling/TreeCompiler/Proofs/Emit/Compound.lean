import TreeCompiler.Proofs.Emit.Forcing
import TreeCompiler.Proofs.Emit.Refer

/-!
# Compound assignments

`target op= value` reads its target, evaluates the value, combines the two and stores the result. A variable is read before
the value, as the left operand of two; the place of an element or a field is evaluated before the value, but read after it.

* `Carries a n x o lo hi` : what `x` holds at `lo` comes to `o` at `hi`;
* `Delivered` : an operand comes to the place where it is used as it was evaluated;
* `ReadsFirst`, `ReadsLast` : the code of a compound assignment to a variable, and to an element or a field;
* `assign_reads` : every compound assignment has one of the two.
-/

namespace TreeCompiler

namespace Assembler

variable {a : Assembler} {locals : Nat} {x y o : Operand} {lo mid hi : Nat}

/-- A run that enters at `lo` is still before `hi` or has come to `hi`, where `o` held what `x` held at `lo`. -/
def Carries (a : Assembler) (locals : Nat) (x o : Operand) (lo hi : Nat) : Prop :=
  ∀ (V : Type) (σ τ : Store V) (c : Nat), a.Steps locals (lo, σ) (c, τ) →
    (lo ≤ c ∧ c < hi) ∨ ∃ ρ, a.Steps locals (lo, σ) (hi, ρ) ∧ a.Steps locals (hi, ρ) (c, τ) ∧ ρ o = σ x

theorem Preserves.carries (h : a.Preserves locals o lo hi) : a.Carries locals o o lo hi := h

theorem Carries.trans (h : a.Carries locals x y lo mid) (h' : a.Carries locals y o mid hi) (hlo : lo ≤ mid) (hhi : mid ≤ hi) :
    a.Carries locals x o lo hi := by
  intro V σ τ c hrun
  rcases h V σ τ c hrun with hin | ⟨ρ, hto, hfrom, hρ⟩
  · exact .inl ⟨hin.1, Nat.lt_of_lt_of_le hin.2 hhi⟩
  · rcases h' V ρ τ c hfrom with hin | ⟨ρ', hto', hfrom', hρ'⟩
    · exact .inl ⟨Nat.le_trans hlo hin.1, hin.2⟩
    · exact .inr ⟨ρ', hto.trans hto', hfrom', hρ'.trans hρ⟩

theorem Carries.mov (h : a.code[lo]? = some { op := .mov, a := o, b := x }) : a.Carries locals x o lo (lo + 1) := by
  intro V σ τ c hrun
  rcases hrun.cases_head with heq | ⟨⟨ip, ρ⟩, hstep, hrest⟩
  · cases heq
    exact .inl ⟨Nat.le_refl _, Nat.lt_succ_self _⟩
  · obtain ⟨rfl, he⟩ := hstep.of_straight h rfl
    exact .inr ⟨ρ, .single hstep, hrest, (Instr.effect_mov (o := o) he).1⟩

end Assembler

namespace Emit

variable {K : Watch} {H : Operand → Prop} {rec : Emitter} {s s₁ s₂ s' : EmitState}

/-! ## Code that is laid -/

/-- The instructions `is` were appended; the registers may have changed. -/
structure Lays (is : List Instr) (s s' : EmitState) : Prop where
  unit : s'.unit = s.unit
  locals : s'.frame.locals = s.frame.locals
  code : s'.asm.code.toList = s.asm.code.toList ++ is
  labels : LabelsStay s.asm s'.asm

namespace Lays

variable {is js : List Instr}

theorem trans (h : Lays is s s₁) (h' : Lays js s₁ s') : Lays (is ++ js) s s' where
  unit := h'.unit.trans h.unit
  locals := h'.locals.trans h.locals
  code := by rw [h'.code, h.code, List.append_assoc]
  labels := h.labels.trans h'.labels

theorem quiet (h : Quiet s s') : Lays [] s s' := ⟨h.unit, h.locals, by rw [h.code, List.append_nil], h.labels⟩

theorem emit {i : Instr} {a : Unit} (h : emit i s = .ok a s') : Lays [i] s s' := by
  cases h
  exact ⟨rfl, rfl, Array.toList_push, fun _ _ hl => hl⟩

theorem free {o : Operand} {a : Unit} (h : free o s = .ok a s') : Lays [] s s' := by
  have hstill : s'.unit = s.unit ∧ s'.frame = s.frame := by
    unfold Emit.free at h
    cases hk : o.kind <;> rw [hk] at h
    case value =>
      obtain ⟨_, -, rfl⟩ := withValues_ok h
      exact ⟨rfl, rfl⟩
    case ref =>
      obtain ⟨_, -, rfl⟩ := withRefs_ok h
      exact ⟨rfl, rfl⟩
    all_goals
      cases h
      exact ⟨rfl, rfl⟩
  have hasm := free_asm h
  exact ⟨hstill.1, by rw [hstill.2], by rw [hasm, List.append_nil], fun l ip hl => by rw [hasm]; exact hl⟩

theorem asm (h : Lays is s s') : s.asm.Continues s'.asm := ⟨⟨is, h.code⟩, h.labels⟩

theorem pos (h : Lays is s s') : s'.asm.pos = s.asm.pos + is.length := Assembler.pos_append h.code

theorem getElem? (h : Lays is s s') {k : Nat} (hk : k < is.length) : s'.asm.code[s.asm.pos + k]? = is[k]? :=
  (Assembler.Continues.refl s'.asm).block h.code k hk

end Lays

/-! ## Copies -/

/-- Nothing is emitted for what is in a register, else one copy. -/
theorem toRegister_lays {o x : Operand} {t : TypeId} {id : NodeId} (hs : Ready K H s) (h : toRegister o t id s = .ok x s') :
    x = o ∧ s' = s ∨ x.isScratch = true ∧ Lays [{ op := .mov, a := x, b := o }] s s' := by
  by_cases hv : o.kind = .value
  · rw [toRegister_of_value t id hv] at h
    cases h
    exact .inl ⟨rfl, rfl⟩
  by_cases hr : o.kind = .ref
  · rw [toRegister_of_ref t id hr] at h
    cases h
    exact .inl ⟨rfl, rfl⟩
  by_cases hn : o.kind = .none
  · rw [toRegister_of_none t id hn] at h
    cases h
  rw [toRegister_of_other t id hv hr hn] at h
  obtain ⟨r, s₁, hfresh, h₁⟩ := bind_ok h
  obtain ⟨_, s₂, hmov, hdone⟩ := bind_ok h₁
  cases hdone
  have hlays := Lays.emit hmov
  rcases fresh_ok hfresh with ⟨values, hp, rfl⟩ | ⟨refs, hp, rfl⟩
  · obtain ⟨i, -, -, rfl, -⟩ := Pool.acquire?_eq_some hp
    exact .inr ⟨by simp [Operand.isScratch, Pool.register, hs.values], hlays.unit, hlays.locals, hlays.code, hlays.labels⟩
  · obtain ⟨i, -, -, rfl, -⟩ := Pool.acquire?_eq_some hp
    exact .inr ⟨by simp [Operand.isScratch, Pool.register, hs.refs], hlays.unit, hlays.locals, hlays.code, hlays.labels⟩

theorem stable_lays {o x : Operand} {t : TypeId} {id : NodeId} (hs : Ready K H s) (h : stable o t id s = .ok x s') :
    x = o ∧ s' = s ∨ x.isScratch = true ∧ Lays [{ op := .mov, a := x, b := o }] s s' := by
  unfold stable at h
  by_cases ho : (o.kind = .accumulator || o.kind = .returned) = true
  · rw [if_pos ho] at h
    exact toRegister_lays hs h
  · rw [if_neg ho] at h
    cases h
    exact .inl ⟨rfl, rfl⟩

theorem apart_symm {x y : Operand} (h : y.isScratch = true → y ≠ x) (hx : x.isScratch = true) : x ≠ y := by
  rintro rfl
  exact h hx rfl

/-- One of several operands is moved to where it is stable: it is carried there and the others stay. -/
theorem Owned.stable {l₁ l₂ : List Operand} {o x : Operand} {t : TypeId} {id : NodeId} (hs : Ready K (fun _ => False) s)
    (ho : Owned (fun _ => False) (l₁ ++ o :: l₂) s.values s.refs) (h : Emit.stable o t id s = .ok x s') :
    Ready K (fun _ => False) s' ∧ Owned (fun _ => False) (l₁ ++ x :: l₂) s'.values s'.refs ∧ x.kind ≠ .accumulator ∧
      s.asm.Continues s'.asm ∧ ∀ a, s'.asm.Continues a → a.Carries K.locals o x s.asm.pos s'.asm.pos ∧
        ∀ y ∈ l₁ ++ l₂, a.Preserves K.locals y s.asm.pos s'.asm.pos := by
  have hmem : ∀ y ∈ l₁ ++ l₂, y ∈ l₁ ++ o :: l₂ := by simp +contextual [or_imp]
  obtain ⟨hapart, hrest⟩ := List.pairwise_cons.1 ((List.pairwise_middle fun h => apart_symm h).1 ho.apart)
  have hready : Ready K (· ∈ l₁ ++ l₂) s := ⟨hs.unit, hs.locals, hs.values, hs.refs, fun y hy => ho.live y (hmem y hy)⟩
  have hown : Own (· ∈ l₁ ++ l₂) o := by
    refine ⟨fun hk => ⟨((ho.own o (by simp)).spared hk).1, fun hin => ?_⟩, (ho.own o (by simp)).counted⟩
    exact hapart o hin hk rfl
  obtain ⟨hkeep, hx, hcopy⟩ := Guards.stable (P := fun values refs => Live values refs o) hown t id s x s' hready
    (ho.live o (by simp)) h
  obtain ⟨-, hacc, -⟩ := Guards.stable_kind (P := Any) hown t id s x s' hready trivial h
  have hne : ∀ y ∈ l₁ ++ l₂, x.isScratch = true → y ≠ x := by
    rintro y hy hk rfl
    exact (hx.spared hk).2 hy
  have hready' := hkeep.ready hready
  refine ⟨⟨hready'.unit, hready'.locals, hready'.values, hready'.refs, fun _ h => h.elim⟩, ⟨?_, ?_, ?_⟩, hacc, hkeep.asm,
    fun a ha => ?_⟩
  · intro y hy
    rcases List.mem_append.1 hy with hy | hy
    · exact ho.own y (List.mem_append_left _ hy)
    · rcases List.mem_cons.1 hy with rfl | hy
      · exact ⟨fun hk => ⟨(hx.spared hk).1, nofun⟩, hx.counted⟩
      · exact ho.own y (by simp [hy])
  · intro y hy
    rcases List.mem_append.1 hy with hy | hy
    · exact hready'.live y (List.mem_append_left _ hy)
    · rcases List.mem_cons.1 hy with rfl | hy
      · exact Guards.live_of_copy hcopy
      · exact hready'.live y (List.mem_append_right _ hy)
  · refine (List.pairwise_middle fun h => apart_symm h).2 (List.pairwise_cons.2 ⟨fun y hy hk => ?_, hrest⟩)
    exact fun heq => hne y hy (heq ▸ hk) heq
  · rcases stable_lays hs h with ⟨rfl, rfl⟩ | ⟨hk, hlays⟩
    · exact ⟨Assembler.Preserves.refl.carries, fun _ _ => .refl⟩
    · have hcode : a.code[s.asm.pos]? = some { op := .mov, a := x, b := o } := ha.block hlays.code 0 Nat.one_pos
      rw [hlays.pos]
      exact ⟨.mov hcode, fun y hy => .instr hcode rfl fun V σ τ he => (Instr.effect_mov he).2 (hne y hy hk)⟩

/-! ## Operands where they are used -/

theorem EvaluatedAt.later {ids : List NodeId} {i ip : Nat} {o : Operand} (h : EvaluatedAt rec ids s s₁ i o ip)
    (ha : s₁.asm.Continues s'.asm) : EvaluatedAt rec ids s s' i o ip := by
  obtain ⟨s₀, items, es, t', id, forced, later, e, t, hcode, hitems, hbefore, hid, hx, hop, hpos, hcont⟩ := h
  exact ⟨s₀, items, es, t', id, forced, later, e, t, hcode, hitems, hbefore, hid, hx, hop, hpos, hcont.trans ha⟩

/-- The `i`-th expression was evaluated before `hi`, and at `hi` its value is in `o`. A variable may have been overwritten by
a store that was not seen. -/
def Delivered (rec : Emitter) (ids : List NodeId) (s s' : EmitState) (i : Nat) (o : Operand) (hi : Nat) : Prop :=
  ∃ y ip, EvaluatedAt rec ids s s' i y ip ∧ ip ≤ hi ∧
    ((y.isVariable = true → ¬Unseen s ids i) → ∀ a, s'.asm.Continues a → a.Carries s.frame.locals y o ip hi)

theorem Delivered.later {ids : List NodeId} {i lo hi : Nat} {o x : Operand} (h : Delivered rec ids s s₁ i o lo)
    (ha : s₁.asm.Continues s'.asm) (hle : lo ≤ hi)
    (hcarries : ∀ a, s'.asm.Continues a → a.Carries s.frame.locals o x lo hi) : Delivered rec ids s s' i x hi := by
  obtain ⟨y, ip, hat, hip, hkept⟩ := h
  exact ⟨y, ip, hat.later ha, Nat.le_trans hip hle, fun hcond a hc =>
    (hkept hcond a (ha.trans hc)).trans (hcarries a hc) hip hle⟩

theorem operands_delivered {fuel : Nat} {ids : List NodeId} {os : List Operand} (hs : Ready (.of s fun _ => True) (fun _ => False) s)
    (hrun : operands (emitter fuel) ids s = .ok os s') :
    Ready (.of s fun _ => True) (fun _ => False) s' ∧ Owned (fun _ => False) os s'.values s'.refs ∧
      s.asm.Continues s'.asm ∧ ∀ i o, os[i]? = some o → Delivered (emitter fuel) ids s s' i o s'.asm.pos := by
  have hquiet : Ready (.of s fun _ => False) (fun _ => False) s := ready_start hs.values hs.refs _
  obtain ⟨hkeep, howned⟩ := Guards.operands (fun id _ => steady_restless fuel (.expr id)) s os s' hquiet trivial hrun
  have hs' := hkeep.ready hquiet
  refine ⟨⟨hs'.unit, hs'.locals, hs'.values, hs'.refs, fun _ h => h.elim⟩, howned, hkeep.asm, fun i o ho => ?_⟩
  obtain ⟨ip, hat, hkept⟩ := evaluated_kept hs.values hs.refs hrun ho
  refine ⟨o, ip, hat, ?_, fun hcond a ha => (hkept hcond a ha).carries⟩
  obtain ⟨-, -, -, -, -, -, -, -, t, -, -, -, -, -, -, rfl, hcont⟩ := hat
  exact hcont.pos_le

/-! ## Elements and fields -/

/-- Every operand is brought to where it is stable, from the last to the first of a list. -/
theorem stable_delivered {ids : List NodeId} (l₁ : List Operand) {l₂ : List Operand} {o x : Operand} {t : TypeId} {id : NodeId}
    (hs : Ready (.of s fun _ => True) (fun _ => False) s₁) (ho : Owned (fun _ => False) (l₁ ++ o :: l₂) s₁.values s₁.refs)
    (hl : ∀ y ∈ l₁, y.kind ≠ .accumulator)
    (hin : ∀ i y, (l₁ ++ o :: l₂)[i]? = some y → Delivered rec ids s s₁ i y s₁.asm.pos)
    (h : stable o t id s₁ = .ok x s') :
    Ready (.of s fun _ => True) (fun _ => False) s' ∧ Owned (fun _ => False) (l₁ ++ x :: l₂) s'.values s'.refs ∧
      (∀ y ∈ l₁ ++ [x], y.kind ≠ .accumulator) ∧
      ∀ i y, (l₁ ++ x :: l₂)[i]? = some y → Delivered rec ids s s' i y s'.asm.pos := by
  obtain ⟨hs', ho', hacc, hcont, hkept⟩ := ho.stable hs h
  refine ⟨hs', ho', List.forall_mem_append.2 ⟨hl, List.forall_mem_singleton.2 hacc⟩, fun i y hy => ?_⟩
  by_cases hi : i = l₁.length
  · subst hi
    rw [List.getElem?_append_right (Nat.le_refl _), Nat.sub_self, List.getElem?_cons_zero] at hy
    cases hy
    have hold := hin l₁.length o (by rw [List.getElem?_append_right (Nat.le_refl _), Nat.sub_self, List.getElem?_cons_zero])
    exact hold.later hcont hcont.pos_le fun a ha => (hkept a ha).1
  · have hsame : (l₁ ++ o :: l₂)[i]? = some y ∧ y ∈ l₁ ++ l₂ := by
      by_cases hlt : i < l₁.length
      · rw [List.getElem?_append_left hlt] at hy ⊢
        exact ⟨hy, List.mem_append_left _ (List.mem_of_getElem? hy)⟩
      · obtain ⟨j, rfl⟩ : ∃ j, i = l₁.length + (j + 1) := ⟨i - l₁.length - 1, by omega⟩
        rw [List.getElem?_append_right (Nat.le_add_right ..), Nat.add_sub_cancel_left, List.getElem?_cons_succ] at hy ⊢
        exact ⟨hy, List.mem_append_right _ (List.mem_of_getElem? hy)⟩
    exact (hin i y hsame.1).later hcont hcont.pos_le fun a ha => ((hkept a ha).2 y hsame.2).carries

/-- What is read at `hi`, combined and written back. -/
def ReadsLast (rec : Emitter) (ids : List NodeId) (os : List Operand) (read combine write : Instr) (s s' : EmitState) : Prop :=
  ∃ hi, s'.asm.code[hi]? = some read ∧ s'.asm.code[hi + 1]? = some combine ∧ s'.asm.code[hi + 2]? = some write ∧
    s'.asm.pos = hi + 3 ∧ ∀ i o, os[i]? = some o → o.kind ≠ .accumulator ∧ Delivered rec ids s s' i o hi

theorem combine_lays {id : NodeId} {n : Node} {v r : Operand} (h : combine id n v s = .ok r s') :
    r = .accumulator ∧ ∃ op, binaryCode id n.op n.a n.b s = .ok op s ∧ Lays [{ op, a := .accumulator, b := v }] s s' := by
  obtain ⟨op, s₁, hop, h₁⟩ := bind_ok h
  have hs₁ := (Consults.binaryCode id n.op n.a n.b).ok (show s.unit = s.unit from rfl) hop
  obtain ⟨-, rfl⟩ := EStateM.Result.ok.inj (hop.symm.trans hs₁)
  obtain ⟨_, s₂, hemit, h₂⟩ := bind_ok h₁
  obtain ⟨_, s₃, hfree, h₃⟩ := bind_ok h₂
  cases h₃
  exact ⟨rfl, op, hs₁, (Lays.emit hemit).trans (.free hfree)⟩

/-- The three instructions at the end. -/
theorem readsLast_of_lays {ids : List NodeId} {os : List Operand} {read combine write : Instr}
    (hacc : ∀ o ∈ os, o.kind ≠ .accumulator) (hin : ∀ i o, os[i]? = some o → Delivered rec ids s s₁ i o s₁.asm.pos)
    (h : Lays [read, combine, write] s₁ s') : ReadsLast rec ids os read combine write s s' := by
  refine ⟨s₁.asm.pos, h.getElem? (k := 0) (by simp), h.getElem? (k := 1) (by simp), h.getElem? (k := 2) (by simp), h.pos,
    fun i o ho => ⟨hacc o (List.mem_of_getElem? ho), ?_⟩⟩
  exact (hin i o ho).later h.asm (Nat.le_refl _) fun a _ => Assembler.Preserves.refl.carries

theorem operands2_ok {a b : NodeId} {p : Operand × Operand} (h : operands2 rec a b s = .ok p s') :
    operands rec [a, b] s = .ok [p.1, p.2] s' := by
  obtain ⟨os, s₁, hos, h₁⟩ := bind_ok h
  split at h₁
  · cases h₁
    exact hos
  · cases h₁

theorem operands3_ok {a b c : NodeId} {p : Operand × Operand × Operand} (h : operands3 rec a b c s = .ok p s') :
    operands rec [a, b, c] s = .ok [p.1, p.2.1, p.2.2] s' := by
  obtain ⟨os, s₁, hos, h₁⟩ := bind_ok h
  split at h₁
  · cases h₁
    exact hos
  · cases h₁

theorem assignElement_reads {fuel : Nat} {id : NodeId} {n tn : Node} {r : Operand} (hv : s.values.kind = .value)
    (hr : s.refs.kind = .ref) (hop : n.op ≠ .none) (h : assignElement (emitter fuel) id n tn s = .ok r s') :
    ∃ x k v op, binaryCode id n.op n.a n.b s = .ok op s ∧
      ReadsLast (emitter fuel) [tn.a, tn.b, n.b] [x, k, v] { op := .index, a := x, b := k }
        { op, a := .accumulator, b := v } { op := .setIndex, a := x, b := k, c := .accumulator } s s' := by
  obtain ⟨⟨x₀, k₀, v₀⟩, s₁, hops, h₁⟩ := bind_ok h
  dsimp only at h₁
  rw [if_neg hop] at h₁
  obtain ⟨an, _, hn, h₂⟩ := bind_ok h₁
  obtain rfl := (Consults.node tn.a).reads _ _ _ hn
  obtain ⟨x, s₂, hx, h₃⟩ := bind_ok h₂
  obtain ⟨bn, _, hn, h₄⟩ := bind_ok h₃
  obtain rfl := (Consults.node tn.b).reads _ _ _ hn
  obtain ⟨k, s₃, hk, h₅⟩ := bind_ok h₄
  obtain ⟨vn, _, hn, h₆⟩ := bind_ok h₅
  obtain rfl := (Consults.node n.b).reads _ _ _ hn
  obtain ⟨v, s₄, hval, h₇⟩ := bind_ok h₆
  obtain ⟨_, s₅, hread, h₈⟩ := bind_ok h₇
  obtain ⟨w, s₆, hcombine, h₉⟩ := bind_ok h₈
  obtain ⟨rfl, op, hop, hcombine⟩ := combine_lays hcombine
  obtain ⟨_, s₇, hwrite, h₁₀⟩ := bind_ok h₉
  obtain ⟨_, s₈, hfree, h₁₁⟩ := bind_ok h₁₀
  obtain ⟨_, s₉, hfree', hdone⟩ := bind_ok h₁₁
  cases hdone
  obtain ⟨hs₁, ho₁, -, hin₁⟩ := operands_delivered (ready_start hv hr _) (operands3_ok hops)
  obtain ⟨hs₂, ho₂, hl₂, hin₂⟩ := stable_delivered [] hs₁ ho₁ nofun hin₁ hx
  obtain ⟨hs₃, ho₃, hl₃, hin₃⟩ := stable_delivered [x] hs₂ ho₂ hl₂ hin₂ hk
  obtain ⟨hs₄, -, hl₄, hin₄⟩ := stable_delivered [x, k] hs₃ ho₃ hl₃ hin₃ hval
  have hlays := ((Lays.emit hread).trans hcombine).trans (((Lays.emit hwrite).trans (.free hfree)).trans (.free hfree'))
  refine ⟨x, k, v, op, ?_, readsLast_of_lays hl₄ hin₄ hlays⟩
  exact (Consults.binaryCode id n.op n.a n.b).ok (hs₄.unit.symm.trans (Lays.emit hread).unit.symm) hop

theorem assignMember_reads {fuel : Nat} {id : NodeId} {n tn : Node} {r : Operand} (hv : s.values.kind = .value)
    (hr : s.refs.kind = .ref) (hop : n.op ≠ .none) (h : assignMember (emitter fuel) id n tn s = .ok r s') :
    ∃ x f v op t t', fieldOperand n.a tn t = .ok f t' ∧ t.unit = s.unit ∧ binaryCode id n.op n.a n.b s = .ok op s ∧
      ReadsLast (emitter fuel) [tn.a, n.b] [x, v] { op := .field, a := x, b := f }
        { op, a := .accumulator, b := v } { op := .setField, a := x, b := f, c := .accumulator } s s' := by
  obtain ⟨⟨x₀, v₀⟩, s₁, hops, h₁⟩ := bind_ok h
  dsimp only at h₁
  obtain ⟨f, _, hf, h₂⟩ := bind_ok h₁
  rw [if_neg hop] at h₂
  obtain ⟨an, t, hn, h₃⟩ := bind_ok h₂
  obtain rfl := (Consults.node tn.a).reads _ _ _ hn
  obtain ⟨x, s₂, hx, h₄⟩ := bind_ok h₃
  obtain ⟨vn, _, hn, h₅⟩ := bind_ok h₄
  obtain rfl := (Consults.node n.b).reads _ _ _ hn
  obtain ⟨v, s₃, hval, h₆⟩ := bind_ok h₅
  obtain ⟨_, s₄, hread, h₇⟩ := bind_ok h₆
  obtain ⟨w, s₅, hcombine, h₈⟩ := bind_ok h₇
  obtain ⟨rfl, op, hop, hcombine⟩ := combine_lays hcombine
  obtain ⟨_, s₆, hwrite, h₉⟩ := bind_ok h₈
  obtain ⟨_, s₇, hfree, hdone⟩ := bind_ok h₉
  cases hdone
  obtain ⟨hs₁, ho₁, -, hin₁⟩ := operands_delivered (ready_start hv hr _) (operands2_ok hops)
  have hquiet := IsQuiet.fieldOperand n.a tn s₁ f t hf
  have hpos : t.asm.pos = s₁.asm.pos := congrArg Array.size hquiet.code
  have hin (i : Nat) (o : Operand) (ho : [x₀, v₀][i]? = some o) :
      Delivered (emitter fuel) [tn.a, n.b] s t i o t.asm.pos := by
    rw [hpos]
    exact (hin₁ i o ho).later (Lays.quiet hquiet).asm (Nat.le_refl _) fun a _ => Assembler.Preserves.refl.carries
  rw [← hquiet.values, ← hquiet.refs] at ho₁
  obtain ⟨hs₂, ho₂, hl₂, hin₂⟩ := stable_delivered [] (hquiet.keeps.ready hs₁) ho₁ nofun hin hx
  obtain ⟨hs₃, -, hl₃, hin₃⟩ := stable_delivered [x] hs₂ ho₂ hl₂ hin₂ hval
  have hlays := ((Lays.emit hread).trans hcombine).trans ((Lays.emit hwrite).trans (.free hfree))
  refine ⟨x, f, v, op, s₁, t, hf, hs₁.unit, ?_, readsLast_of_lays hl₃ hin₃ hlays⟩
  exact (Consults.binaryCode id n.op n.a n.b).ok (hs₃.unit.symm.trans (Lays.emit hread).unit.symm) hop

/-! ## Variables -/

/-- In the unit, `id` names a variable whose operand is `dst` in a frame with that many captures. -/
structure NamesVariable (u : AnalysisResult) (captures : Nat) (id : NodeId) (dst : Operand) : Prop where
  ident : ∃ n, u.tree.get? id = some n ∧ n.kind = .ident
  bound : ∃ v sym, u.bindings.get? id = some v ∧ u.scopes.symbol? v = some sym ∧ sym.kind = .var ∧
    slotOf? captures sym.storage = some dst

theorem binding_run {id : NodeId} {v : SymbolId} (h : s.unit.bindings.get? id = some v) : binding id s = .ok v s := by
  unfold binding
  rw [bind_run (show unit s = .ok s.unit s from rfl), h]
  rfl

theorem storage_variable {v : SymbolId} {sym : Symbol} {dst : Operand} (hsym : s.unit.scopes.symbol? v = some sym)
    (hdst : slotOf? s.frame.captures sym.storage = some dst) : storage v s = .ok dst s := by
  have hrun : symbol v s = .ok sym s := by
    rw [symbol_apply, hsym]
    rfl
  rw [storage_run, storageAt, bind_run hrun, hdst]
  rfl

/-- A variable needs no code. -/
theorem unforced_variable {id : NodeId} {dst : Operand} {p : Operand × Node} (hname : NamesVariable s.unit s.frame.captures id dst)
    (h : unforced rec id s = .ok p s') : p.1 = dst ∧ Quiet s s' := by
  obtain ⟨⟨n, hn, hk⟩, v, sym, hb, hsym, hvar, hdst⟩ := hname
  unfold unforced at h
  have hrun : node id s = .ok n s := by
    rw [node_apply, hn]
    rfl
  rw [bind_run hrun] at h
  obtain ⟨resolved, s₁, hresolved, h₁⟩ := bind_ok h
  have hquiet := IsQuiet.isResolved _ _ _ _ hresolved
  split at h₁
  · cases h₁
  · obtain ⟨_, s₂, hnote, h₂⟩ := bind_ok h₁
    have hquiet := (IsQuiet.isResolved _ _ _ _ hresolved).trans (IsQuiet.note _ _ _ _ hnote)
    have hframe : s₂.frame = s.frame := by
      cases hresolved
      cases hnote
      rfl
    obtain ⟨o, s₃, hvalue, hdone⟩ := bind_ok h₂
    cases hdone
    simp only [value, hk] at hvalue
    unfold name at hvalue
    rw [← hquiet.unit] at hb hsym
    have hrun : symbol v s₂ = .ok sym s₂ := by
      rw [symbol_apply, hsym]
      rfl
    rw [bind_run (binding_run hb), bind_run hrun, hvar] at hvalue
    rw [← hframe] at hdst
    cases hvalue.symm.trans (storage_variable hsym hdst)
    exact ⟨rfl, hquiet⟩

/-- A value that may be copied. -/
theorem maybeCopied {c : Prop} [Decidable c] {o x : Operand} {t : TypeId} {id : NodeId} (hs : Ready K H s)
    (h : (if c then toRegister o t id else pure o) s = .ok x s') :
    x = o ∧ s' = s ∨ x.isScratch = true ∧ Lays [{ op := .mov, a := x, b := o }] s s' := by
  split at h
  · exact toRegister_lays hs h
  · cases h
    exact .inl ⟨rfl, rfl⟩

/-- The code that reads a variable as an operand is empty or one copy. -/
theorem evaluate_variable {fuel : Nat} {id : NodeId} {dst : Operand} {forced later : Bool} {e : Evaluated}
    (hs : Ready K H s) (hname : NamesVariable s.unit s.frame.captures id dst)
    (h : evaluate (emitter fuel) id forced later s = .ok e s') :
    e.op = dst ∧ Lays [] s s' ∨ e.op.isScratch = true ∧ Lays [{ op := .mov, a := e.op, b := dst }] s s' := by
  cases fuel with
  | zero => cases h
  | succ fuel =>
    obtain ⟨o, s₁, hexpr, h₁⟩ := bind_ok h
    change exprStep (emitter fuel) id forced s = _ at hexpr
    rw [exprStep_eq] at hexpr
    obtain ⟨p, s₂, hp, hforced⟩ := bind_ok hexpr
    obtain ⟨rfl, hquiet⟩ := unforced_variable hname hp
    have hs₂ := hquiet.keeps.ready hs
    by_cases hlater : (later && o.isVariable) = true
    · dsimp only at h₁
      rw [if_pos hlater] at h₁
      obtain ⟨n, _, hn, h₂⟩ := bind_ok h₁
      obtain rfl := (Consults.node id).reads _ _ _ hn
      obtain ⟨x, s₃, hcopy, h₃⟩ := bind_ok h₂
      cases h₃
      rcases maybeCopied hs₂ hforced with ⟨rfl, rfl⟩ | ⟨hscratch, -⟩
      · rcases toRegister_lays hs₂ hcopy with ⟨rfl, rfl⟩ | ⟨hx, hlays⟩
        · exact .inl ⟨rfl, .quiet hquiet⟩
        · exact .inr ⟨hx, (Lays.quiet hquiet).trans hlays⟩
      · rw [not_variable_of_scratch hscratch, Bool.and_false] at hlater
        cases hlater
    · dsimp only at h₁
      rw [if_neg hlater] at h₁
      cases h₁
      rcases maybeCopied hs₂ hforced with ⟨rfl, rfl⟩ | ⟨hx, hlays⟩
      · exact .inl ⟨rfl, .quiet hquiet⟩
      · exact .inr ⟨hx, (Lays.quiet hquiet).trans hlays⟩

/-- The variable is read into `l` before any code of the other expressions. -/
theorem first_operand {fuel : Nat} {id : NodeId} {ids : List NodeId} {dst l : Operand} {os : List Operand}
    (hv : s.values.kind = .value) (hr : s.refs.kind = .ref) (hname : NamesVariable s.unit s.frame.captures id dst)
    (hrun : operands (emitter fuel) (id :: ids) s = .ok (l :: os) s') :
    ∃ ip, EvaluatedAt (emitter fuel) (id :: ids) s s' 0 l ip ∧
      (l = dst ∧ ip = s.asm.pos ∨
        ip = s.asm.pos + 1 ∧ s'.asm.code[s.asm.pos]? = some { op := .mov, a := l, b := dst }) ∧
      ((l.isVariable = true → ¬Unseen s (id :: ids) 0) →
        ∀ a, s'.asm.Continues a → a.Carries s.frame.locals dst l s.asm.pos s'.asm.pos) := by
  have hs := ready_start hv hr fun _ => False
  have hextends := (Emits.operands (fun id _ => (steady_restless fuel (.expr id)).1 s.frame.captures s.asm.labels.size)
    s _ s' (Guards.over_anywhere hs) hrun).1
  obtain ⟨storing, s₁, hseen, hrun₁⟩ := bind_ok hrun
  obtain rfl : s = s₁ := (reads_storesAfter _ _ _ _ hseen).symm
  obtain ⟨hst, hseen⟩ := storesAfter_ok hseen
  obtain ⟨forced, s₀, hk₀, hcode, hf, hsettled⟩ :=
    lastRound (fun id _ => steady_restless fuel (.expr id)) hst _ hs (List.length_map ..) hrun₁
  have hs₀ := hk₀.ready hs
  obtain ⟨items, es, t', id', f, later, e, t, hitems, hbefore, hid, hx, hop, hcont, hkept⟩ :=
    hsettled.evaluated hs₀ hf hst (i := 0) (o := l) rfl
  obtain ⟨es', hes, -, -⟩ := hsettled
  have hcaptures : s₀.frame.captures = s.frame.captures :=
    (Steady.extends (fun x _ => steady_restless fuel (.expr x.1)) hs₀ hes).captures.symm.trans hextends.captures
  obtain rfl : items = [] := List.map_eq_nil_iff.1 hitems
  cases hbefore
  cases hid
  cases hop
  have hpos : s₀.asm.pos = s.asm.pos := congrArg Array.size hcode
  have hat : EvaluatedAt (emitter fuel) (id :: ids) s s' 0 e.op t.asm.pos :=
    ⟨s₀, [], [], s₀, id, f, later, e, t, hcode, rfl, rfl, rfl, hx, rfl, rfl, hcont⟩
  have hkept (hcond : e.op.isVariable = true → ¬Unseen s (id :: ids) 0) (a : Assembler) (ha : s'.asm.Continues a) :
      a.Carries s.frame.locals e.op e.op t.asm.pos s'.asm.pos := by
    refine (hkept (fun hvar hlater x hx hstores => hcond hvar ⟨x, hx, hstores, hseen 0 hlater x hx⟩) a ha).carries
  rw [← hk₀.unit, ← hcaptures] at hname
  refine ⟨t.asm.pos, hat, ?_⟩
  rcases evaluate_variable hs₀ hname hx with ⟨hdst, hlays⟩ | ⟨-, hlays⟩
  · have ht : t.asm.pos = s.asm.pos := hlays.pos.trans hpos
    rw [ht, hdst] at hkept
    rw [hdst]
    exact ⟨.inl ⟨rfl, ht⟩, hkept⟩
  · have ht : t.asm.pos = s.asm.pos + 1 := hlays.pos.trans (by rw [hpos]; rfl)
    have hmov (a : Assembler) (ha : s'.asm.Continues a) : a.code[s.asm.pos]? = some { op := .mov, a := e.op, b := dst } := by
      rw [← hpos]
      exact (hcont.trans ha).block hlays.code 0 Nat.one_pos
    refine ⟨.inr ⟨ht, hmov _ (.refl _)⟩, fun hcond a ha => ?_⟩
    rw [ht] at hkept
    exact (Assembler.Carries.mov (hmov a ha)).trans (hkept hcond a ha) (Nat.le_succ _) (ht ▸ hcont.pos_le)

/-- The variable `dst` is read into `l` first, and at `hi` combined with the value `r`. -/
def ReadsFirst (rec : Emitter) (target value : NodeId) (dst l r : Operand) (op : Opcode) (s s' : EmitState) : Prop :=
  (∃ ip, EvaluatedAt rec [target, value] s s' 0 l ip ∧ (l = dst ∧ ip = s.asm.pos ∨
    ip = s.asm.pos + 1 ∧ s'.asm.code[s.asm.pos]? = some { op := .mov, a := l, b := dst })) ∧
  ∃ hi, s'.asm.code[hi]? = some { op, a := l, b := r } ∧ s'.asm.code[hi + 1]? = some { op := .mov, a := dst, b := .accumulator } ∧
    s'.asm.pos = hi + 2 ∧ Delivered rec [target, value] s s' 1 r hi ∧
    ((l.isVariable = true → ¬Unseen s [target, value] 0) →
      ∀ a, s'.asm.Continues a → a.Carries s.frame.locals dst l s.asm.pos hi)

theorem move_lays {dst src : Operand} {a : Unit} (hne : dst ≠ src) (h : move dst src s = .ok a s') :
    Lays [{ op := .mov, a := dst, b := src }] s s' := by
  unfold move at h
  rw [if_pos hne] at h
  obtain ⟨_, s₁, hmov, hfree⟩ := bind_ok h
  exact (Lays.emit hmov).trans (.free hfree)

theorem assignName_reads {fuel : Nat} {id : NodeId} {n : Node} {r dst : Operand} (hv : s.values.kind = .value)
    (hr : s.refs.kind = .ref) (hop : n.op ≠ .none) (hname : NamesVariable s.unit s.frame.captures n.a dst)
    (h : assignName (emitter fuel) id n s = .ok r s') :
    r = dst ∧ ∃ l x op, binaryCode id n.op n.a n.b s = .ok op s ∧ ReadsFirst (emitter fuel) n.a n.b dst l x op s s' := by
  have hname' := hname
  obtain ⟨-, v, sym, hb, hsym, -, hdst⟩ := hname'
  unfold assignName at h
  rw [bind_run (binding_run hb), bind_run (storage_variable hsym hdst), if_neg hop] at h
  obtain ⟨⟨l, x⟩, _, hops, h₁⟩ := bind_ok h
  obtain ⟨op, s₁, hcode, h₂⟩ := bind_ok h₁
  have hconsults := Consults.binaryCode id n.op n.a n.b
  obtain rfl := hconsults.reads _ _ _ hcode
  obtain ⟨_, s₂, hemit, h₃⟩ := bind_ok h₂
  obtain ⟨_, s₃, hfree, h₄⟩ := bind_ok h₃
  obtain ⟨_, s₄, hfree', h₅⟩ := bind_ok h₄
  obtain ⟨_, s₅, hmove, hdone⟩ := bind_ok h₅
  cases hdone
  have hne : r ≠ .accumulator := by
    rintro rfl
    rcases Guards.slot_kind hdst with hk | hk <;> cases hk
  have hops := operands2_ok hops
  obtain ⟨hs₁, -, -, hin⟩ := operands_delivered (ready_start hv hr _) hops
  obtain ⟨ip, hat, hfirst, hcarries⟩ := first_operand hv hr hname hops
  have hlays := (((Lays.emit hemit).trans (.free hfree)).trans (.free hfree')).trans (move_lays hne hmove)
  have hstart := hfirst.imp_right fun hmov => And.intro hmov.1 (hlays.asm.getElem? hmov.2)
  refine ⟨rfl, l, x, op, hconsults.ok hs₁.unit.symm hcode, ⟨ip, hat.later hlays.asm, hstart⟩, s₁.asm.pos,
    hlays.getElem? (k := 0) (by simp), hlays.getElem? (k := 1) (by simp), hlays.pos, ?_, fun hcond a ha => ?_⟩
  · exact (hin 1 x rfl).later hlays.asm (Nat.le_refl _) fun a _ => Assembler.Preserves.refl.carries
  · exact hcarries hcond a (hlays.asm.trans ha)

/-! ## Every compound assignment -/

/-- A compound assignment to a variable reads it first. The place of an element or a field is evaluated before the value, but
it is read after the value, just before it is written. -/
theorem assign_reads (fuel : Nat) (s : EmitState) (hv : s.values.kind = .value) (hr : s.refs.kind = .ref) (id : NodeId)
    (n : Node) (hop : n.op ≠ .none) (r : Operand) (s' : EmitState) (h : assign (emitter fuel) id n s = .ok r s') :
    ∃ tn, s.unit.tree.get? n.a = some tn ∧ match tn.kind with
      | .ident => ∀ dst, NamesVariable s.unit s.frame.captures n.a dst → r = dst ∧ ∃ l x op,
          binaryCode id n.op n.a n.b s = .ok op s ∧ ReadsFirst (emitter fuel) n.a n.b dst l x op s s'
      | .index => ∃ x k v op, binaryCode id n.op n.a n.b s = .ok op s ∧
          ReadsLast (emitter fuel) [tn.a, tn.b, n.b] [x, k, v] { op := .index, a := x, b := k }
            { op, a := .accumulator, b := v } { op := .setIndex, a := x, b := k, c := .accumulator } s s'
      | .member => ∃ x f v op t t', fieldOperand n.a tn t = .ok f t' ∧ t.unit = s.unit ∧ binaryCode id n.op n.a n.b s = .ok op s ∧
          ReadsLast (emitter fuel) [tn.a, n.b] [x, v] { op := .field, a := x, b := f }
            { op, a := .accumulator, b := v } { op := .setField, a := x, b := f, c := .accumulator } s s'
      | _ => False := by
  obtain ⟨tn, s₁, hn, hcase⟩ := bind_ok h
  obtain ⟨hget, rfl⟩ := node_ok hn
  refine ⟨tn, hget, ?_⟩
  cases hk : tn.kind <;> rw [hk] at hcase
  case ident => exact fun dst hname => assignName_reads hv hr hop hname hcase
  case index => exact assignElement_reads hv hr hop hcase
  case member => exact assignMember_reads hv hr hop hcase
  all_goals cases hcase

/-- The value of a compound assignment stores to the variable that is assigned. -/
def variableStoredInValue : Tree where
  nodes := #[
    .typeName ["int"], .intLit 1, .letDecl "x" 1 2, .ident ["x"], .ident ["x"], .intLit 5, .assign .none 5 6,
    .assign .add 4 7, .exprStmt 8, { kind := .file, list := [3, 9] }]
  roots := [10]

theorem variableStoredInValue_reads_first :
    let s := start (variableStoredInValue.analyze {} {}).state.result {} {}
    let n := (s.unit.tree.get? 8).getD default
    s.values.kind = .value ∧ s.refs.kind = .ref ∧ n.op ≠ .none ∧ ∃ r s', assign (emitter 50) 8 n s = .ok r s' ∧
      s'.asm.code = #[{ op := .mov, a := { kind := .value, val := 0 }, b := .global 0 },
        { op := .mov, a := .global 0, b := .int 5 },
        { op := .addInt, a := { kind := .value, val := 0 }, b := .global 0 }, { op := .mov, a := .global 0, b := .accumulator }] ∧
      r = .global 0 ∧ ∃ l x op, ReadsFirst (emitter 50) n.a n.b (.global 0) l x op s s' := by
  obtain ⟨hop, hview, hident, hslot⟩ :
      let s := start (variableStoredInValue.analyze {} {}).state.result {} {}
      let n := (s.unit.tree.get? 8).getD default
      n.op ≠ .none ∧ view? (assign (emitter 50) 8 n) (fun _ s' => s'.asm.code) s = some #[
          { op := .mov, a := { kind := .value, val := 0 }, b := .global 0 }, { op := .mov, a := .global 0, b := .int 5 },
          { op := .addInt, a := { kind := .value, val := 0 }, b := .global 0 },
          { op := .mov, a := .global 0, b := .accumulator }] ∧
        (s.unit.tree.get? n.a).map (·.kind) = some .ident ∧
        ((s.unit.bindings.get? n.a).bind fun v => (s.unit.scopes.symbol? v).map fun sym =>
          (sym.kind, slotOf? 0 sym.storage)) = some (.var, some (.global 0)) := by decide +kernel
  refine ⟨rfl, rfl, hop, ?_⟩
  obtain ⟨r, s', hrun, hcode⟩ := view?_eq_some hview
  obtain ⟨tn, htn, hk⟩ := Option.map_eq_some_iff.1 hident
  obtain ⟨v, hv, hsym⟩ := Option.bind_eq_some_iff.1 hslot
  obtain ⟨sym, hsym, hpair⟩ := Option.map_eq_some_iff.1 hsym
  obtain ⟨hvar, hslot⟩ := Prod.mk.inj hpair
  obtain ⟨tn', htn', hreads⟩ := assign_reads 50 (start _ {} {}) rfl rfl 8 _ hop r s' hrun
  obtain rfl : tn = tn' := Option.some.inj (htn.symm.trans htn')
  rw [hk] at hreads
  obtain ⟨hr, l, x, op, -, hfirst⟩ := hreads (.global 0) ⟨⟨tn, htn, hk⟩, v, sym, hv, hsym, hvar, hslot⟩
  exact ⟨r, s', hrun, hcode, hr, l, x, op, hfirst⟩

/-- The value of a compound assignment stores to the element that is assigned. -/
def elementStoredInValue : Tree where
  nodes := #[
    .intLit 1, { kind := .arrayLit, list := [1] }, .letDecl "xs" 0 2, .ident ["xs"], .intLit 0, .index 4 5, .ident ["xs"],
    .intLit 0, .index 7 8, .intLit 5, .assign .none 9 10, .assign .add 6 11, .exprStmt 12, { kind := .file, list := [3, 13] }]
  roots := [14]

/-- The element is read after the value has stored to it. -/
theorem elementStoredInValue_reads_last :
    let e := elementStoredInValue.analyze {} {}
    let s := start e.state.result {} {}
    let n := (s.unit.tree.get? 12).getD default
    e.failure = none ∧ e.hasErrors = false ∧ ∃ r s', assign (emitter 50) 12 n s = .ok r s' ∧
      s'.asm.code = #[{ op := .mov, a := { kind := .ref, val := 0 }, b := .global 0 },
        { op := .setIndex, a := .global 0, b := .int 0, c := .int 5 },
        { op := .index, a := { kind := .ref, val := 0 }, b := .int 0 },
        { op := .addInt, a := .accumulator, b := .int 5 },
        { op := .setIndex, a := { kind := .ref, val := 0 }, b := .int 0, c := .accumulator }] := by
  obtain ⟨hfailure, herrors, hview⟩ :
      let e := elementStoredInValue.analyze {} {}
      let s := start e.state.result {} {}
      let n := (s.unit.tree.get? 12).getD default
      e.failure = none ∧ e.hasErrors = false ∧ view? (assign (emitter 50) 12 n) (fun _ s' => s'.asm.code) s = some #[
        { op := .mov, a := { kind := .ref, val := 0 }, b := .global 0 },
        { op := .setIndex, a := .global 0, b := .int 0, c := .int 5 }, { op := .index, a := { kind := .ref, val := 0 }, b := .int 0 },
        { op := .addInt, a := .accumulator, b := .int 5 },
        { op := .setIndex, a := { kind := .ref, val := 0 }, b := .int 0, c := .accumulator }] := by decide +kernel
  exact ⟨hfailure, herrors, view?_eq_some hview⟩

end Emit

end TreeCompiler
