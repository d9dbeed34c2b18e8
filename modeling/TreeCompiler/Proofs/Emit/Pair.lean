import TreeCompiler.Proofs.Emit.Forcing

/-!
# Two emissions side by side

The same code is emitted from two states that differ in what earlier attempts left behind: rows of the tables, labels, the
deepest spill and the counts of writes. Operands correspond: a row by what was asked for, a label by when it was made, all
others are equal.

* `World` : two states, the catalogs of their tables and the labels that correspond;
* `Related w` : both states are in the middle of the same code; `Later w w'` : what emission does to both;
* `Pairs Γ m m' R Δ` : from states in which the operands `Γ` correspond, both computations succeed or both fail, alike; then
  the operands `Δ` of the results correspond, too.
-/

namespace TreeCompiler.Emit

structure World where
  direct : EmitState
  actual : EmitState
  asked : Catalog
  asked' : Catalog
  labels : Label → Label → Prop

namespace World

/-- Operands that mean the same in both states. -/
inductive Links (w : World) : Operand → Operand → Prop
  | same {o : Operand} (h : o.kind ≠ .label) : Links w o o
  | row {r : Request} {i i' : Nat} (h : w.asked.At r i) (h' : w.asked'.At r i') : Links w (r.operand i) (r.operand i')
  | label {l l' : Label} (h : w.labels l l') : Links w (.label l) (.label l')

structure LinksInstr (w : World) (i i' : Instr) : Prop where
  op : i'.op = i.op
  a : w.Links i.a i'.a
  b : w.Links i.b i'.b
  c : w.Links i.c i'.c

structure LinksLoop (w : World) (l l' : LoopTargets) : Prop where
  label : l'.label = l.label
  exit : w.labels l.exit l'.exit
  again : w.labels l.again l'.again

end World

/-- Labels that correspond are bound to the same addresses and are no function's entry. -/
structure Labelled (w : World) : Prop where
  range : ∀ l l', w.labels l l' → l < w.direct.asm.labels.size ∧ l' < w.actual.asm.labels.size
  unique : ∀ l l' k k', w.labels l l' → w.labels k k' → (l = k ↔ l' = k')
  address? : ∀ l l', w.labels l l' → w.actual.asm.address? l' = w.direct.asm.address? l
  apart : ∀ l l', w.labels l l' → ∀ fn p, w.direct.funcs.get? fn = some p → p.2 ≠ l
  apart' : ∀ l l', w.labels l l' → ∀ fn p, w.actual.funcs.get? fn = some p → p.2 ≠ l'

structure Related (w : World) : Prop where
  unit : w.actual.unit = w.direct.unit
  values : w.actual.values = w.direct.values
  refs : w.actual.refs = w.direct.refs
  valuesMarked : w.direct.values.Marked .value w.direct.values.held
  refsMarked : w.direct.refs.Marked .ref w.direct.refs.held
  fn : w.actual.frame.fn = w.direct.frame.fn
  captures : w.actual.frame.captures = w.direct.frame.captures
  locals : w.actual.frame.locals = w.direct.frame.locals
  spills : w.actual.frame.spills = w.direct.frame.spills
  loops : List.Forall₂ w.LinksLoop w.direct.frame.loops w.actual.frame.loops
  countingCalls : w.actual.countingCalls = w.direct.countingCalls
  code : List.Forall₂ w.LinksInstr w.direct.asm.code.toList w.actual.asm.code.toList
  asked : Catalogued w.direct w.asked
  asked' : Catalogued w.actual w.asked'
  within : w.asked'.join w.asked = w.asked'
  entries : ∀ fn, w.actual.entryAddress? fn = w.direct.entryAddress? fn
  rows : ∀ fn, w.actual.rowOf? fn = w.direct.rowOf? fn
  labelled : Labelled w

/-- Two counts that grew, or stayed, together. -/
structure Counts (a a' b b' : Nat) : Prop where
  le : a ≤ a'
  le' : b ≤ b'
  same : a' = a ↔ b' = b

structure Later (w w' : World) : Prop where
  unit : w'.direct.unit = w.direct.unit
  labels : ∀ l l', w.labels l l' → w'.labels l l'
  grows : w.asked.Grows w'.asked
  joined : w'.asked' = w.asked'.join w'.asked
  maxSpill : ∃ m, w'.direct.frame.maxSpill = max w.direct.frame.maxSpill m ∧
    w'.actual.frame.maxSpill = max w.actual.frame.maxSpill m
  accumulator : Counts w.direct.accumulatorWrites w'.direct.accumulatorWrites w.actual.accumulatorWrites
    w'.actual.accumulatorWrites
  returned : Counts w.direct.returnWrites w'.direct.returnWrites w.actual.returnWrites w'.actual.returnWrites
  entries : ∀ fn, w'.direct.entryAddress? fn = w.direct.entryAddress? fn
  rows : ∀ fn, w'.direct.rowOf? fn = w.direct.rowOf? fn
  loops : w'.direct.frame.loops = w.direct.frame.loops
  loops' : w'.actual.frame.loops = w.actual.frame.loops

theorem Counts.refl (a b : Nat) : Counts a a b b := ⟨Nat.le_refl _, Nat.le_refl _, by simp⟩

theorem Counts.trans {a a' a'' b b' b'' : Nat} (h : Counts a a' b b') (h' : Counts a' a'' b' b'') : Counts a a'' b b'' := by
  have := h.le
  have := h.le'
  have := h'.le
  have := h'.le'
  have := h.same
  have := h'.same
  exact ⟨by omega, by omega, by omega⟩

theorem Counts.add (a b n : Nat) : Counts a (a + n) b (b + n) := ⟨by omega, by omega, by omega⟩

variable {w w' w'' : World}

theorem Later.refl (h : Related w) : Later w w where
  unit := rfl
  labels := fun _ _ h => h
  grows := .refl _
  joined := h.within.symm
  maxSpill := ⟨0, by simp⟩
  accumulator := .refl _ _
  returned := .refl _ _
  entries := fun _ => rfl
  rows := fun _ => rfl
  loops := rfl
  loops' := rfl

theorem Later.trans (h : Later w w') (h' : Later w' w'') : Later w w'' where
  unit := h'.unit.trans h.unit
  labels := fun l l' hl => h'.labels l l' (h.labels l l' hl)
  grows := h.grows.trans h'.grows
  joined := by rw [h'.joined, h.joined, Catalog.join_join h'.grows]
  maxSpill := by
    obtain ⟨m, hm, hm'⟩ := h.maxSpill
    obtain ⟨k, hk, hk'⟩ := h'.maxSpill
    exact ⟨max m k, by rw [hk, hm, Nat.max_assoc], by rw [hk', hm', Nat.max_assoc]⟩
  accumulator := h.accumulator.trans h'.accumulator
  returned := h.returned.trans h'.returned
  entries := fun fn => (h'.entries fn).trans (h.entries fn)
  rows := fun fn => (h'.rows fn).trans (h.rows fn)
  loops := h'.loops.trans h.loops
  loops' := h'.loops'.trans h.loops'

theorem Later.within (h : Later w w') : w'.asked'.join w'.asked = w'.asked' := by
  rw [h.joined, Catalog.join_join (.refl _)]

/-! ## Operands that correspond -/

/-- Operands that correspond go on to do so. -/
structure Widens (w w' : World) : Prop where
  labels : ∀ l l', w.labels l l' → w'.labels l l'
  grows : w.asked.Grows w'.asked
  grows' : w.asked'.Grows w'.asked'

theorem Widens.refl (w : World) : Widens w w := ⟨fun _ _ h => h, .refl _, .refl _⟩

theorem Later.widens (h : Later w w') : Widens w w' := by
  refine ⟨h.labels, h.grows, ?_⟩
  rw [h.joined]
  exact Catalog.grows_join _ _

theorem World.Links.mono {o o' : Operand} (h : w.Links o o') (hw : Widens w w') : w'.Links o o' := by
  cases h with
  | same hk => exact .same hk
  | row hi hi' => exact .row (hi.mono hw.grows) (hi'.mono hw.grows')
  | label hlab => exact .label (hw.labels _ _ hlab)

theorem World.LinksInstr.mono {i i' : Instr} (h : w.LinksInstr i i') (hw : Widens w w') : w'.LinksInstr i i' :=
  ⟨h.op, h.a.mono hw, h.b.mono hw, h.c.mono hw⟩

theorem World.LinksLoop.mono {l l' : LoopTargets} (h : w.LinksLoop l l') (hw : Widens w w') : w'.LinksLoop l l' :=
  ⟨h.label, hw.labels _ _ h.exit, hw.labels _ _ h.again⟩

end TreeCompiler.Emit

namespace TreeCompiler

/-- Operands whose number depends on what was emitted before. -/
def Operand.isTied (o : Operand) : Bool :=
  match o.kind with
  | .text | .type | .native | .func | .label => true
  | _ => false

namespace Emit

/-- What can be said of operands that correspond without their states. -/
structure Likewise (o o' : Operand) : Prop where
  kind : o'.kind = o.kind
  same : o.isTied = false → o' = o

variable {w w' : World} {o o' : Operand}

theorem Likewise.refl (o : Operand) : Likewise o o := ⟨rfl, fun _ => rfl⟩

theorem World.Links.likewise (h : w.Links o o') : Likewise o o' := by
  cases h with
  | same => exact .refl o
  | @row r i i' _ _ => cases r <;> exact ⟨rfl, nofun⟩
  | label => exact ⟨rfl, nofun⟩

theorem Likewise.of_kind {k : OperandKind} (h : Likewise o o') (hk : o.kind = k)
    (ht : Operand.isTied { kind := k } = false) : o' = o := by
  refine h.same ?_
  subst hk
  exact ht

theorem World.Links.label_iff {l l' : Label} : w.Links (.label l) (.label l') ↔ w.labels l l' := by
  refine ⟨fun h => ?_, .label⟩
  generalize ho : Operand.label l = o at h
  generalize ho' : Operand.label l' = o' at h
  cases h with
  | same hk => exact absurd (ho ▸ rfl) hk
  | @row r i i' _ _ => cases r <;> cases ho
  | label h =>
    have hl := Int.ofNat_inj.1 (congrArg Operand.val ho)
    have hl' := Int.ofNat_inj.1 (congrArg Operand.val ho')
    rw [hl, hl']
    exact h

/-! ## Computations side by side -/

/-- Failures of which one is an exhausted pool if the other is. -/
def Alike (e e' : EmitFailure) : Prop :=
  ∀ id pool size, e = .fatal id (.exhausted pool size) ↔ e' = .fatal id (.exhausted pool size)

theorem Alike.refl (e : EmitFailure) : Alike e e := fun _ _ _ => .rfl

theorem Alike.misuse (m m' : AsmMisuse) : Alike (.misuse m) (.misuse m') := fun _ _ _ => ⟨nofun, nofun⟩

abbrev Links := List (Operand × Operand)

def Linked (w : World) (Γ : Links) : Prop := ∀ p ∈ Γ, w.Links p.1 p.2

theorem Linked.nil : Linked w [] := fun _ h => absurd h List.not_mem_nil

theorem Linked.head {Γ : Links} (h : Linked w ((o, o') :: Γ)) : w.Links o o' := h _ (List.mem_cons_self ..)

theorem Linked.mono {Γ : Links} (h : Linked w Γ) (hw : Widens w w') : Linked w' Γ := fun p hp => (h p hp).mono hw

theorem Linked.append {Γ Δ : Links} (h : Linked w Γ) (h' : Linked w Δ) : Linked w (Γ ++ Δ) :=
  List.forall_mem_append.2 ⟨h, h'⟩

variable {α β : Type}

/-- Both computations succeed and end in a world as described, or both fail alike. -/
def Both (P : World → α → α → Prop) :
    EStateM.Result EmitFailure EmitState α → EStateM.Result EmitFailure EmitState α → Prop
  | .ok a d, .ok a' s => ∃ w, w.direct = d ∧ w.actual = s ∧ P w a a'
  | .error e _, .error e' _ => Alike e e'
  | _, _ => False

theorem Both.mono {P P' : World → α → α → Prop} {r r' : EStateM.Result EmitFailure EmitState α} (h : Both P r r')
    (hP : ∀ w a a', P w a a' → P' w a a') : Both P' r r' := by
  cases r <;> cases r'
  · obtain ⟨w, hd, hs, hp⟩ := h
    exact ⟨w, hd, hs, hP w _ _ hp⟩
  all_goals exact h

theorem Both.bind {P : World → α → α → Prop} {P' : World → β → β → Prop} {m m' : EmitM α} {f f' : α → EmitM β}
    {d s : EmitState} (hm : Both P (m d) (m' s)) (hf : ∀ w a a', P w a a' → Both P' (f a w.direct) (f' a' w.actual)) :
    Both P' ((m >>= f) d) ((m' >>= f') s) := by
  cases hd : m d with
  | error e d =>
    cases hs : m' s with
    | error e' s =>
      rw [hd, hs] at hm
      rw [bind_fail hd, bind_fail hs]
      exact hm
    | ok a' s =>
      rw [hd, hs] at hm
      exact hm.elim
  | ok a d =>
    cases hs : m' s with
    | error e' s =>
      rw [hd, hs] at hm
      exact hm.elim
    | ok a' s =>
      rw [hd, hs] at hm
      obtain ⟨w₁, rfl, rfl, hp⟩ := hm
      rw [bind_run hd, bind_run hs]
      exact hf w₁ a a' hp

def Paired (w : World) (Q : World → α → α → Prop) :
    EStateM.Result EmitFailure EmitState α → EStateM.Result EmitFailure EmitState α → Prop :=
  Both fun w' a a' => Later w w' ∧ Related w' ∧ Q w' a a'

theorem Paired.bind {Q : World → α → α → Prop} {P : World → β → β → Prop} {m m' : EmitM α} {f f' : α → EmitM β}
    (hm : Paired w Q (m w.direct) (m' w.actual))
    (hf : ∀ w' a a', Later w w' → Related w' → Q w' a a' → Paired w' P (f a w'.direct) (f' a' w'.actual)) :
    Paired w P ((m >>= f) w.direct) ((m' >>= f') w.actual) :=
  Both.bind hm fun w₁ a a' hq => (hf w₁ a a' hq.1 hq.2.1 hq.2.2).mono fun _ _ _ hp => ⟨hq.1.trans hp.1, hp.2⟩

theorem Paired.mono {Q Q' : World → α → α → Prop} {r r' : EStateM.Result EmitFailure EmitState α} (h : Paired w Q r r')
    (hQ : ∀ w' a a', Later w w' → Q w' a a' → Q' w' a a') : Paired w Q' r r' :=
  Both.mono h fun w' a a' hq => ⟨hq.1, hq.2.1, hQ w' a a' hq.1 hq.2.2⟩

def Pairs (Γ : Links) (m m' : EmitM α) (R : α → α → Prop) (Δ : α → α → Links) : Prop :=
  ∀ w, Related w → Linked w Γ → Paired w (fun w' a a' => R a a' ∧ Linked w' (Δ a a')) (m w.direct) (m' w.actual)

/-- Two computations that do the same. -/
def Runs (Γ : Links) (m m' : EmitM Unit) : Prop := Pairs Γ m m' (fun _ _ => True) fun _ _ => []

/-- Two computations whose results correspond. -/
def Gives (Γ : Links) (m m' : EmitM Operand) : Prop := Pairs Γ m m' Likewise fun o o' => [(o, o')]

namespace Pairs

variable {Γ Γ' : Links} {m m' : EmitM α} {f f' : α → EmitM β} {R : α → α → Prop} {Q : β → β → Prop} {Δ : α → α → Links}
  {E : β → β → Links}

theorem bind (hm : Pairs Γ m m' R Δ) (hf : ∀ a a', R a a' → Pairs (Δ a a' ++ Γ) (f a) (f' a') Q E) :
    Pairs Γ (m >>= f) (m' >>= f') Q E := by
  intro w hr hΓ
  refine (hm w hr hΓ).bind fun w' a a' hl hr' hq => ?_
  exact hf a a' hq.1 w' hr' (hq.2.append (hΓ.mono hl.widens))

theorem pure {a a' : α} (h : R a a') (hΔ : ∀ w, Linked w Γ → Linked w (Δ a a')) : Pairs Γ (pure a) (pure a') R Δ :=
  fun w hr hΓ => ⟨w, rfl, rfl, .refl hr, hr, h, hΔ w hΓ⟩

theorem throw {e : EmitFailure} : Pairs Γ (throw e : EmitM α) (throw e) R Δ := fun _ _ _ => .refl e

theorem fatal {id : NodeId} {cause : EmitCause} : Pairs Γ (fatal id cause : EmitM α) (fatal id cause) R Δ := throw

theorem weaken (h : Pairs Γ' m m' R Δ) (hsub : Γ' ⊆ Γ) : Pairs Γ m m' R Δ :=
  fun w hr hΓ => h w hr fun p hp => hΓ p (hsub hp)

theorem mono {R' : α → α → Prop} {Δ' : α → α → Links} (h : Pairs Γ m m' R Δ)
    (hR : ∀ a a', R a a' → R' a a' ∧ ∀ w, Linked w (Δ a a' ++ Γ) → Linked w (Δ' a a')) : Pairs Γ m m' R' Δ' :=
  fun w hr hΓ => (h w hr hΓ).mono fun w' a a' hl hq =>
    ⟨(hR a a' hq.1).1, (hR a a' hq.1).2 w' (hq.2.append (hΓ.mono hl.widens))⟩

theorem ite {c : Prop} [Decidable c] {x y x' y' : EmitM α} (hx : c → Pairs Γ x x' R Δ) (hy : ¬c → Pairs Γ y y' R Δ) :
    Pairs Γ (if c then x else y) (if c then x' else y') R Δ := by
  split
  · exact hx ‹_›
  · exact hy ‹_›

theorem consults (hm : Consults m) (hR : ∀ s a s', m s = .ok a s' → R a a) : Pairs Γ m m R fun _ _ => [] := by
  intro w hr _
  cases hd : m w.direct with
  | ok a d =>
    have hstay : m w.direct = .ok a w.direct := hm.ok rfl hd
    cases hd.symm.trans hstay
    rw [hm.ok hr.unit hd]
    exact ⟨w, rfl, rfl, .refl hr, hr, hR _ _ _ hd, .nil⟩
  | error e d =>
    rw [hm.error hr.unit hd]
    exact .refl e

/-- Both sides look the same thing up. -/
theorem look (hm : Consults m) (hf : ∀ a, Pairs Γ (f a) (f' a) Q E) : Pairs Γ (m >>= f) (m >>= f') Q E := by
  refine bind (consults (R := Eq) hm fun _ _ _ _ => rfl) fun a a' h => ?_
  subst h
  exact hf a

/-- Both sides read the state. -/
theorem get_bind {f f' : EmitState → EmitM β} (h : ∀ w, Related w → Pairs Γ (f w.direct) (f' w.actual) Q E) :
    Pairs Γ (get >>= f) (get >>= f') Q E := fun w hr hΓ => h w hr w hr hΓ

/-- Both states change in the same way. -/
theorem modify {g g' : EmitState → EmitState} (h : ∀ w, Related w → Linked w Γ →
    ∃ w', w'.direct = g w.direct ∧ w'.actual = g' w.actual ∧ Later w w' ∧ Related w') : Runs Γ (modify g) (modify g') := by
  intro w hr hΓ
  obtain ⟨w', hd, hs, hl, hr'⟩ := h w hr hΓ
  exact ⟨w', hd, hs, hl, hr', trivial, .nil⟩

theorem forM {γ : Type} {f f' : γ → EmitM PUnit} {l l' : List γ} (h : List.Forall₂ (fun a a' => Runs Γ (f a) (f' a')) l l') :
    Runs Γ (l.forM f) (l'.forM f') := by
  induction h with
  | nil => exact pure trivial fun _ _ => .nil
  | cons h _ ih => exact bind h fun _ _ _ => ih

theorem forM_same {γ : Type} {f f' : γ → EmitM PUnit} (l : List γ) (h : ∀ a ∈ l, Runs Γ (f a) (f' a)) :
    Runs Γ (l.forM f) (l.forM f') := by
  induction l with
  | nil => exact pure trivial fun _ _ => .nil
  | cons a l ih =>
    exact bind (h a (List.mem_cons_self ..)) fun _ _ _ => ih fun x hx => h x (List.mem_cons_of_mem _ hx)

theorem foldlM {γ δ : Type} {f f' : δ → γ → EmitM δ} (l : List γ)
    (h : ∀ c, ∀ a ∈ l, Pairs Γ (f c a) (f' c a) Eq fun _ _ => []) :
    ∀ c, Pairs Γ (l.foldlM f c) (l.foldlM f' c) Eq fun _ _ => [] := by
  induction l with
  | nil => exact fun c => pure rfl fun _ _ => .nil
  | cons a l ih =>
    intro c
    refine bind (h c a (List.mem_cons_self ..)) fun c₁ c₂ hc => ?_
    subst hc
    exact ih (fun c x hx => h c x (List.mem_cons_of_mem _ hx)) c₁

theorem forIn {γ : Type} {f f' : γ → PUnit → EmitM (ForInStep PUnit)} (l : List γ)
    (h : ∀ a ∈ l, Pairs Γ (f a ⟨⟩) (f' a ⟨⟩) Eq fun _ _ => []) : Runs Γ (forIn l PUnit.unit f) (forIn l PUnit.unit f') := by
  induction l with
  | nil => exact pure trivial fun _ _ => .nil
  | cons a l ih =>
    rw [List.forIn_cons, List.forIn_cons]
    refine bind (h a (List.mem_cons_self ..)) fun r r' hr => ?_
    subst hr
    cases r with
    | done _ => exact pure trivial fun _ _ => .nil
    | yield _ => exact ih fun x hx => h x (List.mem_cons_of_mem _ hx)

end Pairs

/-! ## Instructions and labels -/

/-- Operands that are known to correspond. -/
def Known (Γ : Links) (o o' : Operand) : Prop := (o, o') ∈ Γ ∨ o' = o ∧ o.kind ≠ .label

theorem Known.links {Γ : Links} (h : Known Γ o o') (hΓ : Linked w Γ) : w.Links o o' := by
  rcases h with h | ⟨rfl, hk⟩
  · exact hΓ _ h
  · exact .same hk

theorem Known.of_kind {Γ : Links} {k : OperandKind} (hk : o.kind = k) (h : k ≠ .label) : Known Γ o o :=
  .inr ⟨rfl, by rw [hk]; exact h⟩

@[simp]
theorem known_iff {Γ : Links} : Known Γ o o' ↔ (o, o') ∈ Γ ∨ o' = o ∧ o.kind ≠ .label := Iff.rfl

@[simp] theorem kind_none : Operand.none.kind = .none := rfl
@[simp] theorem kind_accumulator : Operand.accumulator.kind = .accumulator := rfl
@[simp] theorem kind_returned : Operand.returned.kind = .returned := rfl
@[simp] theorem kind_spreadCount : Operand.spreadCount.kind = .spreadCount := rfl
@[simp] theorem kind_int (n : Int) : (Operand.int n).kind = .int := rfl
@[simp] theorem kind_real (bits : UInt64) : (Operand.real bits).kind = .real := rfl
@[simp] theorem kind_bool (b : Bool) : (Operand.bool b).kind = .bool := rfl
@[simp] theorem kind_type (index : Nat) : (Operand.type index).kind = .type := rfl

theorem Known.of_untied {Γ : Links} (h : o.isTied = false) : Known Γ o o :=
  .inr ⟨rfl, fun hk => by simp [Operand.isTied, hk] at h⟩

theorem Catalogued.push {s : EmitState} {c : Catalog} (hc : Catalogued s c) :
    Catalogued { s with asm := { s.asm with labels := s.asm.labels.push none } } c :=
  { hc with entries := fun k r hk => Nat.lt_of_lt_of_le (hc.entries k r hk) (by simp) }

theorem entryAddress?_push (s : EmitState) (fn : SymbolId) :
    EmitState.entryAddress? { s with asm := { s.asm with labels := s.asm.labels.push none } } fn = s.entryAddress? fn := by
  unfold EmitState.entryAddress?
  congr 1
  funext p
  exact address?_push s.asm { s.asm with labels := s.asm.labels.push none } rfl p.2

theorem Labelled.push (h : Labelled w) (hd : Catalogued w.direct w.asked) (hs : Catalogued w.actual w.asked') :
    Labelled { w with
      direct := { w.direct with asm := { w.direct.asm with labels := w.direct.asm.labels.push none } }
      actual := { w.actual with asm := { w.actual.asm with labels := w.actual.asm.labels.push none } }
      labels := fun l l' => w.labels l l' ∨ l = w.direct.asm.labels.size ∧ l' = w.actual.asm.labels.size } := by
  have hpush (a : Assembler) (l : Label) : Assembler.address? { a with labels := a.labels.push none } l = a.address? l :=
    address?_push a { a with labels := a.labels.push none } rfl l
  have hnew (a : Assembler) : a.address? a.labels.size = none := by simp [Assembler.address?]
  refine ⟨?_, ?_, ?_, ?_, ?_⟩
  · rintro l l' (hl | ⟨rfl, rfl⟩)
    · obtain ⟨hlt, hlt'⟩ := h.range l l' hl
      simp only [Array.size_push]
      exact ⟨Nat.lt_succ_of_lt hlt, Nat.lt_succ_of_lt hlt'⟩
    · simp
  · rintro l l' k k' (hl | ⟨rfl, rfl⟩) (hk | ⟨rfl, rfl⟩)
    · exact h.unique l l' k k' hl hk
    · obtain ⟨hlt, hlt'⟩ := h.range l l' hl
      exact ⟨fun heq => absurd heq (Nat.ne_of_lt hlt), fun heq => absurd heq (Nat.ne_of_lt hlt')⟩
    · obtain ⟨hlt, hlt'⟩ := h.range k k' hk
      exact ⟨fun heq => absurd heq (Nat.ne_of_gt hlt), fun heq => absurd heq (Nat.ne_of_gt hlt')⟩
    · simp
  · rintro l l' (hl | ⟨rfl, rfl⟩)
    · exact (hpush _ _).trans ((h.address? l l' hl).trans (hpush _ _).symm)
    · exact ((hpush _ _).trans (hnew _)).trans ((hpush _ _).trans (hnew _)).symm
  · rintro l l' (hl | ⟨rfl, rfl⟩) fn p hp
    · exact h.apart l l' hl fn p hp
    · exact Nat.ne_of_lt (hd.entry_lt hp)
  · rintro l l' (hl | ⟨rfl, rfl⟩) fn p hp
    · exact h.apart' l l' hl fn p hp
    · exact Nat.ne_of_lt (hs.entry_lt hp)

/-- The code changes on both sides, and the counts of writes. -/
theorem Related.recode (hr : Related w) {code code' : Array Instr} (h : List.Forall₂ w.LinksInstr code.toList code'.toList)
    (acc ret acc' ret' : Nat) : Related { w with
      direct := { w.direct with asm := { w.direct.asm with code }, accumulatorWrites := acc, returnWrites := ret }
      actual := { w.actual with asm := { w.actual.asm with code := code' }, accumulatorWrites := acc', returnWrites := ret' } } :=
  { hr with
    loops := hr.loops.imp fun _ _ h => h.mono ⟨fun _ _ h => h, .refl _, .refl _⟩
    code := h.imp fun _ _ h => h.mono ⟨fun _ _ h => h, .refl _, .refl _⟩
    asked := { hr.asked with }
    asked' := { hr.asked' with }
    labelled := { hr.labelled with } }

theorem Related.code_push (hr : Related w) {i i' : Instr} (h : w.LinksInstr i i') :
    List.Forall₂ w.LinksInstr (w.direct.asm.code.push i).toList (w.actual.asm.code.push i').toList := by
  rw [Array.toList_push, Array.toList_push]
  exact List.rel_append hr.code (.cons h .nil)

namespace Pairs

variable {Γ : Links}

theorem emit {i i' : Instr} (h : i'.op = i.op) (ha : Known Γ i.a i'.a) (hb : Known Γ i.b i'.b) (hc : Known Γ i.c i'.c) :
    Runs Γ (emit i) (emit i') := by
  refine .modify fun w hr hΓ => ⟨{ w with direct := _, actual := _ }, rfl, rfl, ?_, hr.recode (hr.code_push ?_) _ _ _ _⟩
  · rw [h]
    refine { Later.refl hr with accumulator := ?_, returned := .add _ _ _ }
    simp only [Nat.add_assoc]
    exact .add _ _ _
  · exact ⟨h, ha.links hΓ, hb.links hΓ, hc.links hΓ⟩

theorem note (span : Span) : Runs Γ (note span) (note span) := by
  refine .modify fun w hr _ => ⟨{ w with direct := _, actual := _ }, rfl, rfl, ?_⟩
  have hl : Later w { w with
      direct := { w.direct with
        recorder := w.direct.recorder.node w.direct.asm.pos span, notes := { ip := w.direct.asm.pos, span } :: w.direct.notes }
      actual := { w.actual with
        recorder := w.actual.recorder.node w.actual.asm.pos span, notes := { ip := w.actual.asm.pos, span } :: w.actual.notes } } :=
    { Later.refl hr with }
  exact ⟨hl,
    { hr with
      loops := hr.loops.imp fun _ _ h => h.mono hl.widens
      code := hr.code.imp fun _ _ h => h.mono hl.widens
      asked := { hr.asked with }
      asked' := { hr.asked' with }
      labelled := { hr.labelled with } }⟩

/-- A label that was made on both sides. -/
theorem newLabel : Pairs Γ newLabel newLabel (fun _ _ => True) fun l l' => [(.label l, .label l')] := by
  intro w hr _
  have hl : Later w { w with
      direct := { w.direct with asm := { w.direct.asm with labels := w.direct.asm.labels.push none } }
      actual := { w.actual with asm := { w.actual.asm with labels := w.actual.asm.labels.push none } }
      labels := fun l l' => w.labels l l' ∨ l = w.direct.asm.labels.size ∧ l' = w.actual.asm.labels.size } :=
    { Later.refl hr with labels := fun _ _ h => .inl h, entries := entryAddress?_push w.direct }
  refine ⟨_, rfl, rfl, hl, ?_, trivial, List.forall_mem_singleton.2 (.label (.inr ⟨rfl, rfl⟩))⟩
  exact
    { hr with
      loops := hr.loops.imp fun _ _ h => h.mono hl.widens
      code := hr.code.imp fun _ _ h => h.mono hl.widens
      asked := Catalogued.push hr.asked
      asked' := Catalogued.push hr.asked'
      entries := fun fn => by rw [entryAddress?_push, entryAddress?_push]; exact hr.entries fn
      labelled := hr.labelled.push hr.asked hr.asked' }

end Pairs

end Emit

/-- The label is bound to the next address. -/
def Assembler.place (a : Assembler) (l : Label) : Assembler :=
  { a with labels := a.labels.setIfInBounds l (some a.pos), bound := a.bound.push l }

theorem Assembler.address?_place {a : Assembler} {l : Label} (h : l < a.labels.size) (k : Label) :
    (a.place l).address? k = if k = l then some a.pos else a.address? k := by
  unfold address? place
  by_cases hk : k = l
  · subst hk
    rw [Array.getElem?_setIfInBounds_self_of_lt h, if_pos rfl]
    rfl
  · rw [Array.getElem?_setIfInBounds_ne (Ne.symm hk), if_neg hk]

theorem EmitState.entryAddress?_place {s : EmitState} {l : Label} (h : l < s.asm.labels.size)
    (hl : ∀ fn p, s.funcs.get? fn = some p → p.2 ≠ l) (fn : SymbolId) :
    EmitState.entryAddress? { s with asm := s.asm.place l } fn = s.entryAddress? fn := by
  unfold EmitState.entryAddress?
  cases hfn : s.funcs.get? fn with
  | none => rfl
  | some p =>
    simp only [Option.bind_some, Assembler.address?_place h]
    exact if_neg (hl fn p hfn)

theorem Catalogued.place {s : EmitState} {c : Catalog} (hc : Catalogued s c) (l : Label) :
    Catalogued { s with asm := s.asm.place l } c := by
  refine { hc with entries := fun k r hk => ?_ }
  simp only [Assembler.place, Array.size_setIfInBounds]
  exact hc.entries k r hk

namespace Emit

theorem bindLabel_run {s : EmitState} {l : Label} (h : l < s.asm.labels.size) : bindLabel l s =
    if (s.asm.address? l).isSome then .error (.misuse (.boundTwice l)) s
    else .ok () { s with asm := s.asm.place l } := by
  rw [bindLabel_apply]
  unfold Assembler.bindLabel
  rw [if_neg (Nat.not_le.2 h)]
  split <;> rfl

theorem Related.pos (h : Related w) : w.actual.asm.pos = w.direct.asm.pos := by
  have := h.code.length_eq
  simpa [Assembler.pos] using this.symm

/-- Labels that correspond are bound together. -/
theorem Labelled.place {l l' : Label} (h : Labelled w) (hpos : w.actual.asm.pos = w.direct.asm.pos) (hl : w.labels l l') :
    Labelled { w with
      direct := { w.direct with asm := w.direct.asm.place l }, actual := { w.actual with asm := w.actual.asm.place l' } } := by
  obtain ⟨hlt, hlt'⟩ := h.range l l' hl
  refine { h with range := fun k k' hk => ?_, address? := fun k k' hk => ?_ }
  · simp only [Assembler.place, Array.size_setIfInBounds]
    exact h.range k k' hk
  · simp only [Assembler.address?_place hlt, Assembler.address?_place hlt']
    have huniq := h.unique k k' l l' hk hl
    by_cases hkl : k = l
    · rw [if_pos hkl, if_pos (huniq.1 hkl), hpos]
    · rw [if_neg hkl, if_neg fun heq => hkl (huniq.2 heq)]
      exact h.address? k k' hk

theorem Pairs.bindLabel {Γ : Links} {l l' : Label} (h : (Operand.label l, Operand.label l') ∈ Γ) :
    Runs Γ (bindLabel l) (bindLabel l') := by
  intro w hr hΓ
  have hlab : w.labels l l' := World.Links.label_iff.1 (hΓ _ h)
  obtain ⟨hlt, hlt'⟩ := hr.labelled.range l l' hlab
  rw [bindLabel_run hlt, bindLabel_run hlt', hr.labelled.address? l l' hlab]
  cases hb : w.direct.asm.address? l with
  | some ip => exact .misuse _ _
  | none =>
    have hl : Later w { w with
        direct := { w.direct with asm := w.direct.asm.place l }, actual := { w.actual with asm := w.actual.asm.place l' } } :=
      { Later.refl hr with entries := EmitState.entryAddress?_place hlt (hr.labelled.apart l l' hlab) }
    refine ⟨_, rfl, rfl, hl, ?_, trivial, .nil⟩
    exact
      { hr with
        loops := hr.loops.imp fun _ _ h => h.mono hl.widens
        code := hr.code.imp fun _ _ h => h.mono hl.widens
        asked := hr.asked.place l
        asked' := hr.asked'.place l'
        entries := fun fn => by
          rw [EmitState.entryAddress?_place hlt (hr.labelled.apart l l' hlab),
            EmitState.entryAddress?_place hlt' (hr.labelled.apart' l l' hlab)]
          exact hr.entries fn
        labelled := hr.labelled.place hr.pos hlab }

/-! ## Tables -/

/-- New entries are none of the labels that correspond. -/
theorem Labelled.untouched {d s : EmitState} (h : Labelled w) (hd : w.direct.Untouched d) (hs : w.actual.Untouched s)
    (c c' : Catalog) : Labelled { w with direct := d, actual := s, asked := c, asked' := c' } where
  range := fun l l' hl => by
    obtain ⟨hlt, hlt'⟩ := h.range l l' hl
    exact ⟨Nat.lt_of_lt_of_le hlt hd.size, Nat.lt_of_lt_of_le hlt' hs.size⟩
  unique := h.unique
  address? := fun l l' hl => by
    rw [hs.address?, hd.address?]
    exact h.address? l l' hl
  apart := fun l l' hl fn p hp => by
    rcases hd.fresh fn p hp with hp | hp
    · exact h.apart l l' hl fn p hp
    · exact Nat.ne_of_gt (Nat.lt_of_lt_of_le (h.range l l' hl).1 hp)
  apart' := fun l l' hl fn p hp => by
    rcases hs.fresh fn p hp with hp | hp
    · exact h.apart' l l' hl fn p hp
    · exact Nat.ne_of_gt (Nat.lt_of_lt_of_le (h.range l l' hl).2 hp)

/-- A row that is asked for on both sides. -/
theorem Pairs.refer {Γ : Links} {m : EmitM α} {view : α → Operand} {asked : AnalysisResult → Except EmitFailure Request}
    (h : Answers m view asked) : Pairs Γ m m (fun _ _ => True) fun a a' => [(view a, view a')] := by
  intro w hr _
  have hd := h w.direct w.asked hr.asked
  have hs := h w.actual w.asked' hr.asked'
  rw [hr.unit] at hs
  cases hasked : asked w.direct.unit with
  | error e =>
    rw [hasked] at hd hs
    dsimp only at hd hs
    rw [hd, hs]
    exact .refl e
  | ok r =>
    rw [hasked] at hd hs
    obtain ⟨a, i, d, hrun, hview, hat, hcat, hd⟩ := hd
    obtain ⟨a', i', s, hrun', hview', hat', hcat', hs⟩ := hs
    rw [hrun, hrun']
    have hl : Later w { w with direct := d, actual := s, asked := w.asked.add r, asked' := w.asked'.add r } :=
      { unit := hd.unit
        labels := fun _ _ h => h
        grows := Catalog.grows_add _ _
        joined := (Catalog.join_add hr.within r).symm
        maxSpill := ⟨0, by simp [hd.frame], by simp [hs.frame]⟩
        accumulator := by
          rw [hd.accumulatorWrites, hs.accumulatorWrites]
          exact .refl _ _
        returned := by
          rw [hd.returnWrites, hs.returnWrites]
          exact .refl _ _
        entries := hd.entryAddress?
        rows := hd.rowOf?
        loops := by rw [hd.frame]
        loops' := by rw [hs.frame] }
    refine ⟨_, rfl, rfl, hl, ?_, trivial, List.forall_mem_singleton.2 ?_⟩
    · exact
        { unit := by rw [hs.unit, hd.unit]; exact hr.unit
          values := by rw [hs.values, hd.values]; exact hr.values
          refs := by rw [hs.refs, hd.refs]; exact hr.refs
          valuesMarked := by rw [hd.values]; exact hr.valuesMarked
          refsMarked := by rw [hd.refs]; exact hr.refsMarked
          fn := by rw [hs.frame, hd.frame]; exact hr.fn
          captures := by rw [hs.frame, hd.frame]; exact hr.captures
          locals := by rw [hs.frame, hd.frame]; exact hr.locals
          spills := by rw [hs.frame, hd.frame]; exact hr.spills
          loops := by
            rw [hs.frame, hd.frame]
            exact hr.loops.imp fun _ _ h => h.mono hl.widens
          countingCalls := by rw [hs.countingCalls, hd.countingCalls]; exact hr.countingCalls
          code := by
            rw [hs.code, hd.code]
            exact hr.code.imp fun _ _ h => h.mono hl.widens
          asked := hcat
          asked' := hcat'
          within := hl.within
          entries := fun fn => by rw [hs.entryAddress?, hd.entryAddress?]; exact hr.entries fn
          rows := fun fn => by rw [hs.rowOf?, hd.rowOf?]; exact hr.rows fn
          labelled := hr.labelled.untouched hd hs _ _ }
    · rw [hview, hview']
      exact .row hat hat'

end Emit

end TreeCompiler
