import TreeCompiler.Proofs.Emit.Direct
import TreeCompiler.Proofs.Emit.Lockstep

/-!
# Rounds over a list of operands

The direct emitter evaluates a list once, with the right operands forced into registers. The other one needs rounds for that:
after each round but the last it rewinds, and what a round leaves behind, it would have left anyway.

* `Twin` : two emitters that do the same; `Values w` : operands of one list on both sides;
* `Related.rewound` : a round that is taken back leaves the states related;
* `Related.rounds` : two rounds from one state ask for the same rows, and the one with more forced operands spills deeper;
* `Paired.rounds` : so the rounds end like the direct evaluation with the set that the direct emitter knows beforehand.
-/

namespace TreeCompiler

namespace Emit

/-- Two emitters that do the same. -/
structure Twin (drec rec : Emitter) : Prop where
  expr : ∀ id forced, Gives [] (drec.expr id forced) (rec.expr id forced)
  stmt : ∀ id, Runs [] (drec.stmt id) (rec.stmt id)
  zero : ∀ id t, Gives [] (drec.zero id t) (rec.zero id t)

/-- A value on both sides, and the writes since it was made: none on one side if none on the other. -/
structure Values (w : World) (e e' : Evaluated) : Prop where
  op : w.Links e.op e'.op
  accumulator : Counts e.accumulatorWrites w.direct.accumulatorWrites e'.accumulatorWrites w.actual.accumulatorWrites
  returned : Counts e.returnWrites w.direct.returnWrites e'.returnWrites w.actual.returnWrites

variable {w w' : World} {drec rec : Emitter} {e e' : Evaluated} {es es' : List Evaluated}

theorem Values.mono (h : Values w e e') (hl : Later w w') : Values w' e e' :=
  ⟨h.op.mono hl.widens, h.accumulator.trans hl.accumulator, h.returned.trans hl.returned⟩

theorem Values.isStale (h : Values w e e') : e'.isStale w.actual = e.isStale w.direct := by
  have hacc := h.accumulator.same
  have hret := h.returned.same
  unfold Evaluated.isStale
  rw [h.op.likewise.kind, decide_eq_decide.2 (not_congr (Eq.comm.trans (hacc.symm.trans Eq.comm))),
    decide_eq_decide.2 (not_congr (Eq.comm.trans (hret.symm.trans Eq.comm)))]

theorem Values.stale (h : List.Forall₂ (Values w) es es') :
    es'.dropLast.map (·.isStale w.actual) = es.dropLast.map (·.isStale w.direct) := by
  have hmap : es'.map (·.isStale w.actual) = es.map (·.isStale w.direct) := by
    induction h with
    | nil => rfl
    | cons he _ ih => rw [List.map_cons, List.map_cons, ih, he.isStale]
  rw [List.map_dropLast, List.map_dropLast, hmap]

namespace Paired

theorem evaluate (hT : Twin drec rec) (hr : Related w) (id : NodeId) (forced later : Bool) :
    Paired w Values (evaluate drec id forced later w.direct) (evaluate rec id forced later w.actual) := by
  have done {w₁ : World} {o o' : Operand} (hr₁ : Related w₁) (h : w₁.Links o o') : Paired w₁ Values ((do
      let s ← get
      pure { op := o, accumulatorWrites := s.accumulatorWrites, returnWrites := s.returnWrites : Evaluated } : EmitM Evaluated)
        w₁.direct) ((do
      let s ← get
      pure { op := o', accumulatorWrites := s.accumulatorWrites, returnWrites := s.returnWrites : Evaluated } : EmitM Evaluated)
        w₁.actual) := ⟨w₁, rfl, rfl, .refl hr₁, hr₁, h, .refl _ _, .refl _ _⟩
  refine (hT.expr id forced w hr .nil).bind fun w₁ o o' _ hr₁ ho => ?_
  obtain ⟨hlike, hlink⟩ := ho
  have hvar : o'.isVariable = o.isVariable := by
    unfold Operand.isVariable
    rw [hlike.kind]
  rw [hvar]
  by_cases hcopy : (later && o.isVariable) = true
  · simp only [hcopy, if_true]
    refine (Pairs.consults (Γ := [(o, o')]) (R := Eq) (.node id) (fun _ _ _ _ => rfl) w₁ hr₁ hlink).bind
      fun w₂ n n' hl₂ hr₂ hn => ?_
    obtain ⟨rfl, -⟩ := hn
    refine (Pairs.toRegister hlike n.valueType id (Γ := [(o, o')]) (.inl (by simp)) w₂ hr₂ (hlink.mono hl₂.widens)).bind
      fun w₃ r r' _ hr₃ hreg => done hr₃ (Linked.head hreg.2)
  · simp only [hcopy, Bool.false_eq_true, if_false]
    exact done hr₁ (Linked.head hlink)

theorem evaluateAll (hT : Twin drec rec) (items : List (NodeId × Bool × Bool)) : ∀ w, Related w →
    Paired w (fun w' => List.Forall₂ (Values w')) (evaluateAll drec items w.direct) (evaluateAll rec items w.actual) := by
  induction items with
  | nil => exact fun w hr => ⟨w, rfl, rfl, .refl hr, hr, .nil⟩
  | cons x rest ih =>
    intro w hr
    refine (evaluate hT hr x.1 x.2.1 x.2.2).bind fun w₁ e e' _ hr₁ he => ?_
    refine (ih w₁ hr₁).bind fun w₂ es es' hl₂ hr₂ hes => ?_
    exact ⟨w₂, rfl, rfl, .refl hr₂, hr₂, .cons (he.mono hl₂) hes⟩

end Paired

/-! ## The direct state against itself -/

/-- The direct state on both sides. -/
def World.mirror (w : World) : World where
  direct := w.direct
  actual := w.direct
  asked := w.asked
  asked' := w.asked
  labels := fun l l' => l' = l ∧ ∃ k, w.labels l k

theorem World.Links.mirror {o o' : Operand} (h : w.Links o o') : w.mirror.Links o o := by
  cases h with
  | same hk => exact .same hk
  | row hi _ => exact .row hi hi
  | label hl => exact .label ⟨rfl, _, hl⟩

theorem forall₂_left {α β : Type} {S : α → β → Prop} {T : α → α → Prop} {l : List α} {l' : List β} (h : List.Forall₂ S l l')
    (hT : ∀ a b, S a b → T a a) : List.Forall₂ T l l := by
  induction h with
  | nil => exact .nil
  | cons h _ ih => exact .cons (hT _ _ h) ih

theorem Related.mirror (hr : Related w) : Related w.mirror where
  unit := rfl
  values := rfl
  refs := rfl
  valuesMarked := hr.valuesMarked
  refsMarked := hr.refsMarked
  fn := rfl
  captures := rfl
  locals := rfl
  spills := rfl
  loops := forall₂_left hr.loops fun _ _ h => ⟨rfl, ⟨rfl, _, h.exit⟩, ⟨rfl, _, h.again⟩⟩
  countingCalls := rfl
  code := forall₂_left hr.code fun _ _ h => ⟨rfl, h.a.mirror, h.b.mirror, h.c.mirror⟩
  asked := hr.asked
  asked' := hr.asked
  within := Catalog.join_self _ hr.asked.distinct
  entries := fun _ => rfl
  rows := fun _ => rfl
  labelled :=
    { range := fun l l' ⟨hl, k, hk⟩ => by
        subst hl
        exact ⟨(hr.labelled.range _ k hk).1, (hr.labelled.range _ k hk).1⟩
      unique := fun l l' k k' ⟨hl, _⟩ ⟨hk, _⟩ => by rw [hl, hk]
      address? := fun l l' ⟨hl, _⟩ => by rw [hl]; rfl
      apart := fun l l' ⟨_, k, hk⟩ => hr.labelled.apart l k hk
      apart' := fun l l' ⟨hl, k, hk⟩ => by
        subst hl
        exact hr.labelled.apart _ k hk }

/-- The marks of a state against itself. -/
def marksOf (s : EmitState) : Marks := ⟨s.values.held, s.refs.held, s.values.held, s.refs.held⟩

theorem Related.abreast (hr : Related w) : Abreast (marksOf w.direct) w.direct w.direct := by
  refine ⟨⟨w.direct.asm.code, w.direct.asm.labels, w.direct.asm.bound, w.direct.recorder, w.direct.notes, w.direct.values,
    w.direct.refs, w.direct.frame.maxSpill⟩, rfl, ?_⟩
  exact ⟨rfl, Nat.le_refl _, Nat.le_refl _, hr.valuesMarked, hr.refsMarked, hr.valuesMarked, hr.refsMarked⟩

/-- A round of the direct emitter, as the other one does it from the direct state. -/
theorem Related.shadow (hr : Related w) (hT : Twin drec rec) {items : List (NodeId × Bool × Bool)} {d : EmitState}
    {c : Catalog} (h : evaluateAll drec items w.direct = .ok es d) (hc : Catalogued d c) :
    ∃ es' t, evaluateAll rec items w.direct = .ok es' t ∧ Catalogued t c ∧ t.frame.maxSpill = d.frame.maxSpill ∧
      (d.accumulatorWrites = w.direct.accumulatorWrites ↔ t.accumulatorWrites = w.direct.accumulatorWrites) ∧
      (d.returnWrites = w.direct.returnWrites ↔ t.returnWrites = w.direct.returnWrites) := by
  have hpaired := Paired.evaluateAll hT items w.mirror hr.mirror
  change Paired w.mirror _ (evaluateAll drec items w.direct) (evaluateAll rec items w.direct) at hpaired
  rw [h] at hpaired
  cases ht : evaluateAll rec items w.direct with
  | error e t =>
    rw [ht] at hpaired
    exact hpaired.elim
  | ok es' t =>
    rw [ht] at hpaired
    obtain ⟨m, rfl, rfl, hl, hm, -⟩ := hpaired
    have hcm : c = m.asked := hm.asked.unique hc rfl rfl rfl rfl
    have hsame : m.asked' = m.asked := by
      rw [hl.joined]
      exact Catalog.join_of_grows hl.grows hm.asked.distinct
    obtain ⟨k, hk, hk'⟩ := hl.maxSpill
    refine ⟨es', m.actual, rfl, ?_, hk'.trans hk.symm, hl.accumulator.same, hl.returned.same⟩
    rw [hcm, ← hsame]
    exact hm.asked'

/-- Two rounds of the direct emitter from one state, the second with more operands forced. -/
theorem Related.rounds (hr : Related w) (hT : Twin drec rec) (hL : Lenient rec) {ids : List NodeId}
    {storing forced forced' : List Bool} {d d' : EmitState} {c c' : Catalog}
    (hf : ForcesMore forced forced')
    (h : evaluateAll drec (ids.zip (forced.zip storing)) w.direct = .ok es d) (hc : Catalogued d c)
    (h' : evaluateAll drec (ids.zip (forced'.zip storing)) w.direct = .ok es' d') (hc' : Catalogued d' c') :
    c' = c ∧ d.frame.maxSpill ≤ d'.frame.maxSpill ∧
      (d.accumulatorWrites = w.direct.accumulatorWrites ↔ d'.accumulatorWrites = w.direct.accumulatorWrites) ∧
      (d.returnWrites = w.direct.returnWrites ↔ d'.returnWrites = w.direct.returnWrites) := by
  obtain ⟨_, t, ht, hct, hmax, hacc, hret⟩ := hr.shadow hT h hc
  obtain ⟨_, t', ht', hct', hmax', hacc', hret'⟩ := hr.shadow hT h' hc'
  obtain ⟨x, rfl, hx⟩ := evaluateAll_abreast hL hf hr.abreast ht ht'
  refine ⟨hct.unique hct' rfl rfl rfl rfl, ?_, hacc.trans hacc'.symm, hret.trans hret'.symm⟩
  rw [← hmax, ← hmax']
  exact hx.maxSpill

/-! ## Rounds that are taken back -/

end Emit

theorem Assembler.address?_rewind (a : Assembler) (m : AsmMark) (l : Label) :
    (a.rewind m).address? l = none ∨ (a.rewind m).address? l = a.address? l := by
  have hfold : ∀ (ls : List Label) (labels : Array (Option Nat)),
      ((ls.foldl (fun a l => a.setIfInBounds l none) labels)[l]?).join = none ∨
        ((ls.foldl (fun a l => a.setIfInBounds l none) labels)[l]?).join = (labels[l]?).join := by
    intro ls
    induction ls with
    | nil => exact fun _ => .inr rfl
    | cons k ls ih =>
      intro labels
      rcases ih (labels.setIfInBounds k none) with h | h
      · exact .inl h
      · by_cases hk : k = l
        · left
          rw [List.foldl_cons, h, hk, Array.getElem?_setIfInBounds, if_pos rfl]
          split <;> rfl
        · right
          rw [List.foldl_cons, h, Array.getElem?_setIfInBounds_ne hk]
  exact hfold _ a.labels

theorem Assembler.labels_rewind_size (a : Assembler) (m : AsmMark) : (a.rewind m).labels.size = a.labels.size := by
  have hfold : ∀ (ls : List Label) (labels : Array (Option Nat)),
      (ls.foldl (fun a l => a.setIfInBounds l none) labels).size = labels.size := by
    intro ls
    induction ls with
    | nil => exact fun _ => rfl
    | cons k ls ih => exact fun labels => (ih _).trans Array.size_setIfInBounds
  exact hfold _ a.labels

/-- A function that has a row keeps it. -/
theorem Catalogued.funcs_mono {s s' : EmitState} {c c' : Catalog} {fn : SymbolId} {p : Nat × Label} (hc : Catalogued s c)
    (hc' : Catalogued s' c') (hg : c.Grows c') (hrows : ∃ rs, s'.asm.funcs.toList = s.asm.funcs.toList ++ rs)
    (h : s.funcs.get? fn = some p) : s'.funcs.get? fn = some p := by
  obtain ⟨rs, hrows⟩ := hrows
  obtain ⟨hat, hentry⟩ := (hc.funcs fn p.1 p.2).1 h
  refine (hc'.funcs fn p.1 p.2).2 ⟨?_, ?_⟩
  · obtain ⟨tail, htail⟩ := hg.funcs
    rw [← htail, List.getElem?_append_left (List.getElem?_eq_some_iff.1 hat).1, hat]
  · have hlt : p.1 < s.asm.funcs.toList.length := hc.row_lt h
    rw [← Array.getElem?_toList, hrows, List.getElem?_append_left hlt, Array.getElem?_toList]
    exact hentry

namespace Emit

/-- A round that is taken back leaves the states related. -/
theorem Related.rewound {w₁ : World} (hr : Related w) (hl : Later w w₁) (h₁ : Related w₁)
    (he : Extends (fun _ => True) w.actual.asm.labels.size w.actual w₁.actual) {s : EmitState} {a : Unit}
    (hs : rewind (markOf w.actual) w₁.actual = .ok a s) : Related { w with actual := s, asked' := w₁.asked' } := by
  have hext := he.rewind (mark_run _) hs
  cases hs
  have hcode : (w₁.actual.asm.rewind (markOf w.actual).code).code.toList = w.actual.asm.code.toList := by
    obtain ⟨is, hcode, -⟩ := he.code
    simp [markOf, Assembler.rewind, Assembler.mark, Assembler.pos, hcode]
  have hwidens : Widens w { w with actual := w₁.actual, asked' := w₁.asked' } := ⟨fun _ _ h => h, .refl _, hl.widens.grows'⟩
  have hold (l : Label) (hlt : l < w.actual.asm.labels.size) :
      (w₁.actual.asm.rewind (markOf w.actual).code).address? l = w.actual.asm.address? l := by
    unfold Assembler.address?
    rw [hext.labels l hlt]
  refine
    { unit := h₁.unit.trans hl.unit
      values := hr.values
      refs := hr.refs
      valuesMarked := hr.valuesMarked
      refsMarked := hr.refsMarked
      fn := he.fn.trans hr.fn
      captures := he.captures.trans hr.captures
      locals := he.locals.trans hr.locals
      spills := hr.spills
      loops := by
        rw [hl.loops']
        exact hr.loops.imp fun _ _ h => h.mono ⟨hwidens.labels, hwidens.grows, hwidens.grows'⟩
      countingCalls := hr.countingCalls
      code := by
        rw [hcode]
        exact hr.code.imp fun _ _ h => h.mono ⟨hwidens.labels, hwidens.grows, hwidens.grows'⟩
      asked := hr.asked
      asked' := { h₁.asked' with entries := fun k r hk => ?_ }
      within := ?_
      entries := fun fn => ?_
      rows := fun fn => (h₁.rows fn).trans (hl.rows fn)
      labelled := ?_ }
  · rw [Assembler.labels_rewind_size]
    exact h₁.asked'.entries k r hk
  · rw [hl.joined]
    exact Catalog.join_known hl.grows
  · refine Eq.trans ?_ (hr.entries fn)
    unfold EmitState.entryAddress?
    dsimp only
    cases hp : w.actual.funcs.get? fn with
    | some p =>
      rw [hr.asked'.funcs_mono h₁.asked' hl.widens.grows' he.rows hp]
      exact hold p.2 (hr.asked'.entry_lt hp)
    | none =>
      -- a function that is new in this round has no address, for the direct state has none for it
      have hnone : w₁.actual.entryAddress? fn = none := by
        rw [h₁.entries, hl.entries, ← hr.entries, EmitState.entryAddress?, hp]
        rfl
      cases hnew : w₁.actual.funcs.get? fn with
      | none => rfl
      | some p =>
        rw [EmitState.entryAddress?, hnew] at hnone
        rcases Assembler.address?_rewind w₁.actual.asm (markOf w.actual).code p.2 with h | h
        · exact h
        · exact h.trans hnone
  · refine { hr.labelled with range := fun l l' h => ?_, address? := fun l l' h => ?_, apart' := fun l l' h fn p hp => ?_ }
    · rw [Assembler.labels_rewind_size]
      exact ⟨(hr.labelled.range l l' h).1, Nat.lt_of_lt_of_le (hr.labelled.range l l' h).2 he.size⟩
    · exact (hold l' (hr.labelled.range l l' h).2).trans (hr.labelled.address? l l' h)
    · exact h₁.labelled.apart' l l' (hl.labels l l' h) fn p hp

/-- The emitter appends code wherever it starts. -/
def GoodAnywhere (rec : Emitter) : Prop :=
  ∀ (u : AnalysisResult) (captures base : Nat) (p : Place), Good (Guards.anywhere u captures base) rec p

theorem GoodAnywhere.evaluateAll (hG : GoodAnywhere rec) (hr : Related w) {items : List (NodeId × Bool × Bool)} {s : EmitState}
    (h : evaluateAll rec items w.actual = .ok es s) : Extends (fun _ => True) w.actual.asm.labels.size w.actual s := by
  have hover : Over (Guards.anywhere w.actual.unit w.actual.frame.captures w.actual.asm.labels.size) w.actual :=
    ⟨rfl, rfl, Nat.le_refl _, by rw [hr.values]; exact hr.valuesMarked.kind, by rw [hr.refs]; exact hr.refsMarked.kind⟩
  exact (Emits.evaluateAll (fun x _ => hG _ _ _ (.expr x.1)) _ _ _ hover h).1

/-! ## The set that the rounds end with -/

section

variable {ids : List NodeId} {storing forced : List Bool} {s s' : EmitState}

theorem stale_length (hst : storing.length = ids.length) (hf : forced.length = ids.length)
    (h : evaluateAll rec (ids.zip (forced.zip storing)) s = .ok es s')
    (hstale : (es.dropLast.map (·.isStale s')).any id = true) :
    (es.dropLast.map (·.isStale s') ++ [false]).length = ids.length := by
  have hlen := evaluateAll_length h
  simp only [List.length_zip, hf, hst, Nat.min_self] at hlen
  have hne : es ≠ [] := by
    rintro rfl
    cases hstale
  have := List.length_pos_iff.2 hne
  simp only [List.length_append, List.length_map, List.length_dropLast, List.length_singleton]
  omega

theorem ForcesMore.refl (l : List Bool) : ForcesMore l l := List.forall₂_same.2 fun _ _ h => h

theorem ForcesMore.trans {l m n : List Bool} (h : ForcesMore l m) (h' : ForcesMore m n) : ForcesMore l n := by
  induction h generalizing n with
  | nil => exact h'
  | cons hb _ ih =>
    cases h' with
    | cons hb' h' => exact .cons (fun h => hb' (hb h)) (ih h')

theorem ForcesMore.zipWith {l m : List Bool} (hlen : l.length ≤ m.length) : ForcesMore l (l.zipWith or m) := by
  induction l generalizing m with
  | nil => exact .nil
  | cons b l ih =>
    cases m with
    | nil => cases hlen
    | cons b' m => exact .cons (fun hb => by rw [hb]; rfl) (ih (Nat.le_of_succ_le_succ hlen))

/-- No operand is taken out of the set. -/
theorem finalForced_le (hst : storing.length = ids.length) {fuel : Nat} {final : List Bool} (hf : forced.length = ids.length)
    (h : finalForced rec ids storing s fuel forced = some final) : ForcesMore forced final := by
  induction fuel generalizing forced with
  | zero => cases h
  | succ fuel ih =>
    unfold finalForced at h
    split at h
    · cases h
      exact .refl _
    · rename_i es s' hround
      dsimp only at h
      split at h
      · rename_i hstale
        have hlen := stale_length hst hf hround hstale
        have hnext : (forced.zipWith or (es.dropLast.map (·.isStale s') ++ [false])).length = ids.length := by
          rw [List.length_zipWith, hlen, hf, Nat.min_self]
        exact (ForcesMore.zipWith (Nat.le_of_eq (hf.trans hlen.symm))).trans (ih hnext h)
      · cases h
        exact .refl _

end

/-- What a round left behind, a later one with as many rows, writes and spill slots would have left, too. -/
theorem Later.after_round {w₁ : World} (hl : Later w w₁) {s₂ : EmitState} {a : Unit}
    (hs : rewind (markOf w.actual) w₁.actual = .ok a s₂) (hl' : Later { w with actual := s₂, asked' := w₁.asked' } w')
    (hasked : w'.asked = w₁.asked) (hmax : w₁.direct.frame.maxSpill ≤ w'.direct.frame.maxSpill)
    (hacc : w₁.direct.accumulatorWrites = w.direct.accumulatorWrites ↔ w'.direct.accumulatorWrites = w.direct.accumulatorWrites)
    (hret : w₁.direct.returnWrites = w.direct.returnWrites ↔ w'.direct.returnWrites = w.direct.returnWrites) : Later w w' := by
  cases hs
  have counts {a a₁ a' b b₁ b' : Nat} (h : Counts a a₁ b b₁) (h' : Counts a a' b₁ b') (hiff : a₁ = a ↔ a' = a) :
      Counts a a' b b' := by
    have := h.le'
    have := h'.le'
    have := h.same
    have := h'.same
    exact ⟨h'.le, by omega, by omega⟩
  refine
    { unit := hl'.unit
      labels := hl'.labels
      grows := hl'.grows
      joined := ?_
      maxSpill := ?_
      accumulator := counts hl.accumulator hl'.accumulator hacc
      returned := counts hl.returned hl'.returned hret
      entries := hl'.entries
      rows := hl'.rows
      loops := hl'.loops
      loops' := hl'.loops'.trans hl.loops' }
  · rw [hl'.joined, hl.joined, hasked, Catalog.join_join (.refl _)]
  · obtain ⟨m, hm, hm'⟩ := hl.maxSpill
    obtain ⟨k, hk, hk'⟩ := hl'.maxSpill
    dsimp only at hk hk'
    refine ⟨max m k, ?_, ?_⟩
    · omega
    · omega

/-- The same results, seen from another world. -/
theorem Paired.change {α : Type} {Q : World → α → α → Prop} {r r' : EStateM.Result EmitFailure EmitState α} (h : Paired w Q r r')
    (hok : ∀ a d w₁, r = .ok a d → w₁.direct = d → Later w w₁ → Related w₁ → Later w' w₁) : Paired w' Q r r' := by
  cases r <;> cases r'
  · obtain ⟨w₁, hd, hs, hl, hr, hq⟩ := h
    exact ⟨w₁, hd, hs, hok _ _ w₁ rfl hd hl hr, hr, hq⟩
  all_goals exact h

/-- The rounds end like the direct evaluation. -/
theorem Paired.rounds (hT : Twin drec rec) (hL : Lenient rec) (hG : GoodAnywhere rec) {ids : List NodeId} {storing : List Bool}
    (hst : storing.length = ids.length) (fuel : Nat) : ∀ w forced, Related w → forced.length = ids.length →
      Paired w (fun w' => List.Forall₂ w'.Links)
        (Direct.evaluateForced drec ids storing (finalForced drec ids storing w.direct fuel forced) w.direct)
        (operandsAux rec ids storing fuel forced w.actual) := by
  induction fuel with
  | zero => exact fun w forced _ _ => .refl _
  | succ fuel ih =>
    intro w forced hr hf
    have hround := Paired.evaluateAll hT (ids.zip (forced.zip storing)) w hr
    unfold finalForced operandsAux
    rw [bind_run (mark_run w.actual)]
    cases hd : Emit.evaluateAll drec (ids.zip (forced.zip storing)) w.direct with
    | error e d =>
      cases hs : Emit.evaluateAll rec (ids.zip (forced.zip storing)) w.actual with
      | ok es' s =>
        rw [hd, hs] at hround
        exact hround.elim
      | error e' s =>
        rw [hd, hs] at hround
        rw [bind_fail hs]
        dsimp only [Direct.evaluateForced]
        rw [bind_fail hd]
        exact hround
    | ok es d =>
      cases hs : Emit.evaluateAll rec (ids.zip (forced.zip storing)) w.actual with
      | error e' s =>
        rw [hd, hs] at hround
        exact hround.elim
      | ok es' s =>
        rw [hd, hs] at hround
        obtain ⟨w₁, rfl, rfl, hl₁, hr₁, hvalues⟩ := hround
        have hget : (get : EmitM EmitState) w₁.actual = .ok w₁.actual w₁.actual := rfl
        rw [bind_run hs, bind_run hget, Values.stale hvalues]
        by_cases hstale : (es.dropLast.map (·.isStale w₁.direct)).any id = true
        · obtain ⟨s₂, hs₂⟩ := rewind_run (markOf w.actual) w₁.actual
          have hr₂ := hr.rewound hl₁ hr₁ (hG.evaluateAll hr hs) hs₂
          have hlen := stale_length hst hf hd hstale
          have hnext : (forced.zipWith or (es.dropLast.map (·.isStale w₁.direct) ++ [false])).length = ids.length := by
            rw [List.length_zipWith, hlen, hf, Nat.min_self]
          have hrest := ih _ _ hr₂ hnext
          rw [if_pos hstale, bind_run hs₂]
          simp only [hstale, if_true]
          refine hrest.change fun os d w' hrun hd' hl' hr' => ?_
          subst hd'
          cases hfinal : finalForced drec ids storing w.direct fuel
              (forced.zipWith or (es.dropLast.map (·.isStale w₁.direct) ++ [false])) with
          | none =>
            rw [hfinal] at hrun
            cases hrun
          | some final =>
            rw [hfinal] at hrun
            obtain ⟨es₂, d₂, hrun, hpure⟩ := bind_ok hrun
            cases hpure
            have hmore : ForcesMore forced final :=
              (ForcesMore.zipWith (Nat.le_of_eq (hf.trans hlen.symm))).trans (finalForced_le hst hnext hfinal)
            obtain ⟨hasked, hmax, hacc, hret⟩ := hr.rounds hT hL hmore hd hr₁.asked hrun hr'.asked
            exact hl₁.after_round hs₂ hl' hasked hmax hacc hret
        · rw [if_neg hstale]
          simp only [hstale, Bool.false_eq_true, if_false]
          have hforced : Direct.evaluateForced drec ids storing (some forced) w.direct = .ok (es.map (·.op)) w₁.direct :=
            bind_run hd
          rw [hforced]
          refine ⟨w₁, rfl, rfl, hl₁, hr₁, ?_⟩
          exact List.forall₂_map_left_iff.2 (List.forall₂_map_right_iff.2 (hvalues.imp fun _ _ h => h.op))

/-! ## Operands -/

namespace Pairs

variable (hT : Twin drec rec) (hL : Lenient rec) (hG : GoodAnywhere rec) {Γ : Links}

include hT hL hG

theorem operands (ids : List NodeId) : Pairs Γ (Direct.operands drec ids) (operands rec ids) (List.Forall₂ Likewise)
    fun os os' => os.zip os' := by
  intro w hr hΓ
  have hstoring := consults (Γ := Γ) (R := fun st st' => st' = st ∧ st.length = ids.length) (.storesAfter ids)
    (fun s _ s' h => ⟨rfl, (storesAfter_ok h).1⟩) w hr hΓ
  refine hstoring.bind fun w₁ storing storing' _ hr₁ hst => ?_
  obtain ⟨⟨rfl, hst⟩, -⟩ := hst
  refine (Paired.rounds hT hL hG hst (ids.length + 1) w₁ _ hr₁ (List.length_map ..)).mono fun w₂ os os' _ h => ?_
  refine ⟨h.imp fun _ _ h => h.likewise, fun p hp => ?_⟩
  induction h with
  | nil => cases hp
  | cons h _ ih =>
    rcases List.mem_cons.1 hp with rfl | hp
    · exact h
    · exact ih hp

theorem operands2 (a b : NodeId) : Pairs Γ (Direct.operands2 drec a b) (operands2 rec a b)
    (fun p p' => Likewise p.1 p'.1 ∧ Likewise p.2 p'.2) fun p p' => [(p.1, p'.1), (p.2, p'.2)] := by
  refine bind (operands hT hL hG [a, b]) fun os os' h => ?_
  cases h with
  | nil => exact throw
  | cons hx h =>
    cases h with
    | nil => exact throw
    | cons hy h =>
      cases h with
      | nil => exact .pure ⟨hx, hy⟩ fun _ h => fun p hp => h p (List.mem_append_left _ hp)
      | cons _ _ => exact throw

theorem operands3 (a b c : NodeId) : Pairs Γ (Direct.operands3 drec a b c) (operands3 rec a b c)
    (fun p p' => Likewise p.1 p'.1 ∧ Likewise p.2.1 p'.2.1 ∧ Likewise p.2.2 p'.2.2)
    fun p p' => [(p.1, p'.1), (p.2.1, p'.2.1), (p.2.2, p'.2.2)] := by
  refine bind (operands hT hL hG [a, b, c]) fun os os' h => ?_
  cases h with
  | nil => exact throw
  | cons hx h =>
    cases h with
    | nil => exact throw
    | cons hy h =>
      cases h with
      | nil => exact throw
      | cons hz h =>
        cases h with
        | nil => exact .pure ⟨hx, hy, hz⟩ fun _ h => fun p hp => h p (List.mem_append_left _ hp)
        | cons _ _ => exact throw

end Pairs

end Emit

end TreeCompiler
