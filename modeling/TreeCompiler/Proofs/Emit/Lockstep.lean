import TreeCompiler.Proofs.Emit.Pair

/-!
# Registers, frames and calls side by side

Related states have the same registers in use and as many spill slots taken, so every primitive that works on them does the
same in both.

* `Related.quiet` : both states change in registers, frame and open spread counts;
* the lemmas below say of every primitive and of every emission without operands that it runs in lockstep with itself.
-/

namespace TreeCompiler

namespace Pool

variable {p q : Pool} {i : Nat}

theorem Sound.release (hp : p.Sound) (h : p.release i = .ok q) : q.Sound := by
  cases hheld : p.isHeld i with
  | true =>
    unfold Pool.release at h
    rw [hheld] at h
    cases h
    exact hp
  | false =>
    obtain ⟨-, rfl⟩ := release_ok h hheld
    refine ⟨by simp [hp.size], fun j hj => ?_⟩
    have hne : i ≠ j := by
      rintro rfl
      exact Bool.eq_false_iff.1 hheld hj
    rw [isUsed_set_ne hne]
    exact hp.held j hj

theorem Sound.hold (hp : p.Sound) (h : p.hold i = .ok q) : q.Sound := by
  unfold Pool.hold at h
  split at h
  · cases h
  rename_i hfree
  cases h
  refine ⟨by simp [hp.size], fun j hj => ?_⟩
  by_cases hij : i = j
  · subst hij
    have hused : p.isUsed i = true ∧ p.isHeld i = false := by simpa using hfree
    exact hused.1
  · refine hp.held j ?_
    rwa [isHeld, Array.getD_eq_getD_getElem?, Array.getElem?_setIfInBounds_ne hij, ← Array.getD_eq_getD_getElem?] at hj

theorem Sound.unhold (hp : p.Sound) (h : p.unhold i = .ok q) : q.Sound := by
  unfold Pool.unhold at h
  split at h
  · cases h
  cases h
  refine ⟨by simp [hp.size], fun j hj => ?_⟩
  have hne : i ≠ j := by
    rintro rfl
    rw [isHeld, Array.getD_eq_getD_getElem?, Array.getElem?_setIfInBounds, if_pos rfl] at hj
    split at hj <;> cases hj
  rw [isHeld, Array.getD_eq_getD_getElem?, Array.getElem?_setIfInBounds_ne hne, ← Array.getD_eq_getD_getElem?] at hj
  rw [isUsed, Array.getD_eq_getD_getElem?, Array.getElem?_setIfInBounds_ne hne, ← Array.getD_eq_getD_getElem?]
  exact hp.held j hj

end Pool

namespace Emit

variable {w : World} {o o' : Operand} {Γ : Links}

/-- Both states change in what no table, label or instruction depends on. -/
theorem Related.quiet (hr : Related w) {values values' refs refs' : Pool} {f f' : Frame} {n n' : Nat} (hvalues : values' = values)
    (hrefs : refs' = refs) (hvaluesMarked : values.Marked .value values.held) (hrefsMarked : refs.Marked .ref refs.held)
    (hfn : f'.fn = f.fn) (hcaptures : f'.captures = f.captures) (hlocals : f'.locals = f.locals) (hspills : f'.spills = f.spills)
    (hloops : List.Forall₂ w.LinksLoop f.loops f'.loops) (hcalls : n' = n) :
    Related { w with
      direct := { w.direct with values, refs, frame := f, countingCalls := n }
      actual := { w.actual with values := values', refs := refs', frame := f', countingCalls := n' } } where
  unit := hr.unit
  values := hvalues
  refs := hrefs
  valuesMarked := hvaluesMarked
  refsMarked := hrefsMarked
  fn := hfn
  captures := hcaptures
  locals := hlocals
  spills := hspills
  loops := hloops.imp fun _ _ h => h.mono ⟨fun _ _ h => h, .refl _, .refl _⟩
  countingCalls := hcalls
  code := hr.code.imp fun _ _ h => h.mono ⟨fun _ _ h => h, .refl _, .refl _⟩
  asked := { hr.asked with }
  asked' := { hr.asked' with }
  within := hr.within
  entries := hr.entries
  rows := hr.rows
  labelled := { hr.labelled with }

/-- The pools change in the same way. -/
theorem Related.pools (hr : Related w) {values refs : Pool} (hvalues : values.Marked .value values.held)
    (hrefs : refs.Marked .ref refs.held) : ∃ w', w'.direct = { w.direct with values, refs } ∧
      w'.actual = { w.actual with values, refs } ∧ Later w w' ∧ Related w' := by
  have h := hr.quiet rfl rfl hvalues hrefs hr.fn hr.captures hr.locals hr.spills hr.loops hr.countingCalls
  exact ⟨{ w with direct := _, actual := _ }, rfl, rfl, { Later.refl hr with }, h⟩

/-- The frames change in the same way, and only their spill slots. -/
theorem Related.spillTo (hr : Related w) {n m m' k : Nat} (hm : m = max w.direct.frame.maxSpill k)
    (hm' : m' = max w.actual.frame.maxSpill k) : ∃ w',
      w'.direct = { w.direct with frame := { w.direct.frame with spills := n, maxSpill := m } } ∧
      w'.actual = { w.actual with frame := { w.actual.frame with spills := n, maxSpill := m' } } ∧ Later w w' ∧ Related w' := by
  refine ⟨{ w with direct := _, actual := _ }, rfl, rfl, { Later.refl hr with maxSpill := ⟨k, hm, hm'⟩ }, ?_⟩
  exact hr.quiet hr.values hr.refs hr.valuesMarked hr.refsMarked hr.fn hr.captures hr.locals rfl hr.loops hr.countingCalls

section Equations

variable (s : EmitState) (id : NodeId) (step : Pool → Except EmitCause Pool)

theorem acquireValue_run : acquireValue id s = match s.values.acquire? with
    | some (o, values) => .ok o { s with values }
    | none => .error (.fatal id (.exhausted s.values.name s.values.size)) s := by
  rw [acquireValue_apply]
  cases s.values.acquire? <;> rfl

theorem acquireRef_run : acquireRef id s = match s.refs.acquire? with
    | some (o, refs) => .ok o { s with refs }
    | none => .error (.fatal id (.exhausted s.refs.name s.refs.size)) s := by
  rw [acquireRef_apply]
  cases s.refs.acquire? <;> rfl

theorem withValues_step : withValues step s = match step s.values with
    | .ok values => .ok () { s with values }
    | .error c => .error (.fatal 0 c) s := by
  rw [withValues_apply]
  cases step s.values <;> rfl

theorem withRefs_step : withRefs step s = match step s.refs with
    | .ok refs => .ok () { s with refs }
    | .error c => .error (.fatal 0 c) s := by
  rw [withRefs_apply]
  cases step s.refs <;> rfl

theorem loopTarget_run (label : String) : loopTarget id label s = match s.frame.target? label with
    | some l => .ok l s
    | none => .error (.fatal id (.noLoop label)) s := by
  unfold loopTarget
  rw [get_bind_apply]
  cases s.frame.target? label <;> rfl

theorem inLoop_run (rec : Emitter) (l : LoopTargets) (body : NodeId) : inLoop rec l body s =
    match rec.stmt body { s with frame := { s.frame with loops := l :: s.frame.loops } } with
    | .ok _ s' => .ok () { s' with frame := { s'.frame with loops := s'.frame.loops.tail } }
    | .error e s' => .error e s' := by
  have hrun : inLoop rec l body s = (do
      rec.stmt body
      modify fun s => { s with frame := { s.frame with loops := s.frame.loops.tail } } : EmitM Unit)
      { s with frame := { s.frame with loops := l :: s.frame.loops } } := rfl
  rw [hrun]
  cases hbody : rec.stmt body { s with frame := { s.frame with loops := l :: s.frame.loops } } with
  | ok a s' => exact bind_run hbody
  | error e s' => exact bind_fail hbody

end Equations

namespace Pairs

/-! ## Results -/

variable {α β : Type} {m m' : EmitM α} {R : α → α → Prop} {Δ : α → α → Links} {f f' : α → EmitM β} {Q : β → β → Prop}
  {E : β → β → Links}

/-- Operands that correspond are of one kind. -/
theorem gives {m m' : EmitM Operand} {R : Operand → Operand → Prop} (h : Pairs Γ m m' R fun o o' => [(o, o')]) : Gives Γ m m' :=
  fun w hr hΓ => (h w hr hΓ).mono fun _ _ _ _ hq => ⟨(Linked.head hq.2).likewise, hq.2⟩

theorem give (h : Known Γ o o') : Gives Γ (Pure.pure o) (Pure.pure o') :=
  gives (R := fun _ _ => True) (.pure trivial fun _ hΓ => List.forall_mem_singleton.2 (h.links hΓ))

theorem done : Runs Γ (Pure.pure ()) (Pure.pure ()) := .pure trivial fun _ _ => .nil

/-- Both sides go on with the same result. -/
theorem same (hm : Pairs Γ m m' (fun a a' => a' = a ∧ R a a) fun _ _ => []) (hf : ∀ a, R a a → Pairs Γ (f a) (f' a) Q E) :
    Pairs Γ (m >>= f) (m' >>= f') Q E := by
  refine bind hm fun a a' h => ?_
  obtain ⟨rfl, hR⟩ := h
  exact hf a' hR

/-! ## Tables -/

theorem stringRef (x : String) : Gives Γ (stringRef x) (stringRef x) := gives (refer (answers_stringRef x))

theorem typeRef (t : TypeId) : Pairs Γ (typeRef t) (typeRef t) (fun _ _ => True) fun i i' => [(.type i, .type i')] :=
  refer (answers_typeRef t)

theorem nativeRef (fn : SymbolId) : Pairs Γ (nativeRef fn) (nativeRef fn) (fun _ _ => True) fun i i' => [(.native i, .native i')] :=
  refer (answers_nativeRef fn)

theorem funcRef (fn : SymbolId) : Pairs Γ (funcRef fn) (funcRef fn) (fun _ _ => True) fun i i' => [(.func i, .func i')] :=
  refer (answers_funcRef fn)

/-! ## Registers -/

theorem acquireValue (id : NodeId) :
    Pairs Γ (acquireValue id) (acquireValue id) (fun o o' => o' = o ∧ o.kind = .value) fun _ _ => [] := by
  intro w hr _
  rw [acquireValue_run, acquireValue_run, hr.values]
  cases hp : w.direct.values.acquire? with
  | none => exact .refl _
  | some p =>
    obtain ⟨hmarked, hkind, -⟩ := hr.valuesMarked.acquire hp
    obtain ⟨w', hd, hs, hl, hr'⟩ := hr.pools (hmarked.held ▸ hmarked) hr.refsMarked
    refine ⟨w', hd, ?_, hl, hr', ⟨rfl, hkind⟩, .nil⟩
    rw [hs, ← hr.refs]

theorem acquireRef (id : NodeId) :
    Pairs Γ (acquireRef id) (acquireRef id) (fun o o' => o' = o ∧ o.kind = .ref) fun _ _ => [] := by
  intro w hr _
  rw [acquireRef_run, acquireRef_run, hr.refs]
  cases hp : w.direct.refs.acquire? with
  | none => exact .refl _
  | some p =>
    obtain ⟨hmarked, hkind, -⟩ := hr.refsMarked.acquire hp
    obtain ⟨w', hd, hs, hl, hr'⟩ := hr.pools hr.valuesMarked (hmarked.held ▸ hmarked)
    refine ⟨w', hd, ?_, hl, hr', ⟨rfl, hkind⟩, .nil⟩
    rw [hs, ← hr.values]

/-- A step on a pool that keeps its kind and holds only what is in use. -/
structure Tidy (step : Pool → Except EmitCause Pool) : Prop where
  kind : ∀ p q, step p = .ok q → q.kind = p.kind
  sound : ∀ p q, p.Sound → step p = .ok q → q.Sound

theorem tidy_release (i : Nat) : Tidy (·.release i) := ⟨fun _ _ => Pool.kind_release, fun _ _ h => h.release⟩

theorem tidy_hold (i : Nat) : Tidy (·.hold i) := ⟨fun _ _ => Pool.kind_hold, fun _ _ h => h.hold⟩

theorem tidy_unhold (i : Nat) : Tidy (·.unhold i) := ⟨fun _ _ => Pool.kind_unhold, fun _ _ h => h.unhold⟩

theorem withValues {step : Pool → Except EmitCause Pool} (h : Tidy step) : Runs Γ (withValues step) (withValues step) := by
  intro w hr _
  rw [withValues_step, withValues_step, hr.values]
  cases hp : step w.direct.values with
  | error c => exact .refl _
  | ok values =>
    have hm := hr.valuesMarked
    obtain ⟨w', hd, hs, hl, hr'⟩ := hr.pools ⟨(h.kind _ _ hp).trans hm.kind, rfl, h.sound _ _ hm.sound hp⟩ hr.refsMarked
    refine ⟨w', hd, ?_, hl, hr', trivial, .nil⟩
    rw [hs, ← hr.refs]

theorem withRefs {step : Pool → Except EmitCause Pool} (h : Tidy step) : Runs Γ (withRefs step) (withRefs step) := by
  intro w hr _
  rw [withRefs_step, withRefs_step, hr.refs]
  cases hp : step w.direct.refs with
  | error c => exact .refl _
  | ok refs =>
    have hm := hr.refsMarked
    obtain ⟨w', hd, hs, hl, hr'⟩ := hr.pools hr.valuesMarked ⟨(h.kind _ _ hp).trans hm.kind, rfl, h.sound _ _ hm.sound hp⟩
    refine ⟨w', hd, ?_, hl, hr', trivial, .nil⟩
    rw [hs, ← hr.values]

theorem free (h : Likewise o o') : Runs Γ (free o) (free o') := by
  by_cases hv : o.kind = .value
  · rw [h.of_kind hv rfl, free_of_value hv]
    exact withValues (tidy_release _)
  by_cases hr : o.kind = .ref
  · rw [h.of_kind hr rfl, free_of_ref hr]
    exact withRefs (tidy_release _)
  · rw [free_of_other hv hr, free_of_other (h.kind ▸ hv) (h.kind ▸ hr)]
    exact done

/-- A register is the same on both sides. -/
theorem fresh (t : TypeId) (id : NodeId) :
    Pairs Γ (fresh t id) (fresh t id) (fun o o' => o' = o ∧ o.isTied = false) fun _ _ => [] := by
  refine look (.isValue t) fun v => ?_
  cases v
  · refine (acquireRef id).mono fun o o' h => ⟨⟨h.1, ?_⟩, fun _ _ => .nil⟩
    simp [Operand.isTied, h.2]
  · refine (acquireValue id).mono fun o o' h => ⟨⟨h.1, ?_⟩, fun _ _ => .nil⟩
    simp [Operand.isTied, h.2]

theorem toRegister (h : Likewise o o') (t : TypeId) (id : NodeId) (hΓ : Known Γ o o') :
    Gives Γ (toRegister o t id) (toRegister o' t id) := by
  by_cases hv : o.kind = .value
  · rw [toRegister_of_value t id hv, toRegister_of_value t id (h.kind.trans hv)]
    exact give hΓ
  by_cases hr : o.kind = .ref
  · rw [toRegister_of_ref t id hr, toRegister_of_ref t id (h.kind.trans hr)]
    exact give hΓ
  by_cases hn : o.kind = .none
  · rw [toRegister_of_none t id hn, toRegister_of_none t id (h.kind.trans hn)]
    exact fatal
  · rw [toRegister_of_other t id hv hr hn, toRegister_of_other t id (h.kind ▸ hv) (h.kind ▸ hr) (h.kind ▸ hn)]
    refine same (R := fun r _ => r.isTied = false) (fresh t id) fun r hr => ?_
    exact bind (emit rfl (.of_untied hr) hΓ (by simp)) fun _ _ _ => give (.of_untied hr)

theorem stable (h : Likewise o o') (t : TypeId) (id : NodeId) (hΓ : Known Γ o o') :
    Gives Γ (stable o t id) (stable o' t id) := by
  unfold Emit.stable
  rw [h.kind]
  exact ite (fun _ => toRegister h t id hΓ) fun _ => give hΓ

/-- The place that is moved to is the same on both sides, so both copy or neither. -/
theorem move {dst : Operand} (hdst : dst.isTied = false) (h : Likewise o o') (hΓ : Known Γ o o') :
    Runs Γ (move dst o) (move dst o') := by
  have hiff : dst ≠ o ↔ dst ≠ o' := by
    refine not_congr ⟨fun heq => ?_, fun heq => ?_⟩
    · rw [h.same (heq ▸ hdst)]
      exact heq
    · have htied : o.isTied = false := by
        rw [heq] at hdst
        unfold Operand.isTied at hdst ⊢
        rwa [h.kind] at hdst
      rw [heq, h.same htied]
  unfold Emit.move
  by_cases hne : dst ≠ o
  · rw [if_pos hne, if_pos (hiff.1 hne)]
    exact bind (emit rfl (.of_untied hdst) hΓ (by simp)) fun _ _ _ => free h
  · rw [if_neg hne, if_neg fun hne' => hne (hiff.2 hne')]
    exact free h

theorem pushOperand (h : Likewise o o') (hΓ : Known Γ o o') :
    Runs Γ (pushOperand o) (pushOperand o') := bind (emit rfl hΓ (by simp) (by simp)) fun _ _ _ => free h

theorem spill : Pairs Γ spill spill (fun o o' => o' = o ∧ o.kind = .stack) fun _ _ => [] := by
  intro w hr _
  obtain ⟨w', hd, hs, hl, hr'⟩ := hr.spillTo (n := w.direct.frame.spills + 1) (k := w.direct.frame.spills + 1) rfl rfl
  refine ⟨w', hd, ?_, hl, hr', ⟨?_, rfl⟩, .nil⟩
  · rw [hs, ← hr.spills]
  · simp only [hr.spills, hr.locals]

theorem unspill (n : Nat) : Runs Γ (unspill n) (unspill n) := by
  refine .modify fun w hr _ => ?_
  obtain ⟨w', hd, hs, hl, hr'⟩ := hr.spillTo (n := w.direct.frame.spills - n) (k := 0) (Nat.max_zero _).symm (Nat.max_zero _).symm
  refine ⟨w', hd, ?_, hl, hr'⟩
  rw [hs, ← hr.spills]
  rfl

theorem storage (v : SymbolId) : Pairs Γ (storage v) (storage v) (fun o o' => o' = o ∧ o.isTied = false) fun _ _ => [] := by
  intro w hr hΓ
  rw [storage_run, storage_run, hr.captures]
  refine consults (.storageAt _ v) (fun _ _ _ h => ⟨rfl, ?_⟩) w hr hΓ
  rcases storageAt_kind h with h | h <;> simp [Operand.isTied, h]

/-! ## Calls -/

theorem saveRegs (regs : List Operand) (h : ∀ r ∈ regs, r.isTied = false) : Pairs Γ (saveRegs regs) (saveRegs regs)
    (fun saved saved' => saved' = saved ∧ ∀ p ∈ saved, p.1.isTied = false ∧ p.2.isTied = false) fun _ _ => [] := by
  induction regs with
  | nil => exact .pure ⟨rfl, fun _ h => absurd h List.not_mem_nil⟩ fun _ _ => .nil
  | cons r regs ih =>
    have hr : r.isTied = false := h r (List.mem_cons_self ..)
    rw [saveRegs_cons]
    refine bind (R := fun p p' => p' = p ∧ p.1.isTied = false ∧ p.2.isTied = false) (Δ := fun _ _ => []) ?_ fun p p' hp => ?_
    · refine same (R := fun o _ => o.kind = .stack) spill fun slot hslot => ?_
      refine bind (emit rfl (.of_kind hslot nofun) (.of_untied hr) (by simp)) fun _ _ _ => .pure ⟨rfl, hr, ?_⟩ fun _ _ => .nil
      simp [Operand.isTied, hslot]
    · obtain ⟨rfl, hp⟩ := hp
      refine bind (ih fun x hx => h x (List.mem_cons_of_mem _ hx)) fun saved saved' hs => ?_
      obtain ⟨rfl, hs⟩ := hs
      exact .pure ⟨rfl, List.forall_mem_cons.2 ⟨hp, hs⟩⟩ fun _ _ => .nil

theorem spillLive : Pairs Γ spillLive spillLive
    (fun saved saved' => saved' = saved ∧ ∀ p ∈ saved, p.1.isTied = false ∧ p.2.isTied = false) fun _ _ => [] := by
  intro w hr hΓ
  rw [spillLive_run, spillLive_run, hr.values, hr.refs]
  refine saveRegs _ (fun r hmem => ?_) w hr hΓ
  have untied {p : Pool} (hp : p.kind = .value ∨ p.kind = .ref) (hmem : r ∈ p.live) : r.isTied = false := by
    obtain ⟨i, -, rfl⟩ := List.mem_map.1 hmem
    rcases hp with hp | hp <;> simp [Operand.isTied, Pool.register, hp]
  rcases List.mem_append.1 hmem with hmem | hmem
  · exact untied (.inl hr.valuesMarked.kind) hmem
  · exact untied (.inr hr.refsMarked.kind) hmem

theorem restoreLive {saved : List (Operand × Operand)} (h : ∀ p ∈ saved, p.1.isTied = false ∧ p.2.isTied = false) :
    Runs Γ (restoreLive saved) (restoreLive saved) := by
  refine bind (forM_same saved fun p hp => ?_) fun _ _ _ => unspill _
  exact emit rfl (.of_untied (h p hp).1) (.of_untied (h p hp).2) (by simp)

theorem invoke (op : Opcode) (fixed : Nat) (hΓ : Known Γ o o') :
    Runs Γ (invoke op o fixed) (invoke op o' fixed) := by
  refine same (R := fun saved _ => ∀ p ∈ saved, p.1.isTied = false ∧ p.2.isTied = false) spillLive fun saved hsaved => ?_
  exact bind (emit rfl hΓ (by simp) (by simp)) fun _ _ _ => restoreLive hsaved

theorem saveSpread : Pairs Γ saveSpread saveSpread
    (fun saved saved' => saved' = saved ∧ ∀ slot, saved = some slot → slot.kind = .stack) fun _ _ => [] := by
  refine get_bind fun w hr => ?_
  rw [hr.countingCalls]
  refine ite (fun _ => ?_) fun _ => .pure ⟨rfl, nofun⟩ fun _ _ => .nil
  refine same (R := fun o _ => o.kind = .stack) spill fun slot hslot => ?_
  refine bind (emit rfl (.of_kind hslot nofun) (by simp) (by simp)) fun _ _ _ => .pure ⟨rfl, fun slot' h => ?_⟩ fun _ _ => .nil
  cases h
  exact hslot

theorem countCalls (f : Nat → Nat) : Runs Γ (MonadState.modifyGet fun s => ((), { s with countingCalls := f s.countingCalls }))
    (MonadState.modifyGet fun s => ((), { s with countingCalls := f s.countingCalls })) := by
  refine .modify fun w hr _ => ⟨{ w with direct := _, actual := _ }, rfl, rfl, { Later.refl hr with }, ?_⟩
  exact hr.quiet hr.values hr.refs hr.valuesMarked hr.refsMarked hr.fn hr.captures hr.locals hr.spills hr.loops
    (congrArg f hr.countingCalls)

theorem beginSpread (spread : Bool) : Pairs Γ (beginSpread spread) (beginSpread spread)
    (fun saved saved' => saved' = saved ∧ ∀ slot, saved = some slot → slot.kind = .stack) fun _ _ => [] := by
  refine ite (fun _ => ?_) fun _ => .pure ⟨rfl, nofun⟩ fun _ _ => .nil
  refine same (R := fun saved _ => ∀ slot, saved = some slot → slot.kind = .stack) saveSpread fun saved hsaved => ?_
  exact bind (emit rfl (by simp) (by simp) (by simp)) fun _ _ _ => bind (countCalls (· + 1)) fun _ _ _ => .pure ⟨rfl, hsaved⟩ fun _ _ => .nil

theorem endSpread (spread : Bool) : Runs Γ (endSpread spread) (endSpread spread) :=
  countCalls fun n => if spread then n - 1 else n

theorem restoreSpread {saved : Option Operand} (h : ∀ slot, saved = some slot → slot.kind = .stack) :
    Runs Γ (restoreSpread saved) (restoreSpread saved) := by
  cases saved with
  | none => exact done
  | some slot => exact bind (emit rfl (.of_kind rfl nofun) (.of_kind (h slot rfl) nofun) (by simp)) fun _ _ _ => unspill 1

/-! ## Loops -/

theorem inLoop {drec rec : Emitter} {l l' : LoopTargets} {body : NodeId} (hm : Runs [] (drec.stmt body) (rec.stmt body))
    (hlabel : l'.label = l.label) (hexit : (Operand.label l.exit, Operand.label l'.exit) ∈ Γ)
    (hagain : (Operand.label l.again, Operand.label l'.again) ∈ Γ) :
    Runs Γ (inLoop drec l body) (inLoop rec l' body) := by
  intro w hr hΓ
  have hl : w.LinksLoop l l' := ⟨hlabel, World.Links.label_iff.1 (hΓ _ hexit), World.Links.label_iff.1 (hΓ _ hagain)⟩
  have hopen : Related { w with
      direct := { w.direct with frame := { w.direct.frame with loops := l :: w.direct.frame.loops } }
      actual := { w.actual with frame := { w.actual.frame with loops := l' :: w.actual.frame.loops } } } :=
    hr.quiet hr.values hr.refs hr.valuesMarked hr.refsMarked hr.fn hr.captures hr.locals hr.spills (.cons hl hr.loops) hr.countingCalls
  have hbody := hm _ hopen .nil
  rw [inLoop_run, inLoop_run]
  generalize drec.stmt body { w.direct with frame := { w.direct.frame with loops := l :: w.direct.frame.loops } } = r at hbody
  generalize rec.stmt body { w.actual with frame := { w.actual.frame with loops := l' :: w.actual.frame.loops } } = r' at hbody
  cases r <;> cases r'
  · obtain ⟨w₁, rfl, rfl, hl₁, hr₁, -⟩ := hbody
    have hloops : w₁.direct.frame.loops.tail = w.direct.frame.loops := by rw [hl₁.loops, List.tail_cons]
    have hloops' : w₁.actual.frame.loops.tail = w.actual.frame.loops := by rw [hl₁.loops', List.tail_cons]
    have hclosed : List.Forall₂ w₁.LinksLoop w₁.direct.frame.loops.tail w₁.actual.frame.loops.tail := by
      rw [hloops, hloops']
      exact hr.loops.imp fun _ _ h => h.mono ⟨hl₁.labels, hl₁.grows, hl₁.widens.grows'⟩
    refine ⟨{ w₁ with direct := _, actual := _ }, rfl, rfl, { hl₁ with loops := hloops, loops' := hloops' }, ?_, trivial, .nil⟩
    exact hr₁.quiet hr₁.values hr₁.refs hr₁.valuesMarked hr₁.refsMarked hr₁.fn hr₁.captures hr₁.locals hr₁.spills hclosed
      hr₁.countingCalls
  all_goals exact hbody

theorem find?_forall₂ {γ δ : Type} {S : γ → δ → Prop} {p : γ → Bool} {p' : δ → Bool} {l : List γ} {l' : List δ}
    (h : List.Forall₂ S l l') (hp : ∀ a a', S a a' → p' a' = p a) :
    (l.find? p = none ∧ l'.find? p' = none) ∨ ∃ a a', l.find? p = some a ∧ l'.find? p' = some a' ∧ S a a' := by
  induction h with
  | nil => exact .inl ⟨rfl, rfl⟩
  | @cons a a' l l' ha _ ih =>
    rw [List.find?_cons, List.find?_cons, hp a a' ha]
    cases p a with
    | true => exact .inr ⟨a, a', rfl, rfl, ha⟩
    | false => exact ih

theorem loopTarget (id : NodeId) (label : String) : Pairs Γ (loopTarget id label) (loopTarget id label) (fun _ _ => True)
    fun l l' => [(.label l.exit, .label l'.exit), (.label l.again, .label l'.again)] := by
  intro w hr hΓ
  rw [loopTarget_run, loopTarget_run]
  unfold Frame.target?
  have hsame (l l' : LoopTargets) (h : w.LinksLoop l l') :
      (decide (label = "") || decide (l'.label = label)) = (decide (label = "") || decide (l.label = label)) := by rw [h.label]
  rcases find?_forall₂ hr.loops hsame with ⟨h, h'⟩ | ⟨l, l', h, h', hl⟩
  · rw [h, h']
    exact .refl _
  · rw [h, h']
    refine ⟨w, rfl, rfl, .refl hr, hr, trivial, ?_⟩
    exact List.forall_mem_cons.2 ⟨.label hl.exit, List.forall_mem_singleton.2 (.label hl.again)⟩

end Pairs

end Emit

end TreeCompiler
