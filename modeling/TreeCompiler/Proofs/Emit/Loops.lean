import TreeCompiler.Proofs.Analysis.Loops
import TreeCompiler.Proofs.Emit.Compound
import TreeCompiler.Proofs.Emit.Lockstep
import TreeCompiler.Proofs.Emit.Ranges

/-!
# Loops while they are emitted

Emission keeps the targets of the loops that are open, and a `break` or `continue` becomes a jump to one of them. Those targets
are the loops around the statement in the tree, one for one.

* `Fine s` : a state inside of a function; `Follows s s'` : more code, with the same loops open;
* `Straight m` : the computation only appends code, and closes the loops that it opens. `Fine.bind_ok` takes a run apart;
* `Inside` : a statement that was emitted as a part of another one; `Targets` : where the targets of a loop are in the end;
* `inside_of_encloses` : the loops around a statement were opened around it; `jump_inside` : the jump of a statement.
-/

namespace TreeCompiler

namespace Emit

variable {s s₁ s' : EmitState} {α β : Type}

/-! ## Runs inside one function -/

/-- A label that is no entry of a function. -/
def Made (s : EmitState) (l : Label) : Prop := l < s.asm.labels.size ∧ l ∉ s.asm.entries

theorem Made.grown {l : Label} (h : Made s l) (hg : Grown s s') : Made s' l :=
  ⟨Nat.lt_of_lt_of_le h.1 hg.asm.labels, hg.asm.not_entry h.1 h.2⟩

/-- A state inside of a function. -/
structure Fine (s : EmitState) : Prop where
  tidy : s.Tidy
  values : s.values.kind = .value
  refs : s.refs.kind = .ref
  loops : ∀ l ∈ s.frame.loops, Made s l.exit ∧ Made s l.again
  ranges : ∀ f ∈ s.recorder.funcs.toList, f.start < (s.asm.pos : Int)

/-- Code was appended inside of the same loops. -/
structure Follows (s s' : EmitState) : Prop where
  grown : Grown s s'
  values : s'.values.kind = s.values.kind
  refs : s'.refs.kind = s.refs.kind
  captures : s'.frame.captures = s.frame.captures
  loops : s'.frame.loops = s.frame.loops
  asm : s.asm.Continues s'.asm
  ranges : s'.recorder.funcs = s.recorder.funcs

namespace Follows

theorem refl (s : EmitState) : Follows s s := ⟨.refl s, rfl, rfl, rfl, rfl, .refl _, rfl⟩

theorem trans (h : Follows s s₁) (h' : Follows s₁ s') : Follows s s' where
  grown := h.grown.trans h'.grown
  values := h'.values.trans h.values
  refs := h'.refs.trans h.refs
  captures := h'.captures.trans h.captures
  loops := h'.loops.trans h.loops
  asm := h.asm.trans h'.asm
  ranges := h'.ranges.trans h.ranges

theorem fine (h : Follows s s') (hs : Fine s) : Fine s' where
  tidy := h.grown.tidy hs.tidy
  values := h.values.trans hs.values
  refs := h.refs.trans hs.refs
  loops := fun l hl => (hs.loops l (h.loops ▸ hl)).imp (·.grown h.grown) (·.grown h.grown)
  ranges := fun f hf => by
    have hlt := hs.ranges f (h.ranges ▸ hf)
    have hle := h.asm.pos_le
    omega

end Follows

/-- A site that begins with the state. -/
theorem Fine.at_site (hs : Fine s) (h : Grown s s') : ({ later := s', base := 0, floor := s.asm.pos } : Site).At s where
  unit := h.unit.symm
  tidy := hs.tidy
  base := Nat.zero_le _
  floor := Nat.le_refl _
  values := hs.values
  refs := hs.refs
  loops := fun l hl => by
    obtain ⟨hexit, hagain⟩ := hs.loops l hl
    exact ⟨⟨Nat.zero_le _, (hexit.grown h).1, (hexit.grown h).2⟩, ⟨Nat.zero_le _, (hagain.grown h).1, (hagain.grown h).2⟩⟩
  ranges := hs.ranges

/-- In a fine state the computation appends code inside of the same loops. -/
class Straight (m : EmitM α) : Prop where
  follows : ∀ s a s', Fine s → m s = .ok a s' → Follows s s'

theorem Fine.follows {m : EmitM α} [h : Straight m] (hs : Fine s) {a : α} (hm : m s = .ok a s') : Follows s s' :=
  h.follows s a s' hs hm

/-- Inversion of a sequence that begins with such a computation. -/
theorem Fine.bind_ok {x : EmitM α} {f : α → EmitM β} [Straight x] (hs : Fine s) {c : β} (h : (x >>= f) s = .ok c s') :
    ∃ a s₁, x s = .ok a s₁ ∧ f a s₁ = .ok c s' ∧ Follows s s₁ ∧ Fine s₁ := by
  obtain ⟨a, s₁, hx, hf⟩ := Emit.bind_ok h
  exact ⟨a, s₁, hx, hf, hs.follows hx, (hs.follows hx).fine hs⟩

namespace Straight

/-- What refers to its site and extends the code is straight. -/
theorem of {m : EmitM α} [hg : Grows m] (hrefers : ∀ K : Site, ∃ P, Refers K m P)
    (hemits : ∀ u captures base, ∃ Q, Emits (Guards.anywhere u captures base) m Q) : Straight m := by
  refine ⟨fun s a s' hs h => ?_⟩
  have hgrown := hg.carries s a s' h
  obtain ⟨P, hP⟩ := hrefers { later := s', base := 0, floor := s.asm.pos }
  obtain ⟨Q, hQ⟩ := hemits s.unit s.frame.captures s.asm.labels.size
  obtain ⟨hleads, -⟩ := hP s a s' (hs.at_site hgrown) h (.refl s')
  obtain ⟨hext, -⟩ := hQ s a s' ⟨rfl, rfl, Nat.le_refl _, hs.values, hs.refs⟩ h
  obtain ⟨is, hcode, -⟩ := hleads.code
  exact ⟨hgrown, hleads.values, hleads.refs, hext.captures, hleads.loops, ⟨⟨is, hcode⟩, hext.labelsStay⟩, hleads.ranges⟩

theorem of_reads {m : EmitM α} (h : Reads m) : Straight m := ⟨fun s a s' _ hm => by rw [h s a s' hm]; exact .refl s⟩

theorem bind {x : EmitM α} {f : α → EmitM β} [hx : Straight x] (hf : ∀ a, Straight (f a)) : Straight (x >>= f) := by
  refine ⟨fun s c s' hs h => ?_⟩
  obtain ⟨a, s₁, hxs, hfs⟩ := bind_ok h
  have h₁ := hs.follows hxs
  exact h₁.trans ((hf a).follows s₁ c s' (h₁.fine hs) hfs)

instance {x : EmitM α} {f : α → EmitM β} [Straight x] [hf : ∀ a, Straight (f a)] : Straight (x >>= f) := bind hf

instance (a : α) : Straight (pure a : EmitM α) := of_reads (reads_pure a)

instance (e : EmitFailure) : Straight (throw e : EmitM α) := of_reads (reads_throw e)

instance {c : Prop} [Decidable c] {x y : EmitM α} [hx : Straight x] [hy : Straight y] : Straight (if c then x else y) := by
  split
  · exact hx
  · exact hy

instance (l : List α) (f : α → EmitM PUnit) [h : ∀ a, Straight (f a)] : Straight (l.forM f) := by
  induction l with
  | nil => exact inferInstanceAs (Straight (pure _))
  | cons a l ih => exact bind fun _ => ih

instance : Straight unit := of_reads reads_unit

instance (id : NodeId) : Straight (node id) := of_reads (Consults.node id).reads

instance (id : SymbolId) : Straight (storage id) := of (fun _ => ⟨_, .storage id⟩) fun _ _ _ => ⟨_, .storage id⟩

instance (t : TypeId) : Straight (isValue t) := of_reads (Consults.isValue t).reads

instance (span : Span) : Straight (note span) := of (fun _ => ⟨_, .note span⟩) fun _ _ _ => ⟨_, .note span⟩

instance : Straight newLabel := of (fun _ => ⟨_, .newLabel⟩) fun _ _ _ => ⟨_, .newLabel⟩

instance (o : Operand) : Straight (free o) := of (fun _ => ⟨_, .free o⟩) fun _ _ _ => ⟨_, .free o⟩

instance (id : NodeId) : Straight (acquireValue id) := of (fun _ => ⟨_, .acquireValue id⟩) fun _ _ _ => ⟨_, .acquireValue id⟩

instance (id : NodeId) : Straight (acquireRef id) := of (fun _ => ⟨_, .acquireRef id⟩) fun _ _ _ => ⟨_, .acquireRef id⟩

instance (i : Nat) : Straight (withValues (·.release i)) :=
  of (fun _ => ⟨_, .withValues fun _ _ => Pool.kind_release⟩) fun _ _ _ => ⟨_, .withValues fun _ _ => Pool.kind_release⟩

instance (i : Nat) : Straight (withRefs (·.hold i)) :=
  of (fun _ => ⟨_, .withRefs fun _ _ => Pool.kind_hold⟩) fun _ _ _ => ⟨_, .withRefs fun _ _ => Pool.kind_hold⟩

instance (i : Nat) : Straight (withRefs (·.unhold i)) :=
  of (fun _ => ⟨_, .withRefs fun _ _ => Pool.kind_unhold⟩) fun _ _ _ => ⟨_, .withRefs fun _ _ => Pool.kind_unhold⟩

instance (i : Instr) : Straight (emit i) := by
  refine ⟨fun s a s' _ h => ?_⟩
  have hgrown := (inferInstance : Grows (emit i)).carries s a s' h
  cases h
  exact ⟨hgrown, rfl, rfl, rfl, rfl, ⟨⟨[i], by simp [Assembler.emit]⟩, fun _ _ h => h⟩, rfl⟩

instance (l : Label) : Straight (bindLabel l) := by
  refine ⟨fun s a s' _ h => ?_⟩
  have hgrown := (inferInstance : Grows (bindLabel l)).carries s a s' h
  obtain ⟨-, hfree, rfl⟩ := bindLabel_ok h
  exact ⟨hgrown, rfl, rfl, rfl, rfl, ⟨⟨[], (List.append_nil _).symm⟩, labelsStay_bind hfree rfl⟩, rfl⟩

instance (l : Label) : Straight (jumpTo l) := inferInstanceAs (Straight (emit _))

instance (dst src : Operand) : Straight (move dst src) := by unfold move; infer_instance

instance (op : Opcode) (it : Operand) (v : SymbolId) : Straight (fetch op it v) := by unfold fetch; infer_instance

instance (o : Operand) (t : TypeId) (id : NodeId) : Straight (toRegister o t id) := by
  unfold toRegister
  split
  · infer_instance
  · infer_instance
  · exact inferInstanceAs (Straight (throw _))
  · infer_instance

instance (o : Operand) (t : TypeId) (id : NodeId) : Straight (stable o t id) := by unfold stable; infer_instance

/-- A variable may be set before the rest. -/
theorem fetch? {op : Opcode} {it : Operand} {v : Option SymbolId} {m : EmitM Unit} (hm : Straight m) : Straight (match v with
      | some x => do
        fetch op it x
        m
      | _ => m) := by
  split
  · exact bind fun _ => hm
  · exact hm

section

variable (fuel : Nat)

instance (id : NodeId) : Straight ((emitter fuel).stmt id) :=
  of (fun _ => ⟨_, (emitter_refers fuel).stmt id⟩) fun u captures base =>
    ⟨_, emitter_good (K := Guards.anywhere u captures base) fuel (.stmt id) fun _ _ _ _ _ _ _ _ _ => trivial⟩

instance (id : NodeId) : Straight (exprAny (emitter fuel) id) :=
  of (fun _ => ⟨_, (emitter_refers fuel).expr id false⟩) fun u captures base =>
    ⟨_, emitter_good (K := Guards.anywhere u captures base) fuel (.expr id) (fun _ _ _ _ _ _ _ _ _ => trivial) false⟩

instance (id : NodeId) (l : Label) : Straight (condition (emitter fuel) id l) := by unfold condition; infer_instance

instance (subject : Operand) (stop : Label) (c : NodeId) (l : Label) : Straight (arm (emitter fuel) subject stop c l) := by
  unfold arm
  exact bind fun _ => bind fun _ => bind fun _ => bind fun _ => fetch? inferInstance

end

theorem dispatch (tag : Operand) (arms : List NodeId) : ∀ fallback, Straight (dispatch tag arms fallback) := by
  induction arms with
  | nil => exact fun _ => inferInstanceAs (Straight (pure _))
  | cons c rest ih =>
    intro fallback
    unfold Emit.dispatch
    refine bind fun l => bind fun u => ?_
    split
    · infer_instance
    · exact inferInstanceAs (Straight (throw _))

instance (tag : Operand) (arms : List NodeId) (fallback : Label) : Straight (Emit.dispatch tag arms fallback) :=
  dispatch tag arms fallback

end Straight

/-! ## Statements inside of statements -/

/-- A statement was emitted between `t` and `t'`, inside of the loops `ts` and of the code from `s` to `s'`. -/
structure Inside (fuel : Nat) (id : NodeId) (ts : List LoopTargets) (t t' s s' : EmitState) : Prop where
  run : (emitter fuel).stmt id t = .ok () t'
  fine : Fine t
  unit : t.unit = s.unit
  captures : t.frame.captures = s.frame.captures
  before : s.asm.Continues t.asm
  after : t'.asm.Continues s'.asm
  loops : t.frame.loops = ts ++ s.frame.loops

theorem Inside.of_follows {fuel : Nat} {id : NodeId} {t t' : EmitState} (hs : Fine s) (h : Follows s t)
    (hrun : (emitter fuel).stmt id t = .ok () t') (h' : t'.asm.Continues s'.asm) : Inside fuel id [] t t' s s' :=
  ⟨hrun, h.fine hs, h.grown.unit, h.captures, h.asm, h', h.loops⟩

theorem Inside.around {fuel : Nat} {id : NodeId} {ts : List LoopTargets} {t t' u u' : EmitState}
    (h : Inside fuel id ts t t' u u') (hu : Follows s u) (hu' : u'.asm.Continues s'.asm) : Inside fuel id ts t t' s s' :=
  ⟨h.run, h.fine, h.unit.trans hu.grown.unit, h.captures.trans hu.captures, hu.asm.trans h.before, h.after.trans hu',
    h.loops.trans (by rw [hu.loops])⟩

theorem newLabel_made {l : Label} (hs : Fine s) (h : newLabel s = .ok l s') : Made s' l := by
  cases h
  refine ⟨by simp, fun hmem => ?_⟩
  exact Nat.lt_irrefl _ (hs.tidy.asm.entries _ hmem)

theorem bindLabel_address {l : Label} {a : Unit} (h : bindLabel l s = .ok a s') :
    s'.asm.address? l = some s.asm.pos ∧ s'.asm.pos = s.asm.pos := by
  obtain ⟨hlt, -, rfl⟩ := bindLabel_ok h
  exact ⟨address?_bind hlt rfl, rfl⟩

/-- The loops that are open are no part of the code. -/
theorem grown_loops (s : EmitState) (ls : List LoopTargets) : Grown s { s with frame := { s.frame with loops := ls } } :=
  .of_same rfl rfl rfl rfl rfl

/-- The body of a loop is emitted inside of it. -/
theorem inLoop_inside {fuel : Nat} {l : LoopTargets} {body : NodeId} {a : Unit} (hs : Fine s)
    (hl : Made s l.exit ∧ Made s l.again) (h : inLoop (emitter fuel) l body s = .ok a s') :
    Follows s s' ∧ ∃ t t', Inside fuel body [l] t t' s s' := by
  obtain ⟨_, t, hopen, h₁⟩ := bind_ok h
  obtain ⟨_, t', hrun, hclose⟩ := bind_ok h₁
  cases hopen
  cases hclose
  have hopened := grown_loops s (l :: s.frame.loops)
  have ht : Fine { s with frame := { s.frame with loops := l :: s.frame.loops } } :=
    { hs with
      tidy := hopened.tidy hs.tidy
      loops := List.forall_mem_cons.2 ⟨hl, hs.loops⟩ }
  have hfollows := ht.follows hrun
  refine ⟨?_, _, t', ⟨hrun, ht, rfl, rfl, .refl _, .refl _, rfl⟩⟩
  refine ⟨?_, hfollows.values, hfollows.refs, hfollows.captures, congrArg List.tail hfollows.loops, hfollows.asm, hfollows.ranges⟩
  exact (hopened.trans hfollows.grown).trans (grown_loops t' _)

/-- What the targets of a loop are once its code has been appended: one label is at the end of the code, the other is where the
next round starts. -/
structure Targets (fuel : Nat) (n : Node) (l : LoopTargets) (s s' : EmitState) : Prop where
  label : l.label = n.label
  exit : s'.asm.address? l.exit = some s'.asm.pos
  again : match n.kind with
    | .whileLoop => s'.asm.address? l.again = some s.asm.pos
    | .forLoop => ∃ t t', Inside fuel n.c [] t t' s s' ∧ s'.asm.address? l.again = some t.asm.pos
    | _ => ∃ ip it, s'.asm.address? l.again = some ip ∧ s.asm.pos ≤ ip ∧
        s'.asm.code[ip]? = some { op := .iterNext, a := it, b := .label l.exit }

theorem Targets.around {fuel : Nat} {n : Node} {l : LoopTargets} (h : Targets fuel n l s₁ s') (hs : Follows s s₁)
    (hpos : n.kind = .whileLoop → s₁.asm.pos = s.asm.pos) : Targets fuel n l s s' := by
  refine ⟨h.label, h.exit, ?_⟩
  have hagain := h.again
  split at hagain
  · rename_i hk
    rw [← hpos hk]
    exact hagain
  · obtain ⟨t, t', hinside, haddress⟩ := hagain
    exact ⟨t, t', hinside.around hs (.refl _), haddress⟩
  · obtain ⟨ip, it, haddress, hle, hcode⟩ := hagain
    exact ⟨ip, it, haddress, Nat.le_trans hs.asm.pos_le hle, hcode⟩

theorem whileLoop_inside {fuel : Nat} {n : Node} {a : Unit} (hs : Fine s) (hk : n.kind = .whileLoop)
    (h : whileLoop (emitter fuel) n s = .ok a s') :
    ∃ l t t', Inside fuel n.b [l] t t' s s' ∧ Targets fuel n l s s' := by
  obtain ⟨top, s₁, htop, h₁, f₁, hs₁⟩ := hs.bind_ok h
  obtain ⟨exit, s₂, hexit, h₂, f₂, hs₂⟩ := hs₁.bind_ok h₁
  obtain ⟨_, s₃, hstart, h₃, f₃, hs₃⟩ := hs₂.bind_ok h₂
  obtain ⟨_, s₄, -, h₄, f₄, hs₄⟩ := hs₃.bind_ok h₃
  obtain ⟨_, s₅, hbody, h₅⟩ := bind_ok h₄
  have hmade := (newLabel_made hs₁ hexit).grown (f₃.trans f₄).grown
  obtain ⟨f₅, t, t', hinside⟩ := inLoop_inside hs₄
    ⟨hmade, (newLabel_made hs htop).grown (f₂.trans (f₃.trans f₄)).grown⟩ hbody
  obtain ⟨_, s₆, -, hend, f₆, hs₆⟩ := (f₅.fine hs₄).bind_ok h₅
  have f₇ := f₆.trans (hs₆.follows hend)
  refine ⟨_, t, t', hinside.around (f₁.trans (f₂.trans (f₃.trans f₄))) f₇.asm, rfl, ?_, ?_⟩
  · obtain ⟨haddress, hpos⟩ := bindLabel_address hend
    rw [hpos]
    exact haddress
  · rw [hk]
    have hpos : s₂.asm.pos = s.asm.pos := by
      cases htop
      cases hexit
      rfl
    rw [← hpos]
    exact (f₄.trans (f₅.trans f₇)).asm.labels _ _ (bindLabel_address hstart).1

/-- What is left of a `for` loop once its condition has been tested. -/
def forRound (rec : Emitter) (n : Node) (top : Label) (l : LoopTargets) : EmitM Unit := do
  inLoop rec l n.d
  bindLabel l.again
  rec.stmt n.c
  jumpTo top
  bindLabel l.exit

theorem forRound_inside {fuel : Nat} {n : Node} {top : Label} {l : LoopTargets} {a : Unit} (hs : Fine s)
    (hk : n.kind = .forLoop) (hl : Made s l.exit ∧ Made s l.again) (hlabel : l.label = n.label)
    (h : forRound (emitter fuel) n top l s = .ok a s') :
    Follows s s' ∧ Targets fuel n l s s' ∧ (∃ t t', Inside fuel n.c [] t t' s s') ∧
      ∃ t t', Inside fuel n.d [l] t t' s s' := by
  obtain ⟨_, s₁, hbody, h₁⟩ := bind_ok h
  obtain ⟨f₁, t, t', hinside⟩ := inLoop_inside hs hl hbody
  have hs₁ := f₁.fine hs
  obtain ⟨_, s₂, hplace, h₂, f₂, hs₂⟩ := hs₁.bind_ok h₁
  obtain ⟨_, s₃, hstep, h₃, f₃, hs₃⟩ := hs₂.bind_ok h₂
  obtain ⟨_, s₄, -, hend, f₄, hs₄⟩ := hs₃.bind_ok h₃
  have f₅ := f₄.trans (hs₄.follows hend)
  have f := f₂.trans (f₃.trans f₅)
  have hnext := Inside.of_follows hs (f₁.trans f₂) hstep f₅.asm
  refine ⟨f₁.trans f, ⟨hlabel, ?_, ?_⟩, ⟨s₂, s₃, hnext⟩, t, t', hinside.around (.refl s) f.asm⟩
  · obtain ⟨haddress, hpos⟩ := bindLabel_address hend
    rw [hpos]
    exact haddress
  · rw [hk]
    obtain ⟨haddress, hpos⟩ := bindLabel_address hplace
    refine ⟨s₂, s₃, hnext, ?_⟩
    rw [hpos]
    exact (f₃.trans f₅).asm.labels _ _ haddress

theorem forLoop_inside {fuel : Nat} {n : Node} {a : Unit} (hs : Fine s) (hk : n.kind = .forLoop)
    (h : forLoop (emitter fuel) n s = .ok a s') :
    (∃ t t', Inside fuel n.a [] t t' s s') ∧ (∃ t t', Inside fuel n.c [] t t' s s') ∧
      ∃ l t t', Inside fuel n.d [l] t t' s s' ∧ Targets fuel n l s s' := by
  obtain ⟨_, s₁, hinit, h₁, f₁, hs₁⟩ := hs.bind_ok h
  obtain ⟨top, s₂, -, h₂, f₂, hs₂⟩ := hs₁.bind_ok h₁
  obtain ⟨again, s₃, hagain, h₃, f₃, hs₃⟩ := hs₂.bind_ok h₂
  obtain ⟨exit, s₄, hexit, h₄, f₄, hs₄⟩ := hs₃.bind_ok h₃
  obtain ⟨_, s₅, -, h₅, f₅, hs₅⟩ := hs₄.bind_ok h₄
  obtain ⟨s₆, f₆, h₆⟩ : ∃ s₆, Follows s₅ s₆ ∧
      forRound (emitter fuel) n top { label := n.label, exit, again } s₆ = .ok a s' := by
    change (if n.b ≠ 0 then condition (emitter fuel) n.b exit >>= fun _ => forRound (emitter fuel) n top _
      else forRound (emitter fuel) n top _) s₅ = _ at h₅
    by_cases hb : n.b ≠ 0
    · rw [if_pos hb] at h₅
      obtain ⟨_, s₆, -, h₆, f₆, -⟩ := hs₅.bind_ok h₅
      exact ⟨s₆, f₆, h₆⟩
    · rw [if_neg hb] at h₅
      exact ⟨s₅, .refl _, h₅⟩
  have f := f₂.trans (f₃.trans (f₄.trans (f₅.trans f₆)))
  have hexit' := (newLabel_made hs₃ hexit).grown (f₅.trans f₆).grown
  have hagain' := (newLabel_made hs₂ hagain).grown (f₄.trans (f₅.trans f₆)).grown
  obtain ⟨f₇, htargets, ⟨u, u', hc⟩, t, t', hd⟩ := forRound_inside (f₆.fine hs₅) hk ⟨hexit', hagain'⟩ rfl h₆
  have hc' := hc.around (f₁.trans f) (.refl s'.asm)
  have hd' := hd.around (f₁.trans f) (.refl s'.asm)
  refine ⟨⟨s, s₁, .of_follows hs (.refl s) hinit (f.trans f₇).asm⟩, ⟨u, u', hc'⟩, _, t, t', hd', ?_⟩
  exact htargets.around (f₁.trans f) fun hw => by rw [hk] at hw; cases hw

/-- What is left of a `foreach` loop once its variables are set. -/
theorem eachRound_inside {fuel : Nat} {n : Node} {top : Label} {l : LoopTargets} {it : Operand} {a : Unit} (hs : Fine s)
    (hl : Made s l.exit ∧ Made s l.again) (h : (do
      inLoop (emitter fuel) l n.b
      jumpTo top
      bindLabel l.exit
      withRefs (·.unhold it.val.toNat) : EmitM Unit) s = .ok a s') :
    Follows s s' ∧ s'.asm.address? l.exit = some s'.asm.pos ∧ ∃ t t', Inside fuel n.b [l] t t' s s' := by
  obtain ⟨_, s₁, hbody, h₁⟩ := bind_ok h
  obtain ⟨f₁, t, t', hinside⟩ := inLoop_inside hs hl hbody
  have hs₁ := f₁.fine hs
  obtain ⟨_, s₂, -, h₂, f₂, hs₂⟩ := hs₁.bind_ok h₁
  obtain ⟨_, s₃, hend, h₃, f₃, hs₃⟩ := hs₂.bind_ok h₂
  have f₄ := hs₃.follows h₃
  have f := f₂.trans (f₃.trans f₄)
  refine ⟨f₁.trans f, ?_, t, t', hinside.around (.refl s) f.asm⟩
  obtain ⟨haddress, hpos⟩ := bindLabel_address hend
  obtain ⟨refs, -, rfl⟩ := withRefs_ok h₃
  rw [← hpos] at haddress
  exact haddress

/-- Whether or not a variable was set, the rest follows. -/
theorem fetch?_ok {op : Opcode} {it : Operand} {v : Option SymbolId} {m : EmitM Unit} {a : Unit} (hs : Fine s)
    (h : (match v with
      | some x => do
        fetch op it x
        m
      | _ => m) s = .ok a s') : ∃ s₁, m s₁ = .ok a s' ∧ Follows s s₁ ∧ Fine s₁ := by
  cases v with
  | none => exact ⟨s, h, .refl s, hs⟩
  | some x =>
    obtain ⟨_, s₁, -, h₁, f₁, hs₁⟩ := hs.bind_ok h
    exact ⟨s₁, h₁, f₁, hs₁⟩

theorem foreach_inside {fuel : Nat} {id : NodeId} {n : Node} {a : Unit} (hs : Fine s) (hk : n.kind = .eachLoop)
    (h : foreach (emitter fuel) id n s = .ok a s') :
    ∃ l t t', Inside fuel n.b [l] t t' s s' ∧ Targets fuel n l s s' := by
  obtain ⟨x, s₁, -, h₁, f₁, hs₁⟩ := hs.bind_ok h
  obtain ⟨_, s₂, -, h₂, f₂, hs₂⟩ := hs₁.bind_ok h₁
  obtain ⟨_, s₃, -, h₃, f₃, hs₃⟩ := hs₂.bind_ok h₂
  obtain ⟨it, s₄, -, h₄, f₄, hs₄⟩ := hs₃.bind_ok h₃
  obtain ⟨_, s₅, -, h₅, f₅, hs₅⟩ := hs₄.bind_ok h₄
  obtain ⟨_, s₆, -, h₆, f₆, hs₆⟩ := hs₅.bind_ok h₅
  obtain ⟨top, s₇, htop, h₇, f₇, hs₇⟩ := hs₆.bind_ok h₆
  obtain ⟨exit, s₈, hexit, h₈, f₈, hs₈⟩ := hs₇.bind_ok h₇
  obtain ⟨_, s₉, hstart, h₉, f₉, hs₉⟩ := hs₈.bind_ok h₈
  have f := f₁.trans (f₂.trans (f₃.trans (f₄.trans (f₅.trans (f₆.trans (f₇.trans (f₈.trans f₉)))))))
  obtain ⟨_, t₁, hnext, h₁₀, g₁, ht₁⟩ := hs₉.bind_ok h₉
  obtain ⟨u, t₂, -, h₁₁, g₂, ht₂⟩ := ht₁.bind_ok h₁₀
  obtain ⟨t₃, h₁₂, g₃, ht₃⟩ := fetch?_ok ht₂ h₁₁
  obtain ⟨t₄, h₁₃, g₄, ht₄⟩ := fetch?_ok ht₃ h₁₂
  have g := g₁.trans (g₂.trans (g₃.trans g₄))
  have hexit' := (newLabel_made hs₇ hexit).grown (f₉.trans g).grown
  have htop' := (newLabel_made hs₆ htop).grown (f₈.trans (f₉.trans g)).grown
  obtain ⟨g₅, haddress, t, t', hinside⟩ :=
    eachRound_inside (l := { label := n.label, exit, again := top }) ht₄ ⟨hexit', htop'⟩ h₁₃
  have hrest := (g₂.trans (g₃.trans g₄)).trans g₅
  refine ⟨_, t, t', hinside.around (f.trans g) (.refl _), rfl, haddress, ?_⟩
  rw [hk]
  obtain ⟨hplace, hpos⟩ := bindLabel_address hstart
  refine ⟨s₈.asm.pos, it, (g₁.trans hrest).asm.labels _ _ hplace, ?_, ?_⟩
  · rw [← hpos]
    exact f.asm.pos_le
  · rw [← hpos]
    cases hnext
    exact hrest.asm.getElem? (by simp [Assembler.emit, Assembler.pos])

theorem ifStmt_inside {fuel : Nat} {n : Node} {a : Unit} (hs : Fine s) (h : ifStmt (emitter fuel) n s = .ok a s') :
    (∃ t t', Inside fuel n.b [] t t' s s') ∧ (n.c ≠ 0 → ∃ t t', Inside fuel n.c [] t t' s s') := by
  obtain ⟨stop, s₁, -, h₁, f₁, hs₁⟩ := hs.bind_ok h
  by_cases hc : n.c = 0
  · rw [if_pos hc] at h₁
    obtain ⟨_, s₂, -, h₂, f₂, hs₂⟩ := hs₁.bind_ok h₁
    obtain ⟨_, s₃, hthen, h₃, -, hs₃⟩ := hs₂.bind_ok h₂
    exact ⟨⟨s₂, s₃, .of_follows hs (f₁.trans f₂) hthen (hs₃.follows h₃).asm⟩, fun hne => absurd hc hne⟩
  · rw [if_neg hc] at h₁
    obtain ⟨no, s₂, -, h₂, f₂, hs₂⟩ := hs₁.bind_ok h₁
    obtain ⟨_, s₃, -, h₃, f₃, hs₃⟩ := hs₂.bind_ok h₂
    obtain ⟨_, s₄, hthen, h₄, f₄, hs₄⟩ := hs₃.bind_ok h₃
    obtain ⟨_, s₅, -, h₅, f₅, hs₅⟩ := hs₄.bind_ok h₄
    obtain ⟨_, s₆, -, h₆, f₆, hs₆⟩ := hs₅.bind_ok h₅
    obtain ⟨_, s₇, helse, h₇, f₇, hs₇⟩ := hs₆.bind_ok h₆
    have f := f₁.trans (f₂.trans f₃)
    have g := f₅.trans f₆
    have hlast := hs₇.follows h₇
    exact ⟨⟨s₃, s₄, .of_follows hs f hthen (g.trans (f₇.trans hlast)).asm⟩,
      fun _ => ⟨s₆, s₇, .of_follows hs (f.trans (f₄.trans g)) helse hlast.asm⟩⟩

/-- One of a list of steps. -/
theorem Fine.forM_ok {f : α → EmitM PUnit} [∀ a, Straight (f a)] {l : List α} {x : α} {a : PUnit} (hx : x ∈ l) (hs : Fine s)
    (h : l.forM f s = .ok a s') : ∃ s₁ s₂, f x s₁ = .ok () s₂ ∧ Follows s s₁ ∧ Follows s₂ s' := by
  induction l generalizing s with
  | nil => cases hx
  | cons y l ih =>
    obtain ⟨_, s₁, hy, h₁, f₁, hs₁⟩ := hs.bind_ok h
    rcases List.mem_cons.1 hx with rfl | hx
    · exact ⟨s, s₁, hy, .refl s, hs₁.follows h₁⟩
    · obtain ⟨t, t', hrun, f, f'⟩ := ih hx hs₁ h₁
      exact ⟨t, t', hrun, f₁.trans f, f'⟩

theorem list_inside {fuel : Nat} {l : List NodeId} {c : NodeId} {a : Unit} (hs : Fine s) (hc : c ∈ l)
    (h : l.forM (emitter fuel).stmt s = .ok a s') : ∃ t t', Inside fuel c [] t t' s s' := by
  obtain ⟨t, t', hrun, f, f'⟩ := hs.forM_ok hc h
  exact ⟨t, t', .of_follows hs f hrun f'.asm⟩

/-- The test of one arm. -/
def testArm (tag : Operand) (l : Label) (k : Int) : EmitM Unit := do
  if 0 ≤ k then
    emit { op := .eqInt, a := tag, b := .int k }
    emit { op := .jumpIf, a := .accumulator, b := .label l }

/-- What follows a test does so whether or not there is one. -/
theorem testArm_ok {tag : Operand} {l : Label} {k : Int} {m : EmitM α} {a : α} (h : (if 0 ≤ k then do
      emit { op := .eqInt, a := tag, b := .int k }
      emit { op := .jumpIf, a := .accumulator, b := .label l }
      m
    else m) s = .ok a s') : ∃ s₁, testArm tag l k s = .ok () s₁ ∧ m s₁ = .ok a s' := by
  unfold testArm
  by_cases hk : 0 ≤ k
  · rw [if_pos hk] at h ⊢
    exact ⟨_, rfl, h⟩
  · rw [if_neg hk] at h ⊢
    exact ⟨_, rfl, h⟩

theorem dispatch_cons_ok {tag : Operand} {c : NodeId} {rest : List NodeId} {fallback : Label} {p : List Label × Label}
    (h : dispatch tag (c :: rest) fallback s = .ok p s') :
    ∃ l k ls s₁ s₂, newLabel s = .ok l s₁ ∧ s.unit.cases.get? c = some k ∧ testArm tag l k s₁ = .ok () s₂ ∧
      dispatch tag rest (if k < 0 then l else fallback) s₂ = .ok (ls, p.2) s' ∧ p.1 = l :: ls := by
  obtain ⟨l, s₁, hnew, h₁⟩ := bind_ok h
  obtain ⟨u, _, hu, h₂⟩ := bind_ok h₁
  cases hu
  have hunit : s₁.unit = s.unit := by
    cases hnew
    rfl
  rw [hunit] at h₂
  cases hcase : s.unit.cases.get? c with
  | none =>
    rw [hcase] at h₂
    cases h₂
  | some k =>
    rw [hcase] at h₂
    obtain ⟨s₂, htest, h₃⟩ := testArm_ok h₂
    obtain ⟨q, s₃, hq, h₄⟩ := bind_ok h₃
    cases h₄
    exact ⟨l, k, q.1, s₁, s₂, hnew, rfl, htest, hq, rfl⟩

theorem dispatch_length {tag : Operand} {arms : List NodeId} {fallback : Label} {p : List Label × Label}
    (h : dispatch tag arms fallback s = .ok p s') : p.1.length = arms.length := by
  induction arms generalizing s fallback p with
  | nil =>
    cases h
    rfl
  | cons c rest ih =>
    obtain ⟨l, k, ls, s₁, s₂, -, -, -, hrest, hp⟩ := dispatch_cons_ok h
    rw [hp, List.length_cons, List.length_cons, ← ih hrest]

theorem matchArms_inside {fuel : Nat} {id : NodeId} {n : Node} {subject : Operand} {held : Bool} {c : NodeId} {a : Unit}
    (hs : Fine s) (hc : c ∈ n.list) (h : matchArms (emitter fuel) id n subject held s = .ok a s') :
    ∃ cn t t', s.unit.tree.get? c = some cn ∧ Inside fuel cn.a [] t t' s s' := by
  obtain ⟨_, s₁, -, h₁, f₁, hs₁⟩ := hs.bind_ok h
  obtain ⟨tag, s₂, -, h₂, f₂, hs₂⟩ := hs₁.bind_ok h₁
  obtain ⟨_, s₃, -, h₃, f₃, hs₃⟩ := hs₂.bind_ok h₂
  obtain ⟨stop, s₄, -, h₄, f₄, hs₄⟩ := hs₃.bind_ok h₃
  obtain ⟨⟨labels, fallback⟩, s₅, hdispatch, h₅, f₅, hs₅⟩ := hs₄.bind_ok h₄
  obtain ⟨_, s₆, -, h₆, f₆, hs₆⟩ := hs₅.bind_ok h₅
  obtain ⟨_, s₇, -, h₇, f₇, hs₇⟩ := hs₆.bind_ok h₆
  obtain ⟨_, s₈, harms, h₈, f₈, hs₈⟩ := hs₇.bind_ok h₇
  have f := f₁.trans (f₂.trans (f₃.trans (f₄.trans (f₅.trans (f₆.trans f₇)))))
  have hlast : Follows s₈ s' := by
    obtain ⟨_, s₉, -, h₉, f₉, hs₉⟩ := hs₈.bind_ok h₈
    refine f₉.trans ?_
    split at h₉
    · exact hs₉.follows h₉
    · exact hs₉.follows h₉
  obtain ⟨l, hl⟩ : ∃ l, (c, l) ∈ n.list.zip labels := by
    obtain ⟨i, hi, rfl⟩ := List.mem_iff_getElem.1 hc
    have hlt : i < labels.length := by rwa [dispatch_length hdispatch]
    exact ⟨labels[i], List.mem_iff_getElem.2 ⟨i, by simpa using ⟨hi, hlt⟩, by simp⟩⟩
  obtain ⟨t, t', harm, g, g'⟩ := hs₇.forM_ok hl harms
  have ht := g.fine hs₇
  obtain ⟨_, t₁, -, k₁, e₁, ht₁⟩ := ht.bind_ok harm
  obtain ⟨cn, t₂, hcn, k₂, e₂, ht₂⟩ := ht₁.bind_ok k₁
  obtain ⟨hcn, rfl⟩ := node_ok hcn
  obtain ⟨_, t₃, -, k₃, e₃, ht₃⟩ := ht₂.bind_ok k₂
  obtain ⟨u, t₄, -, k₄, e₄, ht₄⟩ := ht₃.bind_ok k₃
  obtain ⟨t₅, k₅, e₅, ht₅⟩ := fetch?_ok ht₄ k₄
  obtain ⟨_, t₆, hbody, k₆, -, ht₆⟩ := ht₅.bind_ok k₅
  have e := e₁.trans (e₂.trans (e₃.trans (e₄.trans e₅)))
  refine ⟨cn, t₅, t₆, ?_, .of_follows hs (f.trans (g.trans e)) hbody ?_⟩
  · rw [← hcn, e₁.grown.unit, g.grown.unit, f.grown.unit]
  · exact ((ht₆.follows k₆).trans (g'.trans hlast)).asm

theorem matchStmt_inside {fuel : Nat} {id : NodeId} {n : Node} {c : NodeId} {a : Unit} (hs : Fine s) (hc : c ∈ n.list)
    (h : matchStmt (emitter fuel) id n s = .ok a s') :
    ∃ cn t t', s.unit.tree.get? c = some cn ∧ Inside fuel cn.a [] t t' s s' := by
  rw [matchStmt_eq] at h
  obtain ⟨v, s₁, -, h₁, f₁, hs₁⟩ := hs.bind_ok h
  obtain ⟨an, s₂, -, h₂, f₂, hs₂⟩ := hs₁.bind_ok h₁
  obtain ⟨subject, s₃, -, h₃, f₃, hs₃⟩ := hs₂.bind_ok h₂
  have f := f₁.trans (f₂.trans f₃)
  obtain ⟨s₄, h₄, f₄, hs₄⟩ : ∃ s₄,
      matchArms (emitter fuel) id n subject (subject.kind = .ref : Bool) s₄ = .ok a s' ∧ Follows s₃ s₄ ∧ Fine s₄ := by
    split at h₃
    · obtain ⟨_, s₄, -, h₄, f₄, hs₄⟩ := hs₃.bind_ok h₃
      exact ⟨s₄, h₄, f₄, hs₄⟩
    · exact ⟨s₃, h₃, .refl _, hs₃⟩
  obtain ⟨cn, t, t', hcn, hinside⟩ := matchArms_inside hs₄ hc h₄
  rw [f₄.grown.unit, f.grown.unit] at hcn
  exact ⟨cn, t, t', hcn, hinside.around (f.trans f₄) (.refl _)⟩

/-! ## Loops around a statement -/

/-- A loop was emitted with these targets: its code is part of that from `s` to `s'`, and that from `u` to `u'` of its own. -/
def Opens (s s' u u' : EmitState) (loop : NodeId) (l : LoopTargets) : Prop :=
  ∃ fuel n t t', s.unit.tree.get? loop = some n ∧ (emitter (fuel + 1)).stmt loop t = .ok () t' ∧ Targets fuel n l t t' ∧
    (t.unit = s.unit ∧ s.asm.Continues t.asm ∧ t'.asm.Continues s'.asm) ∧ t.asm.Continues u.asm ∧ u'.asm.Continues t'.asm

theorem Opens.around {loop : NodeId} {l : LoopTargets} {t t' u u' : EmitState} (h : Opens t t' u u' loop l)
    (hu : t.unit = s.unit) (ht : s.asm.Continues t.asm) (ht' : t'.asm.Continues s'.asm) : Opens s s' u u' loop l := by
  obtain ⟨fuel, n, v, v', hn, hrun, htargets, ⟨hunit, hv, hv'⟩, hin⟩ := h
  exact ⟨fuel, n, v, v', hu ▸ hn, hrun, htargets, ⟨hunit.trans hu, ht.trans hv, hv'.trans ht'⟩, hin⟩

theorem Opens.within {loop : NodeId} {l : LoopTargets} {t t' u u' : EmitState} (h : Opens s s' t t' loop l)
    (ht : t.asm.Continues u.asm) (ht' : u'.asm.Continues t'.asm) : Opens s s' u u' loop l := by
  obtain ⟨fuel, n, v, v', hn, hrun, htargets, hout, hv, hv'⟩ := h
  exact ⟨fuel, n, v, v', hn, hrun, htargets, hout, hv.trans ht, ht'.trans hv'⟩

/-- A statement that another one is made of is emitted inside of the loop that is opened around it. -/
theorem inner_inside {fuel : Nat} {id c : NodeId} {n : Node} {own : List NodeId} (hs : Fine s)
    (hn : s.unit.tree.get? id = some n) (hc : (c, own) ∈ n.inner s.unit.tree id) (hc0 : c ≠ 0)
    (h : (emitter (fuel + 1)).stmt id s = .ok () s') :
    ∃ ts t t', Inside fuel c ts t t' s s' ∧ List.Forall₂ (Opens s s' t t') own ts := by
  have h0 : id ≠ 0 := by
    rintro rfl
    cases hn
  have hstmt : (n.kind.isExpr && n.kind ≠ .func) = false := by
    unfold Node.inner at hc
    split at hc <;> first | (rename_i hk; rw [hk]; rfl) | cases hc
  have h' := h
  change stmtStep (emitter fuel) id s = _ at h'
  unfold stmtStep at h'
  rw [if_neg h0] at h'
  obtain ⟨n', _, hn', h₁⟩ := bind_ok h'
  obtain ⟨hn', hread⟩ := node_ok hn'
  cases hn.symm.trans hn'
  rw [hread, hstmt, if_neg Bool.false_ne_true] at h₁
  obtain ⟨_, s₁, hnote, h₂, f₁, hs₁⟩ := hs.bind_ok h₁
  have hsame : s₁.unit = s.unit ∧ s₁.asm = s.asm := by
    cases hnote
    exact ⟨rfl, rfl⟩
  have hpos := congrArg Assembler.pos hsame.2
  have plain (hin : ∃ t t', Inside fuel c [] t t' s₁ s') (hown : own = []) :
      ∃ ts t t', Inside fuel c ts t t' s s' ∧ List.Forall₂ (Opens s s' t t') own ts := by
    obtain ⟨t, t', hin⟩ := hin
    subst hown
    exact ⟨[], t, t', hin.around f₁ (.refl _), .nil⟩
  have looping (hin : ∃ l t t', Inside fuel c [l] t t' s₁ s' ∧ Targets fuel n l s₁ s') (hown : own = [id]) :
      ∃ ts t t', Inside fuel c ts t t' s s' ∧ List.Forall₂ (Opens s s' t t') own ts := by
    obtain ⟨l, t, t', hin, htargets⟩ := hin
    subst hown
    refine ⟨[l], t, t', hin.around f₁ (.refl _), .cons ⟨fuel, n, s, s', hn, h, ?_, ⟨rfl, .refl _, .refl _⟩, ?_⟩ .nil⟩
    · exact htargets.around f₁ fun _ => hpos
    · exact ⟨f₁.asm.trans hin.before, hin.after⟩
  unfold Node.inner at hc
  cases hk : n.kind <;> simp only [hk, List.mem_map, List.mem_cons, Prod.mk.injEq, List.not_mem_nil, or_false] at hc
  case file | nameSpace | block =>
    obtain ⟨x, hx, rfl, rfl⟩ := hc
    rw [hk] at h₂
    exact plain (list_inside hs₁ hx h₂) rfl
  case ifStmt =>
    rw [hk] at h₂
    obtain ⟨hb, hc'⟩ := ifStmt_inside hs₁ h₂
    rcases hc with ⟨rfl, rfl⟩ | ⟨rfl, rfl⟩
    · exact plain hb rfl
    · exact plain (hc' hc0) rfl
  case whileLoop =>
    rw [hk] at h₂
    obtain ⟨rfl, rfl⟩ := hc
    exact looping (whileLoop_inside hs₁ hk h₂) rfl
  case eachLoop =>
    rw [hk] at h₂
    obtain ⟨rfl, rfl⟩ := hc
    exact looping (foreach_inside hs₁ hk h₂) rfl
  case forLoop =>
    rw [hk] at h₂
    obtain ⟨hinit, hstep, hbody⟩ := forLoop_inside hs₁ hk h₂
    rcases hc with ⟨rfl, rfl⟩ | ⟨rfl, rfl⟩ | ⟨rfl, rfl⟩
    · exact plain hinit rfl
    · exact plain hstep rfl
    · exact looping hbody rfl
  case matchStmt =>
    rw [hk] at h₂
    obtain ⟨x, hx, hbody, hown⟩ := hc
    obtain ⟨cn, t, t', hcn, hin⟩ := matchStmt_inside hs₁ hx h₂
    rw [← hsame.1, hcn] at hbody
    exact plain ⟨t, t', hbody ▸ hin⟩ hown.symm

/-- The loops around a statement are those that were open when it was emitted. -/
theorem inside_of_encloses {tree : Tree} {id k : NodeId} {loops : List NodeId} {m : Node} (h : tree.Encloses id loops k)
    (hk : tree.get? k = some m) : ∀ {fuel : Nat} {s s' : EmitState}, Fine s → s.unit.tree = tree →
      (emitter fuel).stmt id s = .ok () s' →
        ∃ fuel' ts t t', Inside fuel' k ts t t' s s' ∧ List.Forall₂ (Opens s s' t t') loops ts := by
  induction h with
  | here id => exact fun {fuel s s'} hs _ hrun => ⟨fuel, [], s, s', ⟨hrun, hs, rfl, rfl, .refl _, .refl _, rfl⟩, .nil⟩
  | @inner id c k n own loops hn hc hbelow ih =>
    intro fuel s s' hs hu hrun
    subst hu
    cases fuel with
    | zero => cases hrun
    | succ fuel =>
      obtain ⟨ts, t, t', hin, hopens⟩ := inner_inside hs hn hc (Tree.ne_zero_of_encloses hbelow hk) hrun
      obtain ⟨fuel', us, u, u', hin', hopens'⟩ := ih hk hin.fine (by rw [hin.unit]) hin.run
      refine ⟨fuel', us ++ ts, u, u', ⟨hin'.run, hin'.fine, hin'.unit.trans hin.unit, hin'.captures.trans hin.captures,
        hin.before.trans hin'.before, hin'.after.trans hin.after, ?_⟩, List.rel_append ?_ (hopens.imp fun _ _ ho => ho.within hin'.before hin'.after)⟩
      · rw [hin'.loops, hin.loops, List.append_assoc]
      · exact hopens'.imp fun _ _ ho => ho.around hin.unit hin.before hin.after

/-! ## Jumps -/

/-- The statement is one jump, to what the innermost loop that fits has for it. -/
theorem jump_ok {fuel : Nat} {k : NodeId} {m : Node} (hm : s.unit.tree.get? k = some m)
    (hk : m.isLoopControl) (h : (emitter fuel).stmt k s = .ok () s') :
    ∃ l, s.frame.target? m.label = some l ∧ s'.asm.code[s.asm.pos]? =
      some { op := .jump, a := .label (if m.kind = .breakStmt then l.exit else l.again) } ∧ s'.asm.pos = s.asm.pos + 1 := by
  cases fuel with
  | zero => cases h
  | succ fuel =>
    have h0 : k ≠ 0 := by
      rintro rfl
      cases hm
    change stmtStep (emitter fuel) k s = _ at h
    unfold stmtStep at h
    rw [if_neg h0] at h
    obtain ⟨m', _, hm', h₁⟩ := bind_ok h
    obtain ⟨hm', hread⟩ := node_ok hm'
    cases hm.symm.trans hm'
    rw [hread, if_neg (by rcases hk with hk | hk <;> rw [hk] <;> decide)] at h₁
    obtain ⟨_, s₁, hnote, h₂⟩ := bind_ok h₁
    cases hnote
    have done {l : LoopTargets} {s₂ : EmitState} {target : Label}
        (hl : loopTarget k m.label { s with
          recorder := s.recorder.node s.asm.pos m.span, notes := { ip := s.asm.pos, span := m.span } :: s.notes } = .ok l s₂)
        (hjump : jumpTo target s₂ = .ok () s') : s.frame.target? m.label = some l ∧
          s'.asm.code[s.asm.pos]? = some { op := .jump, a := .label target } ∧ s'.asm.pos = s.asm.pos + 1 := by
      rw [loopTarget_run] at hl
      cases hf : s.frame.target? m.label with
      | none =>
        rw [hf] at hl
        cases hl
      | some l' =>
        rw [hf] at hl
        cases hl
        cases hjump
        exact ⟨rfl, by simp [Assembler.emit, Assembler.pos], by simp [Assembler.emit, Assembler.pos]⟩
    rcases hk with hk | hk
    · rw [hk] at h₂
      obtain ⟨l, s₂, hl, hjump⟩ := bind_ok h₂
      refine ⟨l, ?_⟩
      rw [if_pos hk]
      exact done hl hjump
    · rw [hk] at h₂
      obtain ⟨l, s₂, hl, hjump⟩ := bind_ok h₂
      refine ⟨l, ?_⟩
      rw [if_neg (by rw [hk]; decide)]
      exact done hl hjump

/-- The jump of a statement inside of loops that are opened below `id`: the loop that it controls was emitted, and the label
is one of its targets. -/
theorem jump_inside {fuel : Nat} {id k : NodeId} {loops : List NodeId} {m : Node} (hs : Fine s) (hopen : s.frame.loops = [])
    (hrun : (emitter fuel).stmt id s = .ok () s') (hin : s.unit.tree.Encloses id loops k) (hm : s.unit.tree.get? k = some m)
    (hk : m.isLoopControl) :
    ∃ loop l fuel' ts t t', s.unit.tree.target? loops m.label = some loop ∧ Opens s s' t t' loop l ∧
      Inside fuel' k ts t t' s s' ∧ t'.asm.pos = t.asm.pos + 1 ∧
      t'.asm.code[t.asm.pos]? = some { op := .jump, a := .label (if m.kind = .breakStmt then l.exit else l.again) } := by
  obtain ⟨fuel', ts, t, t', hin, hopens⟩ := inside_of_encloses hin hm hs rfl hrun
  obtain ⟨l, hl, hcode, hpos⟩ := jump_ok (by rw [hin.unit]; exact hm) hk hin.run
  unfold Frame.target? at hl
  rw [hin.loops, hopen, List.append_nil] at hl
  have hlabel (loop : NodeId) (l : LoopTargets) (h : Opens s s' t t' loop l) :
      (m.label = "" || l.label = m.label : Bool) = decide (Controls m.label (s.unit.tree.label loop)) := by
    obtain ⟨_, n, _, _, hn, -, htargets, -⟩ := h
    rw [htargets.label, Tree.label, hn]
    exact (Bool.decide_or ..).symm
  rcases Pairs.find?_forall₂ hopens hlabel with ⟨-, hnone⟩ | ⟨loop, l', hloop, hl', ho⟩
  · cases hl.symm.trans hnone
  · cases hl.symm.trans hl'
    exact ⟨loop, l, fuel', ts, t, t', hloop, ho, hin, hpos, hcode⟩

end Emit

end TreeCompiler
