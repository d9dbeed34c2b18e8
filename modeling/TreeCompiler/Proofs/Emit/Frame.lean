import TreeCompiler.Analysis.Run
import TreeCompiler.Proofs.Emit.Statement
import TreeCompiler.Proofs.Scope.Layout

/-!
# Frames of functions

The frame of a function has its locals at and below the base, then the spill slots of its code, and from two slots above
the base on its captures and then its arguments.

* `FrameShape` : the sizes of these areas;
* `Owns` : a variable of the frame of a function; `Homely` code names no other variable that lives on the stack;
* `slot_in_frame` : the slot of an owned variable lies in the area of its kind;
* `emitFunc_ok`, `emitEntry_ok` : the code of one function.
-/

namespace TreeCompiler

open ScopeTable (Laid)

structure FrameShape where
  locals : Nat
  slots : Int
  captures : Nat
  params : Nat

namespace FrameShape

def IsSpill (f : FrameShape) (off : Int) : Prop := -f.slots < off ∧ off ≤ -f.locals

def IsLocal (f : FrameShape) (off : Int) : Prop := -f.locals < off ∧ off ≤ 0

def IsCapture (f : FrameShape) (off : Int) : Prop := 2 ≤ off ∧ off < 2 + f.captures

def IsArgument (f : FrameShape) (off : Int) : Prop := 2 + f.captures ≤ off ∧ off < 2 + f.captures + f.params

end FrameShape

namespace AnalysisResult

variable (u : AnalysisResult)

/-- The frame of a function whose code takes that many slots; the entry code, with number 0, has only spill slots. -/
def shapeOf (fn : SymbolId) (slots : Int) : FrameShape where
  locals := ((u.bodyScope? fn).map (·.maxStack)).getD 0
  slots := slots
  captures := ((u.bodyScope? fn).map (·.captures.length)).getD 0
  params := ((u.declarationOf? fn).map (·.list.length)).getD 0

/-- A variable of the frame of a function. -/
def Owns (fn v : SymbolId) : Prop :=
  ∃ f sym, u.scopes.symbol? fn = some f ∧ f.body ≠ 0 ∧ u.scopes.symbol? v = some sym ∧
    u.scopes.funcScope sym.scope = f.body

def IsGlobal (v : SymbolId) : Prop := ∃ sym slot, u.scopes.symbol? v = some sym ∧ sym.storage = .global slot

/-- Every variable that the code of a function names is its own or global. -/
def Homely (fn : SymbolId) : Prop := ∀ v, u.Names fn v → u.IsGlobal v ∨ u.Owns fn v

instance (fn v : SymbolId) : Decidable (u.Owns fn v) :=
  decidable_of_iff (∃ f ∈ (u.scopes.symbol? fn).toList, ∃ sym ∈ (u.scopes.symbol? v).toList,
    f.body ≠ 0 ∧ u.scopes.funcScope sym.scope = f.body) (by
      simp only [Option.mem_toList, Owns]
      grind)

/-- A stack operand in its place: a spill slot, or the slot of an owned variable in the area of its kind. -/
def Home (fn : SymbolId) (f : FrameShape) (o : Operand) : Prop :=
  f.IsSpill o.val ∨
    ∃ v sym, u.Owns fn v ∧ u.scopes.symbol? v = some sym ∧ Emit.slotOf? f.captures sym.storage = some o ∧
      (f.IsLocal o.val ∨ f.IsCapture o.val ∨ f.IsArgument o.val)

variable {u}

/-- Places that are closed under their parts bound what a function names. -/
theorem homely_of_closed {fn : SymbolId} {l : List Place} (h0 : fn ≠ 0) (hcode : ∀ p ∈ u.codeParts fn, p ∈ l)
    (hparts : ∀ p ∈ l, ∀ q ∈ u.parts p, q ∈ l) (hnames : ∀ p ∈ l, ∀ v ∈ u.names p, u.Owns fn v) : u.Homely fn := by
  rintro v (⟨p, hp, q, hq, hv⟩ | ⟨h, -⟩)
  · have hmem : q ∈ l := by
      clear hv
      induction hq with
      | refl => exact hcode p hp
      | tail _ hstep ih => exact hparts _ ih _ hstep
    exact .inr (hnames q hmem v hv)
  · exact absurd h h0

/-- The slot of an owned variable lies in its frame. -/
theorem slot_in_frame (hu : Laid u.tree u.scopes) {fn v : SymbolId} {sym : Symbol} {o : Operand} {slots : Int}
    (hv : u.Owns fn v) (hsym : u.scopes.symbol? v = some sym)
    (hslot : Emit.slotOf? (u.shapeOf fn slots).captures sym.storage = some o) (hk : o.kind = .stack) :
    (u.shapeOf fn slots).IsLocal o.val ∨ (u.shapeOf fn slots).IsCapture o.val ∨ (u.shapeOf fn slots).IsArgument o.val := by
  obtain ⟨f, sym', hf, hbody, hsym', hown⟩ := hv
  rw [hsym] at hsym'
  cases hsym'
  obtain ⟨sc, hsc, hfunc, hfn⟩ := hu.bodies fn f hf hbody
  have hshape : u.bodyScope? fn = some sc := by simp [bodyScope?, hf, hsc]
  have hfits := hu.fits v sym hsym
  generalize sym.storage = st at hfits hslot
  cases hfits with
  | none => cases hslot
  | global slot =>
    cases hslot
    cases hk
  | slot hs hle hlt =>
    rw [hown, hsc] at hs
    cases hs
    rename_i off
    have hneg : ¬0 < off := by omega
    simp only [Emit.slotOf?, if_neg hneg, Option.some.injEq] at hslot
    subst hslot
    refine .inl ?_
    simp only [FrameShape.IsLocal, shapeOf, hshape, Option.map_some, Option.getD_some, Operand.stack]
    omega
  | arg hs hi =>
    rw [hown, hsc] at hs
    cases hs
    rename_i i
    have hpos : 0 < Storage.argOffset i := by
      unfold Storage.argOffset
      omega
    simp only [Emit.slotOf?, if_pos hpos, Option.some.injEq] at hslot
    subst hslot
    have hparams : (u.shapeOf fn slots).params = u.scopes.paramCount u.tree sc.func := by
      rw [hfn]
      rfl
    refine .inr (.inr ?_)
    rw [← hparams] at hi
    simp only [FrameShape.IsArgument, Operand.stack, Storage.argOffset]
    omega
  | captured hs hfk hi =>
    rw [ScopeTable.funcScope_self hs hfk] at hown
    rw [hown, hsc] at hs
    cases hs
    cases hslot
    refine .inr (.inl ?_)
    simp only [FrameShape.IsCapture, shapeOf, hshape, Option.map_some, Option.getD_some, Operand.stack]
    omega

end AnalysisResult

namespace Emit

open AnalysisResult

/-! ## The code of one function -/

/-- The slot of a variable that the code of a function names. -/
def IsNamed (u : AnalysisResult) (fn : SymbolId) (o : Operand) : Prop :=
  ∃ v sym, u.Names fn v ∧ u.scopes.symbol? v = some sym ∧ slotOf? (u.shapeOf fn 0).captures sym.storage = some o

/-- The code of a function touches the variables it names. -/
def setting (u : AnalysisResult) (fn : SymbolId) (base : Nat) : Setting where
  unit := u
  captures := (u.shapeOf fn 0).captures
  allowed := IsNamed u fn
  base := base

theorem allows_of_names {u : AnalysisResult} {fn v : SymbolId} {base : Nat} (h : u.Names fn v) :
    Allows (setting u fn base) v :=
  fun sym _ hsym ho _ => ⟨v, sym, h, hsym, ho⟩

theorem good_of_mem {u : AnalysisResult} {fn : SymbolId} {base : Nat} (fuel : Nat) :
    ∀ p ∈ u.codeParts fn, Good (setting u fn base) (emitter fuel) p :=
  fun p hp => emitter_good fuel p fun q hq _ hv => allows_of_names (.inl ⟨p, hp, q, hq, hv⟩)

section

variable {K : Setting} {rec : Emitter}

theorem Emits.emitBody {body : NodeId} (h : ∀ p ∈ K.unit.bodyParts body, Good K rec p) :
    Emits K (emitBody rec body) fun _ => True := by
  unfold bodyParts at h
  refine .bind (kindOf body) fun k hk => .ite (fun hb => ?_) fun hb => ?_
  · refine .bind (node body) fun n hn => ?_
    rw [if_pos (hk.trans hb), hn] at h
    exact .bind (.forM _ fun x hx => h _ (List.mem_map_of_mem hx)) fun _ _ => .emit nofun nofun nofun
  · rw [if_neg (hk ▸ hb)] at h
    refine .ite (fun h0 => ?_) fun _ => .pure trivial
    rw [if_neg h0] at h
    exact .bind (exprAny (h _ (List.mem_singleton_self _))) fun x hx => .emit hx nofun nofun

theorem Emits.emitStatic {st : StaticInit} (hparts : ∀ p ∈ K.unit.staticParts st, Good K rec p)
    (hname : ((K.unit.scopes.symbol? st.symbol).filter K.unit.isLive).isSome → Allows K st.symbol) :
    Emits K (emitStatic rec st) fun _ => True := by
  refine .bind (symbol st.symbol) fun sym hsym => .bind unit fun r hr => ?_
  subst hr
  refine .ite (fun _ => .pure trivial) fun hlive => ?_
  have hlive : K.unit.isLive sym = true := by
    simp only [Bool.or_eq_true, not_or, Bool.not_eq_true, Bool.not_eq_false'] at hlive
    simp [isLive, hlive.1.1, hlive.1.2, hlive.2]
  simp only [staticParts, hsym, Option.filter_some, hlive, if_true, List.mem_singleton, forall_eq] at hparts hname
  refine .bind (storage_plain (hname rfl)) fun dst hdst => ?_
  split at hparts
  all_goals rename_i hi
  · rw [if_pos hi]
    exact .bind (hparts _) fun x hx => move hdst hx
  · rw [if_neg hi]
    exact .bind (exprAny hparts) fun x hx => move hdst hx

theorem Emits.entryCode (hparts : ∀ p ∈ K.unit.codeParts 0, Good K rec p)
    (hnames : ∀ st ∈ K.unit.statics, ((K.unit.scopes.symbol? st.symbol).filter K.unit.isLive).isSome → Allows K st.symbol) :
    Emits K (entryCode rec) fun _ => True := by
  simp only [codeParts, if_true] at hparts
  refine .bind unit fun r hr => ?_
  subst hr
  refine .bind (.forM _ fun st hst => ?_) fun _ _ => .bind (.forM _ fun r hr => ?_) fun _ _ => .emit nofun nofun nofun
  · refine .emitStatic (fun p hp => hparts p ?_) (hnames st hst)
    exact List.mem_append_left _ (List.mem_flatMap.2 ⟨st, hst, hp⟩)
  · exact hparts _ (List.mem_append_right _ (List.mem_map_of_mem hr))

end

/-! ## From one function to the next -/

theorem patch_apply (ip slots : Nat) (s : EmitState) : patch ip slots s =
    (match s.asm.patch ip slots with
      | .ok asm => modify fun s => { s with asm }
      | .error m => throw (.misuse m) : EmitM Unit) s := rfl

theorem patch_ok {ip slots : Nat} {s s' : EmitState} {a : Unit} (h : patch ip slots s = .ok a s') :
    ∃ i, s.asm.code[ip]? = some i ∧ i.op = .reserve ∧
      s' = { s with asm := { s.asm with code := s.asm.code.setIfInBounds ip { i with a := .int slots } } } := by
  rw [patch_apply] at h
  cases hasm : s.asm.patch ip slots with
  | error m =>
    rw [hasm] at h
    cases h
  | ok asm =>
    rw [hasm] at h
    cases h
    unfold Assembler.patch at hasm
    split at hasm
    · cases hasm
    · rename_i i hi
      split at hasm
      · cases hasm
        exact ⟨i, hi, ‹_›, rfl⟩
      · cases hasm

/-- A frame that has just been opened. -/
structure Opened (s s' : EmitState) (ip : Nat) (entry : Label) : Prop where
  ip : ip = s.asm.code.size
  unit : s'.unit = s.unit
  values : s'.values = s.values
  refs : s'.refs = s.refs
  spills : s'.frame.maxSpill = 0
  code : s'.asm.code = s.asm.code.push { op := .reserve, a := .int 0 }
  labels : LabelsStay s.asm s'.asm
  entry : s'.asm.address? entry = some s.asm.pos
  rows : s'.asm.funcs = s.asm.funcs
  funcs : s'.funcs = s.funcs
  work : s'.work = s.work

theorem openFunc_ok {fn : SymbolId} {entry : Label} {s s' : EmitState} {r : OpenSpan × Nat}
    (h : openFunc fn entry s = .ok r s') :
    Opened s s' r.2 entry ∧ ∃ sc, s.unit.bodyScope? fn = some sc ∧ s'.frame.captures = sc.captures.length ∧
      s'.frame.locals = sc.maxStack := by
  obtain ⟨sym, _, hsym, h₁⟩ := bind_ok h
  obtain ⟨-, rfl⟩ := symbol_ok hsym
  obtain ⟨n, _, hn, h₂⟩ := bind_ok h₁
  obtain ⟨-, rfl⟩ := declaration_ok hn
  obtain ⟨sc, _, hsc, h₃⟩ := bind_ok h₂
  obtain ⟨hsc, rfl⟩ := funcScope_ok hsc
  obtain ⟨name, _, hname, h₄⟩ := bind_ok h₃
  obtain rfl := reads_funcName fn _ _ _ hname
  obtain ⟨span, s₁, hspan, h₅⟩ := bind_ok h₄
  obtain ⟨_, s₂, hbind, h₆⟩ := bind_ok h₅
  obtain ⟨_, s₃, hrec, h₇⟩ := bind_ok h₆
  obtain ⟨ip, s₄, hres, h₈⟩ := bind_ok h₇
  cases hspan
  obtain ⟨hlt, hfree, rfl⟩ := bindLabel_ok hbind
  cases hrec
  cases hres
  cases h₈
  refine ⟨?_, sc, hsc, rfl, rfl⟩
  exact
    { ip := rfl, unit := rfl, values := rfl, refs := rfl, spills := rfl, code := rfl, rows := rfl, funcs := rfl, work := rfl
      labels := labelsStay_bind hfree rfl
      entry := address?_bind hlt rfl }

theorem openEntry_ok {s s' : EmitState} {r : Label × Nat} (h : openEntry s = .ok r s') :
    Opened s s' r.2 r.1 ∧ s'.frame.captures = 0 ∧ s'.frame.locals = 0 := by
  obtain ⟨entry, s₁, hnew, h₁⟩ := bind_ok h
  obtain ⟨_, s₂, hbind, h₂⟩ := bind_ok h₁
  obtain ⟨_, s₃, hframe, h₃⟩ := bind_ok h₂
  obtain ⟨ip, s₄, hres, h₄⟩ := bind_ok h₃
  cases hnew
  obtain ⟨hlt, hfree, rfl⟩ := bindLabel_ok hbind
  cases hframe
  cases hres
  cases h₄
  have hnew : LabelsStay s.asm s.asm.newLabel.2 := labelsStay_push rfl
  refine ⟨?_, rfl, rfl⟩
  exact
    { ip := rfl, unit := rfl, values := rfl, refs := rfl, spills := rfl, code := rfl, rows := rfl, funcs := rfl, work := rfl
      labels := hnew.trans (labelsStay_bind hfree rfl)
      entry := address?_bind hlt rfl }

/-! ## Sections of code -/

/-- A stack operand is a spill slot or the slot of a variable that the code names. -/
def Touches (u : AnalysisResult) (fn : SymbolId) (slots : Nat) (i : Instr) : Prop :=
  ∀ o ∈ i.operands, o.kind = .stack → (u.shapeOf fn slots).IsSpill o.val ∨ IsNamed u fn o

/-- The code of one function: it reserves its frame first. -/
structure Section (u : AnalysisResult) (fn : SymbolId) (slots : Nat) (code : List Instr) : Prop where
  locals : (u.shapeOf fn slots).locals ≤ slots
  head : code.head? = some { op := .reserve, a := .int slots }
  touches : ∀ i ∈ code, Touches u fn slots i

/-- From `s` to `s'` the code of `fn` was appended. -/
structure Adds (u : AnalysisResult) (fn : SymbolId) (slots : Nat) (is : List Instr) (s s' : EmitState) : Prop where
  unit : s'.unit = s.unit
  values : s'.values.kind = s.values.kind
  refs : s'.refs.kind = s.refs.kind
  code : s'.asm.code.toList = s.asm.code.toList ++ is
  part : Section u fn slots is
  labels : LabelsStay s.asm s'.asm
  queued : s.Queued → s'.Queued
  rows : ∃ rs, s'.asm.funcs.toList = s.asm.funcs.toList ++ rs
  work : ∃ fns, s'.work.toList = s.work.toList ++ fns

theorem touches_of_within {u : AnalysisResult} {fn : SymbolId} {f : Frame} {i : Instr}
    (hf : f.locals = (u.shapeOf fn 0).locals) (h : Within (IsNamed u fn) f i) : Touches u fn f.slots i := by
  intro o ho hk
  rcases h o ho hk with hname | hspill
  · exact .inr hname
  · refine .inl ?_
    unfold Frame.IsSpill at hspill
    rw [hf] at hspill
    simp only [FrameShape.IsSpill, shapeOf, Frame.slots, hf] at hspill ⊢
    exact hspill

/-- A frame that is opened, filled and patched. -/
theorem adds_of_patch {u : AnalysisResult} {fn : SymbolId} {entry : Label} {ip : Nat} {s s₁ s₂ s₃ : EmitState} {a : Unit}
    (ho : Opened s s₁ ip entry) (hl : s₁.frame.locals = (u.shapeOf fn 0).locals)
    (he : Extends (IsNamed u fn) s₁.asm.labels.size s₁ s₂) (hp : patch ip s₂.frame.slots s₂ = .ok a s₃) :
    (∃ code, Adds u fn s₂.frame.slots code s s₃) ∧ s₃.asm.address? entry = some s.asm.pos ∧ s₃.frame = s₂.frame ∧
      s₃.asm.funcs = s₂.asm.funcs := by
  obtain ⟨is, hcode, hwithin⟩ := he.code
  obtain ⟨i, hi, -, rfl⟩ := patch_ok hp
  have hl₂ : s₂.frame.locals = (u.shapeOf fn 0).locals := he.locals.trans hl
  have hcode : s₂.asm.code.toList = s.asm.code.toList ++ { op := .reserve, a := .int 0 } :: is := by
    rw [hcode, ho.code, Array.toList_push, List.append_assoc, List.singleton_append]
  have hi : i = { op := .reserve, a := .int 0 } := by
    rw [← Array.getElem?_toList, hcode, ho.ip] at hi
    simpa using hi.symm
  subst hi
  refine ⟨⟨{ op := .reserve, a := .int s₂.frame.slots } :: is, ?_⟩, he.labelsStay _ _ ho.entry, rfl, rfl⟩
  refine
    { unit := he.unit.trans ho.unit
      values := he.values.trans (by rw [ho.values])
      refs := he.refs.trans (by rw [ho.refs])
      code := ?_
      part := ⟨?_, rfl, List.forall_mem_cons.2 ⟨?_, fun i hi => touches_of_within hl₂ (hwithin i hi)⟩⟩
      labels := ho.labels.trans he.labelsStay
      queued := fun q => (he.queued (q.congr ho.work ho.rows ho.funcs ho.unit)).congr rfl rfl rfl rfl
      rows := by rw [← ho.rows]; exact he.rows
      work := by rw [← ho.work]; exact he.work }
  · simp [hcode, ho.ip]
  · rw [Frame.slots, hl₂]
    exact Nat.le_add_right _ _
  · intro o ho hk
    simp only [Instr.operands, List.mem_cons, List.not_mem_nil, or_false] at ho
    rcases ho with rfl | rfl | rfl <;> cases hk

end Emit

end TreeCompiler
