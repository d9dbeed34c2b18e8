import TreeCompiler.Proofs.Analysis.Resolve
import TreeCompiler.Proofs.Emit.Describe
import TreeCompiler.Tree.Builder

/-!
# Default values of fields

The default values of a struct type are noted under its structure when a type expression of this structure is resolved first.
A declared type takes over those of its structure, so types of one structure are built with the same ones.

* `AnalysisResult.Shares` : what an analysis keeps of the default values it notes;
* `Emit.makeStruct_shares` : what fills the fields of a struct that are not given;
* `Emit.makeStruct_declared` : after a struct type was evaluated, its structure is built with the default values of a struct
  type that has this structure, so with its own ones when it is the only one;
* `twins_share_default` : a type that is built with the default value of another one.
-/

namespace TreeCompiler

namespace AnalysisResult

variable {r r' : AnalysisResult}

/-! ## Notes -/

/-- The struct type at the node `e` has the structure `t` and declares the default values `ds`. -/
def DeclaresDefaults (r : AnalysisResult) (e : NodeId) (t : TypeId) (ds : List NodeId) : Prop :=
  ∃ n parts, r.tree.get? e = some n ∧ n.kind = .typeStruct ∧ List.Forall₂ r.tree.DeclaresField n.list parts ∧
    r.types.find? { shape := .struct (parts.map (·.1)) } = some t ∧ ds = parts.map (·.2)

theorem WritesDefaults.mono {t : TypeId} {ds : List NodeId} (h : r.WritesDefaults t ds) (tree : r.tree.Refines r'.tree)
    (types : r.types.Grows r'.types) : r'.WritesDefaults t ds := by
  obtain ⟨e, n, parts, hn, hk, hparts, hfind, rfl⟩ := h
  obtain ⟨n', hn', g⟩ := tree.nodes e n hn
  have hlist := g.list (by rw [hk]; decide) (by rw [hk]; decide)
  refine ⟨e, n', parts, hn', (g.kind_eq (by rw [hk]; decide)).trans hk, ?_, types.find? hfind, rfl⟩
  rw [hlist]
  exact hparts.imp fun _ _ h => tree.declaresField h

/-- The default values noted for a type are noted for its structure, and a type expression of this structure has them. -/
structure Shares (r : AnalysisResult) : Prop where
  keyed : r.types.Keyed
  written : ∀ t ds, r.fieldDefaults.get? t = some ds → ∃ b ty, r.types.lookup? t = some ty ∧
    r.types.underlying? t = some b ∧ r.fieldDefaults.get? b = some ds ∧ r.WritesDefaults b ds

namespace Shares

theorem mono (h : r.Shares) (tree : r.tree.Refines r'.tree) (types : r.types.Grows r'.types)
    (defaults : r'.fieldDefaults = r.fieldDefaults) : r'.Shares := by
  refine ⟨types.keyed h.keyed, fun t ds hd => ?_⟩
  rw [defaults] at hd ⊢
  obtain ⟨b, ty, hl, hu, hb, hw⟩ := h.written t ds hd
  exact ⟨b, ty, types.lookup? hl, types.underlying? hl hu, hb, hw.mono tree types⟩

/-- The structure of a type that takes over default values. -/
theorem inherit (h : r.Shares) {t : TypeId} {ds : List NodeId} (hi : r.InheritsDefaults t ds) :
    ∃ b ty, r.types.lookup? t = some ty ∧ r.types.underlying? t = some b ∧ r.fieldDefaults.get? b = some ds ∧
      r.WritesDefaults b ds := by
  obtain ⟨base, ty, sym, name, args, hsym, hl, hfind, hbind⟩ := hi
  obtain ⟨b, hu, hb⟩ := Option.bind_eq_some_iff.1 hbind
  obtain ⟨b', tyb, hlb, hub, -, hw⟩ := h.written b ds hb
  obtain ⟨e, n, parts, hn, hk, hparts, hstruct, hds⟩ := hw
  cases (TypeTable.underlying?_underlying h.keyed hu).symm.trans hub
  have hbare : r.types.find? { shape := ty.shape } = some b := by
    rcases TypeTable.underlying?_cases hl hu with hbare | rfl
    · exact hbare
    · exact TypeTable.find?_shape h.keyed hstruct hl
  have hkind : ty.kind ≠ .invalid := by
    intro hinv
    have hnum := TypeTable.kind_of_find? h.keyed hbare hstruct
    rw [show ty.shape.kind = .invalid from hinv] at hnum
    exact absurd hnum (show TypeKind.invalid.number % 256 ≠ TypeKind.struct.number % 256 by decide)
  obtain ⟨ty', hl', -⟩ := TypeTable.lookup?_of_find? h.keyed (hfind hkind)
  exact ⟨b, ty', hl', TypeTable.underlying?_named h.keyed hsym hbare (hfind hkind), hb, e, n, parts, hn, hk, hparts, hstruct, hds⟩

theorem inherit_eq (h : r.Shares) {t : TypeId} {ds ds' : List NodeId} (hi : r.InheritsDefaults t ds)
    (hd : r.fieldDefaults.get? t = some ds') : ds' = ds := by
  obtain ⟨b, -, -, hu, hb, -⟩ := h.inherit hi
  obtain ⟨b', -, -, hu', hb', -⟩ := h.written t ds' hd
  cases hu.symm.trans hu'
  exact Option.some.inj (hb'.symm.trans hb)

/-- Default values that are noted are noted for good. -/
theorem insert (h : r.Shares) {t : TypeId} {ds : List NodeId}
    (hd : r.fieldDefaults.get? t = none ∧ r.WritesDefaults t ds ∨ r.InheritsDefaults t ds) :
    ({ r with fieldDefaults := r.fieldDefaults.insert t ds } : AnalysisResult).Shares := by
  have hnew : ∃ b ty, r.types.lookup? t = some ty ∧ r.types.underlying? t = some b ∧ r.WritesDefaults b ds ∧
      (b = t ∨ r.fieldDefaults.get? b = some ds) ∧ ∀ ds', r.fieldDefaults.get? t = some ds' → ds' = ds := by
    rcases hd with ⟨hnone, hw⟩ | hi
    · obtain ⟨e, n, parts, -, -, -, hfind, -⟩ := id hw
      obtain ⟨ty, hl, -⟩ := TypeTable.lookup?_of_find? h.keyed hfind
      refine ⟨t, ty, hl, TypeTable.underlying?_of_find? h.keyed hfind, hw, .inl rfl, fun ds' h' => ?_⟩
      rw [hnone] at h'
      cases h'
    · obtain ⟨b, ty, hl, hu, hb, hw⟩ := h.inherit hi
      exact ⟨b, ty, hl, hu, hw, .inr hb, fun _ => h.inherit_eq hi⟩
  obtain ⟨b, ty, hl, hu, hw, hb, hkeep⟩ := hnew
  refine ⟨h.keyed, fun k ds' hk => ?_⟩
  simp only [IdMap.get?_insert] at hk ⊢
  split at hk
  · subst k
    cases hk
    refine ⟨b, ty, hl, hu, ?_, hw⟩
    rcases hb with rfl | hb
    · exact if_pos rfl
    · split
      · rfl
      · exact hb
  · obtain ⟨b', ty', hl', hu', hb', hw'⟩ := h.written k ds' hk
    refine ⟨b', ty', hl', hu', ?_, hw'⟩
    split
    · rename_i heq
      rw [hkeep ds' (heq ▸ hb')]
    · exact hb'

/-- Default values that are noted for a structure are those of a struct type with this structure. -/
theorem noted (h : r.Shares) {t b : TypeId} {ds : List NodeId} (hu : r.types.underlying? t = some b)
    (hd : r.fieldDefaults.get? b = some ds) : r.WritesDefaults b ds := by
  obtain ⟨b', ty, -, hu', -, hw⟩ := h.written b ds hd
  cases (TypeTable.underlying?_underlying h.keyed hu).symm.trans hu'
  exact hw

/-- The default values of a type are those of its structure. -/
theorem defaultsOf_eq (h : r.Shares) (t : TypeId) :
    r.defaultsOf t = ((r.types.underlying? t).bind r.fieldDefaults.get?).getD [] := by
  unfold defaultsOf
  split
  · rename_i ds hd
    obtain ⟨b, ty, -, hu, hb, -⟩ := h.written t ds hd
    rw [hu, Option.bind_some, hb, Option.getD_some]
  · rfl

end Shares

end AnalysisResult

namespace Analysis

theorem Step.shares {s s' : Analysis} (h : Step s s') (hs : s.result.Shares) : s'.result.Shares := by
  have kept (defaults : s'.result.fieldDefaults = s.result.fieldDefaults) : s'.result.Shares :=
    hs.mono h.refines h.types defaults
  cases h with
  | edit _ _ _ k _ => exact kept k.defaults
  | arrange _ _ _ k _ => exact kept k.defaults
  | default t ds h => exact hs.insert h
  | defer _ _ _ _ _ defaults _ _ _ _ _ => exact kept defaults
  | learn _ _ _ _ result _ _ => exact kept (by rw [result])
  | _ => exact kept rfl

theorem Steps.shares {s s' : Analysis} (h : Steps s s') (hs : s.result.Shares) : s'.result.Shares := by
  induction h with
  | refl => exact hs
  | tail _ h ih => exact h.shares ih

theorem Step.noted {s s' : Analysis} {t : TypeId} {ds : List NodeId} (h : Step s s') (hs : s.result.Shares)
    (hd : s.result.fieldDefaults.get? t = some ds) : s'.result.fieldDefaults.get? t = some ds := by
  have kept (defaults : s'.result.fieldDefaults = s.result.fieldDefaults) : s'.result.fieldDefaults.get? t = some ds :=
    defaults ▸ hd
  cases h with
  | edit _ _ _ k _ => exact kept k.defaults
  | arrange _ _ _ k _ => exact kept k.defaults
  | default t' ds' h =>
    refine (IdMap.get?_insert ..).trans ?_
    split
    · subst t'
      rcases h with ⟨hnone, -⟩ | hi
      · cases hnone.symm.trans hd
      · rw [hs.inherit_eq hi hd]
    · exact hd
  | defer _ _ _ _ _ defaults _ _ _ _ _ => exact kept defaults
  | learn _ _ _ _ result _ _ => exact kept (by rw [result])
  | _ => exact kept rfl

theorem Steps.noted {s s' : Analysis} {t : TypeId} {ds : List NodeId} (h : Steps s s') (hs : s.result.Shares)
    (hd : s.result.fieldDefaults.get? t = some ds) : s'.result.fieldDefaults.get? t = some ds := by
  induction h with
  | refl => exact hd
  | tail h hstep ih => exact hstep.noted (Steps.shares h hs) ih

/-- A struct type that was evaluated has default values. -/
theorem structType_noted {rec : Resolver} {n : Node} {t : TypeId} {s s' : Analysis} (h : structType rec n s = .ok t s')
    (ht : t ≠ TypeTable.pending) : ∃ ds, s'.result.fieldDefaults.get? t = some ds := by
  obtain ⟨found, s₁, -, hrest⟩ := bind_ok h
  cases found with
  | none =>
    cases hrest
    exact absurd rfl ht
  | some parts =>
    obtain ⟨t', s₂, htypes, hrest⟩ := bind_ok hrest
    obtain ⟨s₃, _, hget, hrest⟩ := bind_ok hrest
    cases hget
    by_cases hc : (!s₂.result.fieldDefaults.contains t') = true
    · rw [if_pos hc] at hrest
      obtain ⟨_, s₄, hnote, hrest⟩ := bind_ok hrest
      cases hnote
      cases hrest
      exact ⟨parts.map (·.2), (IdMap.get?_insert ..).trans (if_pos rfl)⟩
    · rw [if_neg hc] at hrest
      cases hrest
      rw [Bool.not_eq_true', Bool.not_eq_false] at hc
      exact Option.isSome_iff_exists.1 hc

end Analysis

theorem TypeTable.initial_keyed : TypeTable.initial.Keyed := by
  unfold initial
  refine List.foldlRecOn _ _ ?_ fun t h k _ => (grows_intern t _).keyed h
  intro e he
  simp at he

theorem Analysis.initial_shares (tree : Tree) (options : AnalysisOptions) (tracer : Tracer) :
    (initial tree options tracer).result.Shares := ⟨TypeTable.initial_keyed, fun t ds h => by cases h⟩

theorem Tree.analyze_shares (tree : Tree) (options : AnalysisOptions) (tracer : Tracer) :
    (tree.analyze options tracer).state.result.Shares :=
  (tree.analyze_steps options tracer).shares (Analysis.initial_shares tree options tracer)

namespace Emit

/-! ## Construction -/

/-- Pushes the value of a field: the given one, else the default value `d`, else a zero value. -/
def pushField (rec : Emitter) (at' : NodeId) (given : List (String × NodeId)) (f : TyField) (d : NodeId) : EmitM Unit := do
  match given.lookup f.name, d with
  | some v, _ => push rec v
  | none, 0 => pushOperand (← rec.zero at' f.type)
  | none, d => push rec d

/-- Builds a struct of the type `t` with the default values `ds`. -/
def buildStruct (rec : Emitter) (at' : NodeId) (t : TypeId) (given : List (String × NodeId)) (ds : List NodeId) :
    EmitM Operand := do
  let fields := (← typeInfo t).shape.fields
  for (f, i) in fields.zipIdx do pushField rec at' given f (ds.getD i 0)
  emit { op := .makeStruct, a := .type (← typeRef t), b := .int fields.length }
  return .accumulator

theorem forIn_congr {α β : Type} {f g : α → β → EmitM (ForInStep β)} {l : List α} {b : β} (h : ∀ a b, f a b = g a b) :
    forIn l b f = forIn l b g := by
  rw [funext fun a => funext (h a)]

theorem bind_congr_left {α β : Type} {x y : EmitM α} {f : α → EmitM β} (h : x = y) : x >>= f = y >>= f := by rw [h]

theorem typeInfo_apply (t : TypeId) (s : EmitState) : typeInfo t s =
    (match s.unit.types.lookup? t with
      | some ty => pure ty
      | none => throw (.unknownType t) : EmitM Ty) s := rfl

theorem fieldDefaults_apply (t : TypeId) (s : EmitState) : fieldDefaults t s =
    (match s.unit.fieldDefaults.get? t with
      | some ds => pure ds
      | none => pure (((s.unit.types.underlying? t).bind s.unit.fieldDefaults.get?).getD []) : EmitM (List NodeId)) s := rfl

theorem fieldDefaults_run (t : TypeId) (s : EmitState) : fieldDefaults t s = .ok (s.unit.defaultsOf t) s := by
  rw [fieldDefaults_apply, AnalysisResult.defaultsOf]
  cases s.unit.fieldDefaults.get? t <;> rfl

theorem makeStruct_apply (rec : Emitter) (at' : NodeId) (t : TypeId) (given : List (String × NodeId)) (s : EmitState) :
    makeStruct rec at' t given s = buildStruct rec at' t given (s.unit.defaultsOf t) s := by
  unfold makeStruct buildStruct
  cases hl : s.unit.types.lookup? t with
  | none =>
    have hfail : typeInfo t s = .error (.unknownType t) s := by
      rw [typeInfo_apply, hl]
      rfl
    rw [bind_fail hfail, bind_fail hfail]
  | some ty =>
    have hrun : typeInfo t s = .ok ty s := by
      rw [typeInfo_apply, hl]
      rfl
    rw [bind_run hrun, bind_run hrun, bind_run (fieldDefaults_run t s)]
    refine congrFun (bind_congr_left (forIn_congr fun p _ => ?_)) s
    obtain ⟨f, i⟩ := p
    dsimp only
    unfold pushField
    cases given.lookup f.name with
    | some v => rfl
    | none =>
      cases (s.unit.defaultsOf t).getD i 0 with
      | zero => exact (bind_assoc _ _ _).symm
      | succ d => rfl

/-- A struct of a type of an analyzed tree is built with the default values that are kept for the structure of its type:
those that one struct type of the tree with this structure declares, or none. All types of this structure share them. -/
theorem makeStruct_shares (tree : Tree) (options : AnalysisOptions) (tracer : Tracer) {s : EmitState}
    (hs : s.unit = (tree.analyze options tracer).state.result) (rec : Emitter) (at' : NodeId) (t : TypeId)
    (given : List (String × NodeId)) :
    ∃ ds, makeStruct rec at' t given s = buildStruct rec at' t given ds s ∧
      (∀ t', s.unit.types.underlying? t' = s.unit.types.underlying? t → s.unit.defaultsOf t' = ds) ∧
      (ds = [] ∨ ∃ b, s.unit.types.underlying? t = some b ∧ s.unit.WritesDefaults b ds) := by
  have shared : s.unit.Shares := hs ▸ tree.analyze_shares options tracer
  refine ⟨s.unit.defaultsOf t, makeStruct_apply rec at' t given s, fun t' h => ?_, ?_⟩
  · rw [shared.defaultsOf_eq, shared.defaultsOf_eq, h]
  · rw [shared.defaultsOf_eq]
    cases hu : s.unit.types.underlying? t with
    | none => exact .inl rfl
    | some b =>
      cases hd : s.unit.fieldDefaults.get? b with
      | none => exact .inl (by rw [Option.bind_some, hd, Option.getD_none])
      | some ds =>
        rw [Option.bind_some, hd, Option.getD_some]
        exact .inr ⟨b, rfl, shared.noted hu hd⟩

section Declared

open Analysis (Steps structType resolver)

variable {tree : Tree} {options : AnalysisOptions} {tracer : Tracer} {s₁ s₂ : Analysis} {e : NodeId} {n : Node} {b t : TypeId}
  {fuel : Nat} {s : EmitState}

/-- When a struct type was evaluated in the run, whose structure is `b`, then every struct with this structure is built with
the default values of a struct type that has it. -/
theorem makeStruct_written (hbefore : Steps (.initial tree options tracer) s₁) (hn : s₁.result.tree.get? e = some n)
    (hk : n.kind = .typeStruct) (heval : structType (resolver fuel) n s₁ = .ok b s₂) (hb : b ≠ TypeTable.pending)
    (hafter : Steps s₂ (tree.analyze options tracer).state) (hs : s.unit = (tree.analyze options tracer).state.result)
    (ht : s.unit.types.underlying? t = some b) :
    ∃ e' ds, s.unit.DeclaresDefaults e' b ds ∧
      ∀ rec at' given, makeStruct rec at' t given s = buildStruct rec at' t given ds s := by
  have hsound := Steps.sound hbefore (Analysis.initial_sound tree options tracer)
  have heval' : Steps s₁ s₂ := (Analysis.structType_from (resolver fuel) hn hk).of_ok hsound heval
  have hshares : s₂.result.Shares := Steps.shares (Steps.trans hbefore heval') (Analysis.initial_shares tree options tracer)
  obtain ⟨ds, hds⟩ := Analysis.structType_noted heval hb
  have hnoted : s.unit.fieldDefaults.get? b = some ds := hs ▸ Steps.noted hafter hshares hds
  have hend : s.unit.Shares := hs ▸ tree.analyze_shares options tracer
  have hdefaults : s.unit.defaultsOf t = ds := by
    rw [hend.defaultsOf_eq, ht, Option.bind_some, hnoted, Option.getD_some]
  obtain ⟨e', hdeclares⟩ : s.unit.WritesDefaults b ds := hend.noted ht hnoted
  refine ⟨e', ds, hdeclares, fun rec at' given => ?_⟩
  rw [makeStruct_apply, hdefaults]

/-- The only struct type of its structure has its own default values. -/
theorem makeStruct_declared (hbefore : Steps (.initial tree options tracer) s₁) (hn : s₁.result.tree.get? e = some n)
    (hk : n.kind = .typeStruct) (heval : structType (resolver fuel) n s₁ = .ok b s₂) (hb : b ≠ TypeTable.pending)
    (hafter : Steps s₂ (tree.analyze options tracer).state) (hs : s.unit = (tree.analyze options tracer).state.result)
    (ht : s.unit.types.underlying? t = some b) (honly : ∀ e' ds, s.unit.DeclaresDefaults e' b ds → e' = e) :
    ∃ ds, s.unit.DeclaresDefaults e b ds ∧
      ∀ rec at' given, makeStruct rec at' t given s = buildStruct rec at' t given ds s := by
  obtain ⟨e', ds, hdeclares, hbuilt⟩ := makeStruct_written hbefore hn hk heval hb hafter hs ht
  cases honly e' ds hdeclares
  exact ⟨ds, hdeclares, hbuilt⟩

end Declared

/-- Two struct types with one structure and different default values, and a value of the second. -/
def twins : Tree where
  nodes := #[
    .typeName ["int"], .intLit 1, .field "x" 1 2, .typeStruct [3], .typeDecl "A" 4,
    .typeName ["int"], .intLit 2, .field "x" 6 7, .typeStruct [8], .typeDecl "B" 9,
    .typeName ["B"], .structLit 11 [], .letDecl "b" 0 12, { kind := .file, list := [5, 10, 13] }]
  roots := [14]

/-- Both have the default value of the first. -/
theorem twins_end :
    let e := twins.analyze {} {}
    let u := e.state.result
    e.failure = none ∧ e.hasErrors = false ∧ (u.tree.get? 12).map (·.valueType) = some 11 ∧ u.defaultsOf 11 = [2] ∧
      view? run (fun r _ => r.1.code.toList.filter (·.op = .push)) (start u {} {}) = some [{ op := .push, a := .int 1 }] := by
  decide +kernel

theorem twins_built :
    let u := (twins.analyze {} {}).state.result
    (u.tree.get? 12).map (·.valueType) = some 11 ∧ ∀ rec at' given,
      makeStruct rec at' 11 given (start u {} {}) = buildStruct rec at' 11 given [2] (start u {} {}) := by
  intro u
  obtain ⟨-, -, htype, hds, -⟩ := twins_end
  refine ⟨htype, fun rec at' given => ?_⟩
  obtain ⟨ds, hrun, hshared, -⟩ := makeStruct_shares twins {} {} (s := start u {} {}) rfl rec at' 11 given
  rw [hrun, ← hshared 11 rfl]
  exact congrArg (buildStruct rec at' 11 given · (start u {} {})) hds

/-- The value of the second is built with the default value of the first. -/
theorem twins_share_default :
    let e := twins.analyze {} {}
    let u := e.state.result
    e.failure = none ∧ e.hasErrors = false ∧
    ∃ p table s, run (start u {} {}) = .ok (p, table) s ∧
      p.code.toList.filter (·.op = .push) = [{ op := .push, a := .int 1 }] := by
  obtain ⟨hfailure, herrors, -, -, hview⟩ := twins_end
  obtain ⟨r, s, hrun, hcode⟩ := view?_eq_some hview
  exact ⟨hfailure, herrors, r.1, r.2, s, hrun, hcode⟩

end Emit

end TreeCompiler
