import TreeCompiler.Analysis.Run
import TreeCompiler.Proofs.Analysis.Reach
import TreeCompiler.Tree.Builder

/-!
# Type arguments that are found

A pattern is matched against the types of arguments part by part. When an argument has the form of its pattern with types
in place of the placeholders, matching finds these types, whatever the parts are nested in.

* `Ty.parts` : the parts that matching looks at; of a named type these are its type arguments, not its structure;
* `TypeTable.Fills xs p a` : `a` is the pattern `p` with `xs` in place of the placeholders;
  `TypeTable.Mentions i p` : placeholder `i` occurs in `p`;
* `TypeTable.Fits xs bound` : what is bound so far; `unifyAux_binds` : a match keeps it and binds what the pattern mentions;
* `Analysis.derive?_fills` : the type arguments of a call;
* `newtype_misderived` : a new name for a placeholder is taken for the placeholder.
-/

namespace TreeCompiler

/-! ## Form and parts -/

namespace Shape

/-- A shape with every part left empty. -/
def outline : Shape → Shape
  | array _ => array 0
  | map _ _ => map 0 0
  | tuple es => tuple (es.map fun _ => 0)
  | func ps v _ => func (ps.map fun _ => 0) v 0
  | struct fs => struct (fs.map fun f => { f with type := 0 })
  | union vs => union (vs.map fun f => { f with type := 0 })
  | s => s

/-- The parts by which a shape is matched; a variant without payload has none, which is matched as well. -/
def parts : Shape → List TypeId
  | array e => [e]
  | map k e => [k, e]
  | tuple es => es
  | func ps _ r => ps ++ [r]
  | struct fs | union fs => fs.map (·.type)
  | _ => []

end Shape

namespace Ty

/-- The parts by which a type is matched. -/
def parts (f : Ty) : List TypeId := if f.isNamed then f.args else f.shape.parts

theorem parts_named {f : Ty} (h : f.isNamed = true) : f.parts = f.args := if_pos h

theorem parts_bare {f : Ty} (h : f.isNamed = false) : f.parts = f.shape.parts := by simp [parts, h]

/-- The types differ in nothing but their parts. Names are compared by the generic they come from. -/
structure SameForm (origin : Nat → Nat) (f a : Ty) : Prop where
  named : f.isNamed = a.isNamed
  origin : f.isNamed = true → origin f.sym = origin a.sym
  outline : f.isNamed = false → f.shape.outline = a.shape.outline
  count : f.parts.length = a.parts.length

/-- A part is a component, or stands for no type. -/
theorem mem_components_of_parts {f : Ty} {c : TypeId} (h : c ∈ f.parts) : c = 0 ∨ c ∈ f.components := by
  unfold parts at h
  unfold components
  rw [List.mem_append]
  split at h
  · exact .inr (.inr h)
  · by_cases h0 : c = 0
    · exact .inl h0
    · refine .inr (.inl ?_)
      cases hs : f.shape <;> rw [hs] at h <;> simp_all [Shape.parts]

end Ty

namespace TypeTable

variable {t : TypeTable} {origin : Nat → Nat} {xs bound : List TypeId} {i p a : Nat} {f g : Ty}

/-! ## Types after their parts -/

/-- The parts of a type were interned before it, and only a named type has type arguments. -/
structure Layered (t : TypeTable) : Prop where
  below : ∀ (id : Nat) (ty : Ty), t.lookup? id = some ty → ∀ c : Nat, c ∈ ty.components → c < id
  bare : ∀ (id : Nat) (ty : Ty), t.lookup? id = some ty → ty.isNamed = false → ty.args = []

/-- A type can be interned whose parts have a number. -/
theorem Layered.intern (h : t.Layered) {ty : Ty} (hty : ∀ c : Nat, c ∈ ty.components → c ≤ t.size)
    (hbare : ty.isNamed = false → ty.args = []) : (t.intern ty).2.Layered where
  below id f hf c hc := by
    rcases lookup?_intern hf with hf | ⟨rfl, rfl⟩
    · exact h.below id f hf c hc
    · exact Nat.lt_succ_of_le (hty c hc)
  bare id f hf := by
    rcases lookup?_intern hf with hf | ⟨rfl, -⟩
    · exact h.bare id f hf
    · exact hbare

theorem Layered.part_lt (h : t.Layered) (hf : t.lookup? p = some f) {c : Nat} (hc : c ∈ f.parts) : c < p := by
  rcases Ty.mem_components_of_parts hc with rfl | hc
  · exact Nat.pos_of_ne_zero (lookup?_pos hf)
  · exact h.below p f hf c hc

/-! ## Placeholders -/

/-- A placeholder occurs among the parts of a type. -/
inductive Mentions (t : TypeTable) (i : Nat) : Nat → Prop
  | param {p : Nat} {f : Ty} (hf : t.lookup? p = some f) (hshape : f.shape = .param i) : Mentions t i p
  | part {p c : Nat} {f : Ty} (hf : t.lookup? p = some f) (hc : c ∈ f.parts) (hm : Mentions t i c) : Mentions t i p

theorem Mentions.pos (h : t.Mentions i p) : p ≠ 0 := by
  cases h with
  | param hf _ => exact lookup?_pos hf
  | part hf _ _ => exact lookup?_pos hf

theorem Mentions.containsAux (hl : t.Layered) (h : t.Mentions i p) {fuel : Nat} (hfuel : p < fuel) :
    t.containsAux .param fuel p = true := by
  induction h generalizing fuel with
  | param hf hshape =>
    obtain ⟨fuel, rfl⟩ := Nat.exists_eq_succ_of_ne_zero (Nat.ne_of_gt (Nat.zero_lt_of_lt hfuel))
    simp [TypeTable.containsAux, hf, Ty.kind, hshape, Shape.kind]
  | part hf hc hm ih =>
    obtain ⟨fuel, rfl⟩ := Nat.exists_eq_succ_of_ne_zero (Nat.ne_of_gt (Nat.zero_lt_of_lt hfuel))
    have hlt := hl.part_lt hf hc
    have hcomp := (Ty.mem_components_of_parts hc).resolve_left hm.pos
    simp only [TypeTable.containsAux, hf, Bool.or_eq_true, List.any_eq_true]
    exact .inr ⟨_, hcomp, ih (by omega)⟩

theorem Mentions.hasParams (hl : t.Layered) (h : t.Mentions i p) : t.hasParams p = true := by
  have hle : p ≤ t.size := by
    cases h with
    | param hf _ => exact lookup?_le hf
    | part hf _ _ => exact lookup?_le hf
  exact h.containsAux hl (by omega)

/-- `a` is the pattern `p` with the types `xs` in place of the placeholders. A placeholder under a new name has no rule. -/
inductive Fills (t : TypeTable) (origin : Nat → Nat) (xs : List TypeId) : Nat → Nat → Prop
  | ground {p : Nat} (hp : t.hasParams p = false) : Fills t origin xs p p
  | param {p x i : Nat} {f : Ty} (hf : t.lookup? p = some f) (hbare : f.isNamed = false)
      (hshape : f.shape = .param i) (hx : xs[i]? = some x) : Fills t origin xs p x
  | form {p a : Nat} {f g : Ty} (hf : t.lookup? p = some f) (hg : t.lookup? a = some g) (hkind : f.kind ≠ .param)
      (hform : f.SameForm origin g)
      (hparts : ∀ k c d : Nat, f.parts[k]? = some c → g.parts[k]? = some d → Fills t origin xs c d) :
      Fills t origin xs p a

/-! ## Matching -/

/-- Matching parts one after another. -/
def unifyParts (t : TypeTable) (origin : Nat → Nat) (fuel : Nat) (ps : List (TypeId × TypeId)) (bound : List TypeId) :
    Option (List TypeId) :=
  ps.foldlM (fun b e => t.unifyAux origin fuel e.1 e.2 b) bound

theorem unifyParts_append {fuel : Nat} {ps qs : List (TypeId × TypeId)} :
    t.unifyParts origin fuel (ps ++ qs) bound = (t.unifyParts origin fuel ps bound).bind (t.unifyParts origin fuel qs) :=
  List.foldlM_append ..

theorem unifyParts_cons {fuel : Nat} (e : TypeId × TypeId) (ps : List (TypeId × TypeId)) (bound : List TypeId) :
    t.unifyParts origin fuel (e :: ps) bound = (t.unifyAux origin fuel e.1 e.2 bound).bind (t.unifyParts origin fuel ps) :=
  List.foldlM_cons ..

theorem unifyParts_single {fuel : Nat} (e : TypeId × TypeId) :
    t.unifyParts origin fuel [e] = t.unifyAux origin fuel e.1 e.2 := by
  funext bound
  simp [unifyParts]

theorem length_of_blank {xs ys : List TypeId} (h : (xs.map fun _ => 0) = ys.map fun _ => (0 : TypeId)) :
    xs.length = ys.length := by
  simpa using congrArg List.length h

theorem names_of_blank {fs gs : List TyField}
    (h : (fs.map fun f => { f with type := 0 }) = gs.map fun f => { f with type := 0 }) :
    fs.map (·.name) = gs.map (·.name) ∧ fs.length = gs.length := by
  refine ⟨?_, by simpa using congrArg List.length h⟩
  simpa [Function.comp_def] using congrArg (List.map TyField.name) h

/-- A type with placeholders has parts, or is one. -/
theorem Layered.not_scalar (h : t.Layered) (hp : t.hasParams p = true) (hf : t.lookup? p = some f)
    (hname : f.isNamed = false) (hkind : f.kind ≠ .param) (k : TypeKind) : f.shape ≠ .scalar k := by
  intro hshape
  simp [hasParams, contains, containsAux, hf, hkind, Ty.components, hshape, h.bare p f hf hname] at hp

/-- Types of one form are matched by their parts. -/
theorem unifyAux_form {fuel : Nat} (hl : t.Layered) (hp : t.hasParams p = true) (hf : t.lookup? p = some f)
    (hg : t.lookup? a = some g) (hkind : f.kind ≠ .param) (hform : f.SameForm origin g) :
    t.unifyAux origin (fuel + 1) p a bound = t.unifyParts origin fuel (f.parts.zip g.parts) bound := by
  unfold TypeTable.unifyAux
  simp only [hp, hf, hg, Bool.not_true, Bool.false_eq_true, ↓reduceIte]
  split
  · rename_i hshape
    exact absurd (by rw [Ty.kind, hshape]; rfl) hkind
  · rename_i hparam
    cases hname : f.isNamed with
    | true =>
      have hname' := hform.named.symm.trans hname
      have hcount := hform.count
      rw [Ty.parts_named hname, Ty.parts_named hname'] at hcount ⊢
      simp [hname', hform.origin hname, hcount, unifyParts]
    | false =>
      have hname' := hform.named.symm.trans hname
      have hout := hform.outline hname
      have hscalar := hl.not_scalar hp hf hname hkind
      rw [Ty.parts_bare hname, Ty.parts_bare hname']
      generalize f.shape = s at hout hscalar hparam
      generalize g.shape = s' at hout
      simp only [Bool.false_eq_true, ↓reduceIte]
      cases s <;> cases s' <;> simp only [Shape.outline, reduceCtorEq] at hout
      case scalar.scalar k _ => exact absurd rfl (hscalar k)
      case array.array e e' =>
        rw [Shape.parts, Shape.parts, List.zip_cons_cons, List.zip_nil_left, unifyParts_single]
      case map.map k e k' e' =>
        rw [Shape.parts, Shape.parts, List.zip_cons_cons, unifyParts_cons, List.zip_cons_cons, List.zip_nil_left,
          unifyParts_single]
      case tuple.tuple es es' =>
        have hcount := length_of_blank (Shape.tuple.inj hout)
        simp [Shape.parts, hcount, unifyParts]
      case func.func ps v r ps' v' r' =>
        have hcount := length_of_blank (Shape.func.inj hout).1
        rw [Shape.parts, Shape.parts, List.zip_append hcount, unifyParts_append, List.zip_cons_cons, List.zip_nil_left,
          unifyParts_single]
        simp only [hcount, ne_eq, not_true_eq_false, ↓reduceIte]
        rfl
      case struct.struct fs fs' =>
        obtain ⟨hnames, hcount⟩ := names_of_blank (Shape.struct.inj hout)
        simp [Shape.parts, hnames, hcount, unifyParts]
      case union.union vs vs' =>
        obtain ⟨hnames, hcount⟩ := names_of_blank (Shape.union.inj hout)
        simp [Shape.parts, hnames, hcount, unifyParts]
      case param.param i _ => exact absurd rfl (hparam i)

/-! ## What is bound -/

/-- Each placeholder is free or bound to its type. -/
def Fits (xs bound : List TypeId) : Prop := List.Forall₂ (fun b x => b = 0 ∨ b = x) bound xs

theorem Fits.get? (h : Fits xs bound) {x : TypeId} (hx : xs[i]? = some x) :
    ∃ b, bound[i]? = some b ∧ (b = 0 ∨ b = x) := by
  induction h generalizing i with
  | nil => cases hx
  | cons hb _ ih =>
    cases i with
    | zero =>
      cases hx
      exact ⟨_, rfl, hb⟩
    | succ i => exact ih hx

theorem Fits.set (h : Fits xs bound) {x : TypeId} (hx : xs[i]? = some x) : Fits xs (bound.set i x) := by
  induction h generalizing i with
  | nil => cases hx
  | cons hb hrest ih =>
    cases i with
    | zero =>
      cases hx
      exact .cons (.inr rfl) hrest
    | succ i => exact .cons hb (ih hx)

theorem Fits.free (xs : List TypeId) : Fits xs (List.replicate xs.length 0) := by
  induction xs with
  | nil => exact .nil
  | cons x xs ih => exact .cons (.inl rfl) ih

/-- What a match does to the bindings: they fit still, none is lost, and the placeholders of `made` are bound. -/
structure Binds (xs bound : List TypeId) (made : Nat → Prop) (bound' : List TypeId) : Prop where
  fits : Fits xs bound'
  kept : ∀ i : Nat, bound[i]? = xs[i]? → bound'[i]? = xs[i]?
  made : ∀ i : Nat, made i → bound'[i]? = xs[i]?

/-- Parts that match one by one match together. -/
theorem unifyParts_binds {fuel : Nat} {ps : List (TypeId × TypeId)}
    (h : ∀ e ∈ ps, ∀ bound, Fits xs bound →
      ∃ bound', t.unifyAux origin fuel e.1 e.2 bound = some bound' ∧ Binds xs bound (t.Mentions · e.1) bound')
    (hfits : Fits xs bound) :
    ∃ bound', t.unifyParts origin fuel ps bound = some bound' ∧
      Binds xs bound (fun i => ∃ e ∈ ps, t.Mentions i e.1) bound' := by
  induction ps generalizing bound with
  | nil => exact ⟨bound, rfl, hfits, fun _ hk => hk, fun _ hm => by
    obtain ⟨_, he, -⟩ := hm
    cases he⟩
  | cons e ps ih =>
    obtain ⟨b₁, h₁, hb₁⟩ := h e List.mem_cons_self bound hfits
    obtain ⟨b₂, h₂, hb₂⟩ := ih (fun e he => h e (List.mem_cons_of_mem _ he)) hb₁.fits
    refine ⟨b₂, by rw [unifyParts_cons, h₁]; exact h₂, hb₂.fits, fun i hi => hb₂.kept i (hb₁.kept i hi), ?_⟩
    rintro i ⟨e', he', hm⟩
    rcases List.mem_cons.1 he' with rfl | he'
    · exact hb₂.kept i (hb₁.made i hm)
    · exact hb₂.made i ⟨e', he', hm⟩

/-- A bare placeholder mentions itself only. -/
theorem Mentions.of_param {j : Nat} (hf : t.lookup? p = some f) (hbare : f.isNamed = false) (hshape : f.shape = .param i)
    (h : t.Mentions j p) : j = i := by
  cases h with
  | param hf' hshape' =>
    cases hf.symm.trans hf'
    exact Shape.param.inj (hshape'.symm.trans hshape)
  | part hf' hc _ =>
    cases hf.symm.trans hf'
    rw [Ty.parts_bare hbare, hshape] at hc
    cases hc

/-- A placeholder takes the type that stands for it, or has it already. -/
theorem unifyAux_param {fuel : Nat} {x : TypeId} (hp : t.hasParams p = true) (hf : t.lookup? p = some f)
    (hbare : f.isNamed = false) (hshape : f.shape = .param i) (hx : xs[i]? = some x) (hfits : Fits xs bound) :
    ∃ bound', t.unifyAux origin (fuel + 1) p x bound = some bound' ∧ Binds xs bound (t.Mentions · p) bound' := by
  obtain ⟨b, hb, hor⟩ := hfits.get? hx
  have hmentions {j : Nat} (hj : t.Mentions j p) : j = i := hj.of_param hf hbare hshape
  unfold TypeTable.unifyAux
  simp only [hp, hf, hshape, hb, Bool.not_true, Bool.false_eq_true, ↓reduceIte]
  cases b with
  | zero =>
    refine ⟨bound.set i x, rfl, hfits.set hx, fun j hj => ?_, fun j hj => ?_⟩
    · rw [List.getElem?_set]
      split
      · rename_i hij
        rw [← hij, hx, if_pos (List.getElem?_eq_some_iff.1 hb).1]
      · exact hj
    · rw [hmentions hj, List.getElem?_set_self (List.getElem?_eq_some_iff.1 hb).1, hx]
  | succ b =>
    obtain rfl := hor.resolve_left (Nat.succ_ne_zero b)
    refine ⟨bound, if_pos rfl, hfits, fun j hj => hj, fun j hj => ?_⟩
    rw [hmentions hj, hb, hx]

/-- A pattern without placeholders binds nothing and is not compared. -/
theorem unifyAux_ground {fuel : Nat} (hl : t.Layered) (hp : t.hasParams p = false) (hfits : Fits xs bound) :
    ∃ bound', t.unifyAux origin (fuel + 1) p a bound = some bound' ∧ Binds xs bound (t.Mentions · p) bound' := by
  refine ⟨bound, by simp [TypeTable.unifyAux, hp], hfits, fun i hi => hi, fun i hm => ?_⟩
  rw [hm.hasParams hl] at hp
  cases hp

/-- A type without a number has no placeholders. -/
theorem le_size_of_hasParams (h : t.hasParams p = true) : p ≤ t.size := by
  cases hf : t.lookup? p with
  | none => simp [hasParams, contains, containsAux, hf] at h
  | some f => exact lookup?_le hf

theorem Mentions.of_form (hf : t.lookup? p = some f) (hkind : f.kind ≠ .param) (h : t.Mentions i p) :
    ∃ c ∈ f.parts, t.Mentions i c := by
  cases h with
  | param hf' hshape =>
    cases hf.symm.trans hf'
    exact absurd (by rw [Ty.kind, hshape]; rfl) hkind
  | part hf' hc hm =>
    cases hf.symm.trans hf'
    exact ⟨_, hc, hm⟩

/-- A match of a type that has the form of its pattern succeeds, and binds what the pattern mentions. The fuel bounds the
depth of the pattern, as its parts have lower numbers. -/
theorem unifyAux_binds (hl : t.Layered) (h : t.Fills origin xs p a) {fuel : Nat}
    (hfuel : t.hasParams p = true → p ≤ fuel) (hfits : Fits xs bound) :
    ∃ bound', t.unifyAux origin (fuel + 1) p a bound = some bound' ∧ Binds xs bound (t.Mentions · p) bound' := by
  induction h generalizing fuel bound with
  | ground hp => exact unifyAux_ground hl hp hfits
  | param hf hbare hshape hx => exact unifyAux_param ((Mentions.param hf hshape).hasParams hl) hf hbare hshape hx hfits
  | @form p a f g hf hg hkind hform _ ih =>
    cases hp : t.hasParams p with
    | false => exact unifyAux_ground hl hp hfits
    | true =>
      have hle : (p : Nat) ≤ fuel := hfuel hp
      have hpos : p ≠ 0 := lookup?_pos hf
      obtain ⟨fuel, rfl⟩ := Nat.exists_eq_succ_of_ne_zero (show fuel ≠ 0 by omega)
      rw [unifyAux_form hl hp hf hg hkind hform]
      have hparts : ∀ e ∈ f.parts.zip g.parts, ∀ bound, Fits xs bound → ∃ bound',
          t.unifyAux origin (fuel + 1) e.1 e.2 bound = some bound' ∧ Binds xs bound (t.Mentions · e.1) bound' := by
        intro e he bound hfits
        obtain ⟨k, hk⟩ := List.mem_iff_getElem?.1 he
        obtain ⟨hc, hd⟩ := List.getElem?_zip_eq_some.1 hk
        have hlt := hl.part_lt hf (List.mem_of_getElem? hc)
        exact ih k e.1 e.2 hc hd (fun _ => by omega) hfits
      obtain ⟨bound', hrun, hb⟩ := unifyParts_binds hparts hfits
      refine ⟨bound', hrun, hb.fits, hb.kept, fun i hm => hb.made i ?_⟩
      obtain ⟨c, hc, hmc⟩ := hm.of_form hf hkind
      rw [← List.map_fst_zip (Nat.le_of_eq hform.count)] at hc
      obtain ⟨e, he, rfl⟩ := List.mem_map.1 hc
      exact ⟨e, he, hmc⟩

/-! ## All type arguments -/

/-- The type arguments with which a pattern becomes the given types, when each of them is bound. -/
def derived? (t : TypeTable) (origin : Nat → Nat) (count : Nat) (pat actuals : List TypeId) : Option (List TypeId) :=
  (t.unifyParts origin (t.size + 2) (pat.zip actuals) (List.replicate count 0)).bind fun b =>
    if b.contains 0 then none else some b

theorem derived?_fills (hl : t.Layered) (h0 : 0 ∉ xs) {pat actuals : List TypeId}
    (hfills : List.Forall₂ (t.Fills origin xs) pat actuals)
    (hmentions : ∀ i < xs.length, ∃ p ∈ pat, t.Mentions i p) :
    t.derived? origin xs.length pat actuals = some xs := by
  have hparts : ∀ e ∈ pat.zip actuals, ∀ bound, Fits xs bound → ∃ bound',
      t.unifyAux origin (t.size + 2) e.1 e.2 bound = some bound' ∧ Binds xs bound (t.Mentions · e.1) bound' := by
    intro e he bound hfits
    refine unifyAux_binds hl ?_ (fun hp => ?_) hfits
    · exact (List.forall₂_iff_zip.1 hfills).2 he
    · exact Nat.le_succ_of_le (le_size_of_hasParams hp)
  obtain ⟨bound, hrun, hb⟩ := unifyParts_binds hparts (Fits.free xs)
  have hall : bound = xs := by
    refine List.ext_getElem? fun i => ?_
    by_cases hi : i < xs.length
    · obtain ⟨p, hp, hm⟩ := hmentions i hi
      rw [← List.map_fst_zip (Nat.le_of_eq hfills.length_eq)] at hp
      obtain ⟨e, he, rfl⟩ := List.mem_map.1 hp
      exact hb.made i ⟨e, he, hm⟩
    · have hlen : bound.length = xs.length := hb.fits.length_eq
      rw [List.getElem?_eq_none (by omega), List.getElem?_eq_none (by omega)]
  rw [derived?, hrun, hall]
  simp [h0]

/-! ## Checks -/

def isFilled (t : TypeTable) (origin : Nat → Nat) (xs : List TypeId) : Nat → Nat → Nat → Bool
  | 0, _, _ => false
  | fuel + 1, p, a =>
    !t.hasParams p && p == a ||
      match t.lookup? p with
      | none => false
      | some f =>
        match f.shape with
        | .param i => !f.isNamed && xs[i]? == some a
        | _ =>
          match t.lookup? a with
          | none => false
          | some g =>
            f.kind != .param && f.isNamed == g.isNamed &&
              (if f.isNamed then origin f.sym == origin g.sym else f.shape.outline == g.shape.outline) &&
              f.parts.length == g.parts.length && (f.parts.zip g.parts).all fun e => isFilled t origin xs fuel e.1 e.2

theorem fills_of_isFilled (fuel : Nat) (h : t.isFilled origin xs fuel p a = true) : t.Fills origin xs p a := by
  induction fuel generalizing p a with
  | zero => cases h
  | succ fuel ih =>
    rw [isFilled, Bool.or_eq_true, Bool.and_eq_true, Bool.not_eq_true', beq_iff_eq] at h
    rcases h with ⟨hp, rfl⟩ | h
    · exact .ground hp
    · cases hf : t.lookup? p with
      | none =>
        rw [hf] at h
        cases h
      | some f =>
        rw [hf] at h
        dsimp only at h
        split at h
        · rename_i i hshape
          rw [Bool.and_eq_true, Bool.not_eq_true', beq_iff_eq] at h
          exact .param hf h.1 hshape h.2
        · cases hg : t.lookup? a with
          | none =>
            rw [hg] at h
            cases h
          | some g =>
            rw [hg] at h
            simp only [Bool.and_eq_true, beq_iff_eq, bne_iff_ne, List.all_eq_true] at h
            obtain ⟨⟨⟨⟨hkind, hnamed⟩, hform⟩, hcount⟩, hall⟩ := h
            refine .form hf hg hkind ⟨hnamed, fun hn => ?_, fun hn => ?_, hcount⟩ fun k c d hc hd => ?_
            · simpa [hn] using hform
            · simpa [hn] using hform
            · exact ih (hall (c, d) (List.mem_of_getElem? (List.getElem?_zip_eq_some.2 ⟨hc, hd⟩)))

def isMentioned (t : TypeTable) (i : Nat) : Nat → Nat → Bool
  | 0, _ => false
  | fuel + 1, p =>
    match t.lookup? p with
    | none => false
    | some f => f.shape == .param i || f.parts.any (isMentioned t i fuel)

theorem mentions_of_isMentioned (fuel : Nat) (h : t.isMentioned i fuel p = true) : t.Mentions i p := by
  induction fuel generalizing p with
  | zero => cases h
  | succ fuel ih =>
    unfold isMentioned at h
    cases hf : t.lookup? p with
    | none =>
      rw [hf] at h
      cases h
    | some f =>
      rw [hf] at h
      simp only [Bool.or_eq_true, beq_iff_eq, List.any_eq_true] at h
      rcases h with hshape | ⟨c, hc, hm⟩
      · exact .param hf hshape
      · exact .part hf hc (ih hm)

theorem layered_of_entries (h : ∀ k (hk : k < t.entries.size),
    (∀ c ∈ t.entries[k].2.components, c ≤ k) ∧ (t.entries[k].2.isNamed = false → t.entries[k].2.args = [])) :
    t.Layered := by
  have hentry (id : Nat) (ty : Ty) (hty : t.lookup? id = some ty) :
      ∃ (k : Nat) (hk : k < t.entries.size), id = k + 1 ∧ ty = t.entries[k].2 := by
    have h0 : id ≠ 0 := lookup?_pos hty
    rw [lookup?, if_neg h0] at hty
    obtain ⟨e, he, rfl⟩ := Option.map_eq_some_iff.1 hty
    obtain ⟨hk, rfl⟩ := Array.getElem?_eq_some_iff.1 he
    exact ⟨id - 1, hk, by omega, rfl⟩
  refine ⟨fun id ty hty c hc => ?_, fun id ty hty => ?_⟩
  · obtain ⟨k, hk, rfl, rfl⟩ := hentry id ty hty
    exact Nat.lt_succ_of_le ((h k hk).1 c hc)
  · obtain ⟨k, hk, -, rfl⟩ := hentry id ty hty
    exact (h k hk).2

end TypeTable

namespace Analysis

variable {rec : Resolver} {s : Analysis} {gen : SymbolId} {g : Symbol} {tpl : Template} {pat : List TypeId}

theorem pattern?_known (hg : s.result.scopes.symbol? gen = some g) (htpl : g.template = some tpl)
    (hpat : tpl.pattern = some pat) : pattern? rec gen s = .ok (some pat) s := by
  unfold pattern?
  rw [bind_apply (symbol_ok hg), htpl]
  simp only [hpat]
  rfl

theorem derive?_known (hg : s.result.scopes.symbol? gen = some g) (htpl : g.template = some tpl)
    (hpat : tpl.pattern = some pat) (actuals : List TypeId) : derive? rec gen actuals s =
      .ok (s.result.types.derived? (originOf s.result.scopes) tpl.params.length pat actuals) s := by
  unfold derive?
  rw [bind_apply (pattern?_known hg htpl hpat)]
  dsimp only
  rw [bind_apply (symbol_ok hg), htpl]
  rfl

/-- A generic function whose pattern mentions every type parameter: from arguments that have the form of the pattern with
`xs` in place of the placeholders, the type arguments `xs` are found. -/
theorem derive?_fills (rec : Resolver) {xs actuals : List TypeId} (hl : s.result.types.Layered)
    (hg : s.result.scopes.symbol? gen = some g) (htpl : g.template = some tpl) (hpat : tpl.pattern = some pat)
    (hcount : xs.length = tpl.params.length) (h0 : 0 ∉ xs)
    (hmentions : ∀ i < tpl.params.length, ∃ p ∈ pat, s.result.types.Mentions i p)
    (hfills : List.Forall₂ (s.result.types.Fills (originOf s.result.scopes) xs) pat actuals) :
    derive? rec gen actuals s = .ok (some xs) s := by
  rw [← hcount] at hmentions
  rw [derive?_known hg htpl hpat, ← hcount, TypeTable.derived?_fills hl h0 hfills hmentions]

/-- A function of two type parameters, called with a value of a generic type and an array of tuples. -/
def boxed : Tree where
  nodes := #[
    .typeName ["T"], .field "v" 1 0, .typeStruct [2], { Node.typeDecl "Box" 3 with params := ["T"] },
    .typeName ["T"], .instanceType "Box" [5], .param "x" 6,
    .typeName ["U"], .typeName ["T"], .typeTuple [8, 9], .typeArray 10, .param "y" 11,
    .typeName ["int"], .intLit 0, .returnStmt 14, .block [15],
    { Node.func "g" [7, 12] 13 16 with params := ["T", "U"] },
    .typeName ["int"], .instanceType "Box" [18], .letDecl "b" 19 0,
    .typeName ["bool"], .typeName ["int"], .typeTuple [21, 22], .typeArray 23, .letDecl "a" 24 0,
    .ident ["g"], .ident ["b"], .ident ["a"], .call 26 [27, 28], .exprStmt 29,
    { kind := .file, list := [4, 17, 20, 25, 30] }]
  roots := [31]

theorem boxed_end : ∃ s, s = after run (initial boxed {} {}) ∧
    (s.result.scopes.symbol? 21).map (fun sym => (sym.origin, sym.templateArgs)) = some (10, [5, 4]) ∧
    (s.funcs.get? 21).map (·.params) = some [10, 12] ∧
    ((s.result.scopes.symbol? 10).bind (·.template)).map (fun tpl => (tpl.pattern, tpl.params.length)) =
      some (some [16, 18], 2) ∧
    (s.result.types.isMentioned 0 9 16 = true ∧ s.result.types.isMentioned 1 9 18 = true) ∧
    (s.result.types.isFilled (originOf s.result.scopes) [5, 4] 9 16 10 = true ∧
      s.result.types.isFilled (originOf s.result.scopes) [5, 4] 9 18 12 = true) ∧
    ∀ k (hk : k < s.result.types.entries.size), (∀ c ∈ s.result.types.entries[k].2.components, c ≤ k) ∧
      (s.result.types.entries[k].2.isNamed = false → s.result.types.entries[k].2.args = []) :=
  ⟨_, rfl, by decide +kernel⟩

/-- The parameter types of the instance for integers and truth values lead back to these two. -/
theorem boxed_derived : ∃ s, s = after run (initial boxed {} {}) ∧
    ∃ gen inst : SymbolId, (s.result.scopes.symbol? inst).map (·.origin) = some gen ∧
      (s.result.scopes.symbol? inst).map (·.templateArgs) = some [TypeTable.int, TypeTable.bool] ∧
      ∃ actuals : List TypeId, (s.funcs.get? inst).map (·.params) = some actuals ∧
        derive? (resolver 0) gen actuals s = .ok (some [TypeTable.int, TypeTable.bool]) s := by
  obtain ⟨s, hs, hinst, hparams, hknown, hmentioned, hfilled, hentries⟩ := boxed_end
  obtain ⟨sym, hsym, hpair⟩ := Option.map_eq_some_iff.1 hinst
  obtain ⟨tpl, hbind, htemplate⟩ := Option.map_eq_some_iff.1 hknown
  obtain ⟨g, hg, htpl⟩ := Option.bind_eq_some_iff.1 hbind
  obtain ⟨hpat, hcount⟩ := Prod.mk.inj htemplate
  refine ⟨s, hs, 10, 21, ?_, ?_, [10, 12], hparams, ?_⟩
  · rw [hsym]
    exact congrArg some (Prod.mk.inj hpair).1
  · rw [hsym]
    exact congrArg some (Prod.mk.inj hpair).2
  · refine derive?_fills (resolver 0) (TypeTable.layered_of_entries hentries) hg htpl hpat hcount.symm (by decide) ?_ ?_
    · rw [hcount]
      intro i hi
      obtain rfl | rfl : i = 0 ∨ i = 1 := by omega
      · exact ⟨16, by decide, TypeTable.mentions_of_isMentioned 9 hmentioned.1⟩
      · exact ⟨18, by decide, TypeTable.mentions_of_isMentioned 9 hmentioned.2⟩
    · exact .cons (TypeTable.fills_of_isFilled 9 hfilled.1) (.cons (TypeTable.fills_of_isFilled 9 hfilled.2) .nil)

/-- A new name for a type parameter. -/
def renamed : Tree where
  nodes := #[
    .typeName ["T"], { Node.typeDecl "W" 1 with params := ["T"] },
    .typeName ["T"], .instanceType "W" [3], .param "x" 4, .typeName ["int"], .intLit 0, .returnStmt 7, .block [8],
    { Node.func "f" [5] 6 9 with params := ["T"] },
    .typeName ["int"], .instanceType "W" [11], .letDecl "w" 12 0,
    .typeName ["int"], .instanceIdent "f" [14], .ident ["w"], .call 15 [16], .exprStmt 17,
    .ident ["f"], .ident ["w"], .call 19 [20], .exprStmt 21,
    { kind := .file, list := [2, 10, 13, 18, 22] }]
  roots := [23]

/-- The type argument that an analysis derives for a function. -/
def derivedBy (s : Analysis) (gen : SymbolId) (actuals : List TypeId) : Option (List TypeId) :=
  match derive? (resolver 0) gen actuals s with
  | .ok args _ => args
  | .error _ _ => none

/-- From the parameter type of the instance for integers, the new name itself is derived and not the integers. -/
theorem newtype_misderived :
    let s := after run (initial renamed {} {})
    ∃ gen inst w : Nat, (s.result.scopes.symbol? inst).map (·.origin) = some gen ∧
      (s.result.scopes.symbol? inst).map (·.templateArgs) = some [TypeTable.int] ∧
      (s.funcs.get? inst).map (·.params) = some [w] ∧ w ≠ TypeTable.int ∧ derivedBy s gen [w] = some [w] :=
  ⟨10, 15, 9, by decide +kernel⟩

end Analysis

end TreeCompiler
