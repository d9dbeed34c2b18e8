import Mathlib.Data.Finset.Card
import Mathlib.Data.List.Forall2
import Mathlib.Order.Monotone.Basic
import TreeCompiler.Proofs.Types.Identity

/-!
# Acceptance and conversion

Acceptance goes down two types at once, with formal and actual type changing sides at the parameters of a function. A
written conversion compares structures as wholes and kinds, so not everything that is accepted can be written as one.

* `settled_of_bounded` : fuel beyond the number of what can be met makes no difference;
* `TypeTable.Occurs` : a kind stands somewhere in a type; `contains_iff` : the search finds it in every table, also where
  types run in a circle;
* `Shape.Takes` : structures of one form with related parts; `acceptsAux_succ` : acceptance is identity, a dynamic formal
  type, or acceptance of the parts;
* `TypeTable.accepts_preorder` : acceptance is a preorder on the types without pending parts;
* `TypeTable.explicitCast_iff` : what can be converted; `explicitCast_of_accepted` : which accepted types can;
* `TypeTable.dynamicElement_uncastable` : an array that is accepted and cannot be converted;
* `TypeTable.accepts_void`, `explicitCast_void`, `binaryUpper_void` : the rules refuse a value of type void, unless dynamic
  or void itself stands on the other side.
-/

namespace TreeCompiler

/-! ## Fuel -/

section Fuel

open Classical in
/-- The numbers up to `n` that a statement with this much fuel holds of. -/
noncomputable def heldUpTo (P : Nat → Nat → Prop) (n fuel : Nat) : Finset Nat := (Finset.range (n + 1)).filter (P fuel)

variable {P : Nat → Nat → Prop} {n fuel : Nat}

theorem mem_heldUpTo {id : Nat} : id ∈ heldUpTo P n fuel ↔ id ≤ n ∧ P fuel id := by
  classical
  rw [heldUpTo, Finset.mem_filter, Finset.mem_range, Nat.lt_succ_iff]

theorem heldUpTo_subset (h : ∀ id, P fuel id → P (fuel + 1) id) : heldUpTo P n fuel ⊆ heldUpTo P n (fuel + 1) :=
  fun id hid => mem_heldUpTo.2 ⟨(mem_heldUpTo.1 hid).1, h id (mem_heldUpTo.1 hid).2⟩

theorem card_heldUpTo_le : (heldUpTo P n fuel).card ≤ n + 1 := by
  classical
  rw [← Finset.card_range (n + 1), heldUpTo]
  exact Finset.card_filter_le _ _

/-- Numbers beyond `n` are all like 0, so what holds of no further number up to `n` holds of no further one at all. -/
theorem settled_of_card (hmono : ∀ id, P fuel id → P (fuel + 1) id)
    (hbeyond : ∀ fuel id, n < id → (P fuel id ↔ P fuel 0))
    (hcard : (heldUpTo P n fuel).card = (heldUpTo P n (fuel + 1)).card) : ∀ id, P (fuel + 1) id → P fuel id := by
  have heq : heldUpTo P n fuel = heldUpTo P n (fuel + 1) :=
    Finset.eq_of_subset_of_card_le (heldUpTo_subset hmono) hcard.ge
  have hwithin (id : Nat) (hle : id ≤ n) (hid : P (fuel + 1) id) : P fuel id :=
    (mem_heldUpTo.1 (heq ▸ mem_heldUpTo.2 ⟨hle, hid⟩)).2
  intro id hid
  rcases Nat.lt_or_ge n id with hlt | hle
  · exact (hbeyond _ _ hlt).2 (hwithin 0 (Nat.zero_le n) ((hbeyond _ _ hlt).1 hid))
  · exact hwithin id hle hid

/-- What holds of nothing without fuel and of more numbers the more fuel is left holds of no further number after `n + 1`
steps: the sets of numbers grow until two of them are equal. -/
theorem settled_of_bounded (hzero : ∀ id, ¬P 0 id)
    (hlift : ∀ l m, (∀ id, P l id → P m id) → ∀ id, P (l + 1) id → P (m + 1) id)
    (hbeyond : ∀ fuel id, n < id → (P fuel id ↔ P fuel 0)) : ∀ id, P (n + 2) id → P (n + 1) id := by
  have hmono (fuel : Nat) : ∀ id, P fuel id → P (fuel + 1) id := by
    induction fuel with
    | zero => exact fun id h => absurd h (hzero id)
    | succ fuel ih => exact hlift _ _ ih
  have hgrow : Monotone fun fuel => (heldUpTo P n fuel).card :=
    monotone_nat_of_le_succ fun fuel => Finset.card_le_card (heldUpTo_subset (hmono fuel))
  have hstable (fuel : Nat) (hcard : (heldUpTo P n fuel).card = (heldUpTo P n (fuel + 1)).card) :
      (heldUpTo P n (fuel + 1)).card = (heldUpTo P n (fuel + 2)).card := by
    refine congrArg Finset.card ((heldUpTo_subset (hmono _)).antisymm fun id hid => ?_)
    obtain ⟨hle, hid⟩ := mem_heldUpTo.1 hid
    exact mem_heldUpTo.2 ⟨hle, hlift _ _ (settled_of_card (hmono _) hbeyond hcard) id hid⟩
  exact settled_of_card (hmono _) hbeyond
    (Nat.stabilises_of_monotone hgrow (fun _ => card_heldUpTo_le) hstable (Nat.le_succ _)).symm

end Fuel

namespace TypeTable

variable {t : TypeTable} {k : TypeKind}

/-! ## Kinds that occur in a type -/

/-- A type of kind `k` stands somewhere in the type of a number. A number that stands for no type counts as pending. -/
inductive Occurs (t : TypeTable) (k : TypeKind) : Nat → Prop
  | unknown {id : Nat} (h : t.lookup? id = none) (hk : k = .pending) : Occurs t k id
  | self {id : Nat} {ty : Ty} (h : t.lookup? id = some ty) (hk : ty.kind = k) : Occurs t k id
  | part {id c : Nat} {ty : Ty} (h : t.lookup? id = some ty) (hc : c ∈ ty.components) (ho : Occurs t k c) : Occurs t k id

theorem containsAux_unknown {id fuel : Nat} (h : t.lookup? id = none) :
    t.containsAux k (fuel + 1) id = true ↔ k = .pending := by
  simp [containsAux, h]

theorem containsAux_known {id fuel : Nat} {ty : Ty} (h : t.lookup? id = some ty) :
    t.containsAux k (fuel + 1) id = true ↔ ty.kind = k ∨ ∃ c ∈ ty.components, t.containsAux k fuel c = true := by
  simp [containsAux, h]

theorem occurs_of_containsAux {fuel id : Nat} (h : t.containsAux k fuel id = true) : t.Occurs k id := by
  induction fuel generalizing id with
  | zero => cases h
  | succ fuel ih =>
    cases hl : t.lookup? id with
    | none => exact .unknown hl ((containsAux_unknown hl).1 h)
    | some ty =>
      rcases (containsAux_known hl).1 h with hk | ⟨c, hc, hcont⟩
      · exact .self hl hk
      · exact .part hl hc (ih hcont)

/-- What is found with `m` steps of fuel and so with `n` is found with one step more each. -/
theorem containsAux_lift {m n : Nat} (h : ∀ id, t.containsAux k m id = true → t.containsAux k n id = true) {id : Nat}
    (hid : t.containsAux k (m + 1) id = true) : t.containsAux k (n + 1) id = true := by
  cases hl : t.lookup? id with
  | none => exact (containsAux_unknown hl).2 ((containsAux_unknown hl).1 hid)
  | some ty =>
    apply (containsAux_known hl).2
    rcases (containsAux_known hl).1 hid with hk | ⟨c, hc, hcont⟩
    · exact .inl hk
    · exact .inr ⟨c, hc, h c hcont⟩

/-- Numbers beyond the table are all like 0. -/
theorem containsAux_beyond {fuel id : Nat} (hid : t.size < id) : t.containsAux k fuel id = t.containsAux k fuel 0 := by
  have hnone : t.lookup? id = none := lookup?_beyond hid
  cases fuel with
  | zero => rfl
  | succ fuel =>
    apply Bool.eq_iff_iff.2
    rw [containsAux_unknown hnone, containsAux_unknown rfl]

/-- One step more than `size + 1` finds the kind in no further type. -/
theorem containsAux_settled {id : Nat} : t.containsAux k (t.size + 2) id = true → t.containsAux k (t.size + 1) id = true :=
  settled_of_bounded (P := fun fuel id => t.containsAux k fuel id = true) (fun _ => Bool.false_ne_true)
    (fun _ _ h _ => containsAux_lift h) (fun _ _ hid => by rw [containsAux_beyond hid]) id

theorem contains_iff {id : Nat} : t.contains id k = true ↔ t.Occurs k id := by
  refine ⟨occurs_of_containsAux, fun h => ?_⟩
  show t.containsAux k (t.size + 2) id = true
  induction h with
  | unknown hl hk => exact (containsAux_unknown hl).2 hk
  | self hl hk => exact (containsAux_known hl).2 (.inl hk)
  | part hl hc _ ih => exact (containsAux_known hl).2 (.inr ⟨_, hc, containsAux_settled ih⟩)

theorem isResolved_iff {id : Nat} : t.isResolved id = true ↔ ¬t.Occurs .pending id := by
  rw [isResolved, Bool.not_eq_true', Bool.eq_false_iff, ne_eq, contains_iff]

end TypeTable

/-! ## Acceptance -/

/-- Structures of one form whose parts are related. The parameters of a function are related the other way round. -/
inductive Shape.Takes (r : TypeId → TypeId → Prop) : Shape → Shape → Prop
  | array {e e' : TypeId} (h : r e e') : Takes r (.array e) (.array e')
  | map {k e k' e' : TypeId} (hk : r k k') (he : r e e') : Takes r (.map k e) (.map k' e')
  | tuple {es es' : List TypeId} (h : List.Forall₂ r es es') : Takes r (.tuple es) (.tuple es')
  | func {ps ps' : List TypeId} {v : Bool} {x x' : TypeId} (hp : List.Forall₂ r ps' ps) (hx : r x x') :
      Takes r (.func ps v x) (.func ps' v x')

namespace Shape.Takes

variable {r : TypeId → TypeId → Prop} {s s' s'' : Shape}

theorem forall₂_trans (hr : ∀ a b c, r a b → r b c → r a c) {xs ys zs : List TypeId} (h : List.Forall₂ r xs ys)
    (h' : List.Forall₂ r ys zs) : List.Forall₂ r xs zs := by
  induction h generalizing zs with
  | nil => exact h'
  | cons hxy _ ih =>
    cases h' with
    | cons hyz htail => exact .cons (hr _ _ _ hxy hyz) (ih htail)

/-- The parameters of the three functions are related from the last to the first. -/
theorem trans (hr : ∀ a b c, r a b → r b c → r a c) (h : s.Takes r s') (h' : s'.Takes r s'') : s.Takes r s'' := by
  cases h with
  | array h =>
    cases h' with
    | array h' => exact .array (hr _ _ _ h h')
  | map hk he =>
    cases h' with
    | map hk' he' => exact .map (hr _ _ _ hk hk') (hr _ _ _ he he')
  | tuple h =>
    cases h' with
    | tuple h' => exact .tuple (forall₂_trans hr h h')
  | func hp hx =>
    cases h' with
    | func hp' hx' => exact .func (forall₂_trans hr hp' hp) (hr _ _ _ hx hx')

/-- Related structures are compound ones of the same kind, which no table of kinds converts. -/
theorem kinds (h : s.Takes r s') : s.kind = s'.kind ∧ s.kind ≠ .dynamic ∧ s.kind ≠ .void ∧
    TypeTable.explicitKinds s.kind s.kind = false ∧ TypeTable.implicitKinds s.kind s.kind = false := by
  cases h <;> exact ⟨rfl, nofun, nofun, rfl, rfl⟩

theorem eq_of_parts (h : s.Takes r s') (helem : s.elem = s'.elem) (hkey : s.key = s'.key) (hresult : s.result = s'.result)
    (hparams : s.params = s'.params) : s = s' := by
  cases h with
  | array => exact congrArg Shape.array helem
  | map => exact congrArg₂ Shape.map hkey helem
  | tuple => exact congrArg Shape.tuple hparams
  | func =>
    simp only [Shape.params, Shape.result] at hparams hresult
    rw [hparams, hresult]

end Shape.Takes

namespace TypeTable

variable {t : TypeTable}

theorem zip_all_iff {r : TypeId → TypeId → Bool} {xs ys : List TypeId} :
    xs.length = ys.length ∧ ((xs.zip ys).all fun p => r p.1 p.2) = true ↔ List.Forall₂ (fun x y => r x y = true) xs ys := by
  rw [List.forall₂_iff_zip, List.all_eq_true]
  exact and_congr_right fun _ => ⟨fun h a b hab => h (a, b) hab, fun h p hp => h hp⟩

/-- Acceptance is identity, or the formal type is dynamic, or it goes on with the parts of types of one symbol. -/
theorem acceptsAux_succ {fuel : Nat} {formal actual : TypeId} : t.acceptsAux (fuel + 1) formal actual = true ↔
    t.isResolved formal = true ∧ t.isResolved actual = true ∧ (formal = actual ∨
      ∃ f a, t.lookup? formal = some f ∧ t.lookup? actual = some a ∧
        (f.kind = .dynamic ∨ f.sym = a.sym ∧ f.shape.Takes (fun x y => t.acceptsAux fuel x y = true) a.shape)) := by
  constructor
  · intro h
    unfold acceptsAux at h
    split at h
    · cases h
    · rename_i hres
      simp only [Bool.or_eq_true, Bool.not_eq_true', not_or, Bool.not_eq_false] at hres
      refine ⟨hres.1, hres.2, ?_⟩
      split at h
      · exact .inl ‹_›
      · split at h
        · rename_i f a hf ha
          refine .inr ⟨f, a, hf, ha, ?_⟩
          split at h
          · exact .inl ‹_›
          · split at h
            · cases h
            · rename_i hsym
              refine .inr ⟨not_not.1 hsym, ?_⟩
              generalize f.shape = s, a.shape = s' at h
              split at h
              · exact .array h
              · exact .map (Bool.and_eq_true_iff.1 h).1 (Bool.and_eq_true_iff.1 h).2
              · simp only [Bool.and_eq_true, decide_eq_true_eq] at h
                exact .tuple (zip_all_iff.1 h)
              · simp only [Bool.and_eq_true, decide_eq_true_eq] at h
                obtain ⟨⟨⟨rfl, hlen⟩, hall⟩, hx⟩ := h
                exact .func (zip_all_iff.1 ⟨hlen.symm, hall⟩) hx
              · cases h
        · cases h
  · rintro ⟨hf, ha, rfl | ⟨f, a, hlf, hla, h⟩⟩
    · simp [acceptsAux, hf]
    · simp only [acceptsAux, hf, ha, hlf, hla, Bool.not_true, Bool.or_self, Bool.false_eq_true, ↓reduceIte]
      split
      · rfl
      · rcases h with hdyn | ⟨hsym, htakes⟩
        · rw [if_pos hdyn]
        · split
          · rfl
          · rw [if_neg (not_not.2 hsym)]
            generalize f.shape = s, a.shape = s' at htakes
            cases htakes with
            | array h => exact h
            | map hk he => simp [hk, he]
            | tuple h => simpa using zip_all_iff.2 h
            | func hp hx =>
              obtain ⟨hlen, hall⟩ := zip_all_iff.2 hp
              simp [hlen, hall, hx]

theorem resolved_of_accepts {formal actual : TypeId} (h : t.accepts formal actual = true) :
    t.isResolved formal = true ∧ t.isResolved actual = true :=
  ⟨(acceptsAux_succ.1 h).1, (acceptsAux_succ.1 h).2.1⟩

/-- The induction is on the fuel and takes all three types along, as they change places at the parameters of functions. -/
theorem acceptsAux_trans {fuel : Nat} {a b c : TypeId} (hab : t.acceptsAux fuel a b = true)
    (hbc : t.acceptsAux fuel b c = true) : t.acceptsAux fuel a c = true := by
  induction fuel generalizing a b c with
  | zero => cases hab
  | succ fuel ih =>
    obtain ⟨ha, -, hab⟩ := acceptsAux_succ.1 hab
    obtain ⟨-, hc, hbc'⟩ := acceptsAux_succ.1 hbc
    rcases hab with rfl | ⟨x, y, hx, hy, hab⟩
    · exact hbc
    · rcases hbc' with rfl | ⟨y', z, hy', hz, hbc'⟩
      · exact acceptsAux_succ.2 ⟨ha, hc, .inr ⟨x, y, hx, hy, hab⟩⟩
      · obtain rfl := Option.some.inj (hy.symm.trans hy')
        refine acceptsAux_succ.2 ⟨ha, hc, .inr ⟨x, z, hx, hz, ?_⟩⟩
        rcases hab with hdyn | ⟨hsym, htakes⟩
        · exact .inl hdyn
        · rcases hbc' with hdyn | ⟨hsym', htakes'⟩
          · exact absurd (htakes.kinds.1.trans hdyn) htakes.kinds.2.1
          · exact .inr ⟨hsym.trans hsym', htakes.trans (fun _ _ _ => ih) htakes'⟩

theorem kind_of_lookup? {id : TypeId} {ty : Ty} (h : t.lookup? id = some ty) : t.kind id = ty.kind := by
  rw [kind, h]
  rfl

theorem accepts_self {a : TypeId} (h : t.isResolved a = true) : t.accepts a a = true :=
  acceptsAux_succ.2 ⟨h, h, .inl rfl⟩

/-- A type without pending parts is one of the table. -/
theorem exists_of_isResolved {a : TypeId} (h : t.isResolved a = true) : ∃ ty, t.lookup? a = some ty := by
  cases hl : t.lookup? a with
  | none => exact absurd (.unknown hl rfl) (isResolved_iff.1 h)
  | some ty => exact ⟨ty, rfl⟩

theorem accepts_of_dynamic {d a : TypeId} (hd : t.isResolved d = true) (hk : t.kind d = .dynamic)
    (ha : t.isResolved a = true) : t.accepts d a = true := by
  obtain ⟨x, hx⟩ := exists_of_isResolved hd
  obtain ⟨y, hy⟩ := exists_of_isResolved ha
  rw [kind_of_lookup? hx] at hk
  exact acceptsAux_succ.2 ⟨hd, ha, .inr ⟨x, y, hx, hy, .inl hk⟩⟩

theorem dynamic_of_accepts {a d : TypeId} (hk : t.kind d = .dynamic) (h : t.accepts a d = true) : t.kind a = .dynamic := by
  obtain ⟨-, -, rfl | ⟨x, y, hx, hy, hdyn | ⟨-, htakes⟩⟩⟩ := acceptsAux_succ.1 h
  · exact hk
  · rw [kind_of_lookup? hx, hdyn]
  · rw [kind_of_lookup? hy] at hk
    exact absurd (htakes.kinds.1.trans hk) htakes.kinds.2.1

theorem dynamic_resolved (h : initial.Grows t) : t.kind dynamic = .dynamic ∧ t.isResolved dynamic = true := by
  have hl : t.lookup? dynamic = some { shape := .scalar .dynamic } := h.lookup? (by decide +kernel)
  refine ⟨kind_of_lookup? hl, isResolved_iff.2 fun hpending => ?_⟩
  cases hpending with
  | unknown hnone => cases hl.symm.trans hnone
  | self hl' hk =>
    obtain rfl := Option.some.inj (hl.symm.trans hl')
    cases hk
  | part hl' hc _ =>
    obtain rfl := Option.some.inj (hl.symm.trans hl')
    cases hc

/-- On the types without pending parts acceptance is reflexive and transitive, and the dynamic type is above all of them and
below those of its kind only. A type with a pending part neither accepts nor is accepted. -/
theorem accepts_preorder (h : initial.Grows t) :
    (∀ a, ¬t.Occurs .pending a → t.accepts a a = true) ∧
    (∀ a b c, t.accepts a b = true → t.accepts b c = true → t.accepts a c = true) ∧
    (∀ a, ¬t.Occurs .pending a → t.accepts dynamic a = true) ∧
    (t.kind dynamic = .dynamic ∧ ∀ a d, t.kind d = .dynamic → t.accepts a d = true → t.kind a = .dynamic) ∧
    ∀ a, t.Occurs .pending a → ∀ b, t.accepts a b = false ∧ t.accepts b a = false := by
  obtain ⟨hk, hd⟩ := dynamic_resolved h
  refine ⟨fun a ha => accepts_self (isResolved_iff.2 ha), fun a b c => acceptsAux_trans,
    fun a ha => accepts_of_dynamic hd hk (isResolved_iff.2 ha), ⟨hk, fun a d => dynamic_of_accepts⟩, fun a ha b => ?_⟩
  rw [Bool.eq_false_iff, Bool.eq_false_iff]
  constructor
  · intro hab
    exact isResolved_iff.1 (resolved_of_accepts hab).1 ha
  · intro hba
    exact isResolved_iff.1 (resolved_of_accepts hba).2 ha

/-- Functions from a dynamic type, from an array of it and from integers, and a function with a pending part. -/
def handlers : List TypeCall :=
  [.array int, .array dynamic, .func [dynamic] false 9, .func [int] false 10, .array pending, .func [13] false void]

/-- A function that takes anything and gives integers stands where one is expected that takes integers and gives anything;
the array of a pending type stands nowhere. -/
theorem handlers_ordered :
    let t := (initial.issue handlers).2
    initial.Grows t ∧ t.accepts 12 11 = true ∧ t.accepts dynamic 12 = true ∧ t.accepts dynamic 11 = true ∧
      t.accepts 11 12 = false ∧ t.accepts 14 14 = false := by
  intro t
  have hg : initial.Grows t := grows_issue initial handlers
  obtain ⟨hself, htrans, htop, -, hpending⟩ := accepts_preorder hg
  have hends : t.accepts 12 11 = true ∧ t.contains 14 .pending = true ∧ t.accepts 11 12 = false := by decide +kernel
  obtain ⟨h, hbelow, hback⟩ := hends
  have htop : t.accepts dynamic 12 = true := htop 12 (isResolved_iff.1 (resolved_of_accepts h).1)
  exact ⟨hg, h, htop, htrans _ _ _ htop h, hback, (hpending 14 (contains_iff.1 hbelow) 14).1⟩

/-! ## Conversion -/

/-- The structure behind a type, its own if it has no name, under the number that `underlying` gives. -/
theorem underlying_found (h : t.Indexed) {id : TypeId} {ty : Ty} (hl : t.lookup? id = some ty) :
    (t.underlying id).2.Indexed ∧ (t.underlying id).2.find? ty.bare = some (t.underlying id).1 ∧ ty.bare.kind.Known :=
  call_indexed (c := .underlying id) h (by rw [asked?, bare?, hl]; rfl)

theorem kind_bare (ty : Ty) : ty.bare.kind = ty.kind := by
  unfold Ty.bare
  split <;> rfl

theorem kind_of_found (h : t.Indexed) {ty : Ty} {id : TypeId} (hk : ty.kind.Known) (hf : t.find? ty = some id) :
    t.kind id = ty.kind := by
  obtain ⟨x, hx, hkey⟩ := lookup?_of_find? h.keyed hf
  rw [kind_of_lookup? hx, ((Ty.key_eq_iff (h.known id x hx).1 hk).1 hkey).1.kind]

/-- A written conversion is an implicit one, or goes between types of one structure or of kinds that a table lists. -/
theorem explicitCast_iff (h : t.Indexed) {source target : TypeId} {a f : Ty} (ha : t.lookup? source = some a)
    (hf : t.lookup? target = some f) (hs : t.isResolved source = true) (ht : t.isResolved target = true) :
    (t.explicitCast source target).1 = true ↔ t.implicitCast source target = true ∨ a.bare.key = f.bare.key ∨
      explicitKinds a.kind f.kind = true ∨ implicitKinds a.kind f.kind = true := by
  obtain ⟨hi, hus, hka⟩ := underlying_found h ha
  obtain ⟨hi', hut, hkf⟩ := underlying_found hi ((grows_underlying t source).lookup? hf)
  have hus := (grows_underlying _ target).find? hus
  have hnum := number_eq_iff hi'.keyed hus hut
  have hsk := kind_of_found hi' hka hus
  have htk := kind_of_found hi' hkf hut
  rw [kind_bare] at hsk htk
  unfold explicitCast
  by_cases himp : t.implicitCast source target = true
  · simp [himp]
  · simp only [himp, hs, ht, Bool.not_true, Bool.or_self, Bool.false_eq_true, ↓reduceIte, false_or]
    split
    · rename_i heq
      simp [hnum.1 heq]
    · rename_i hne
      simp only [Bool.or_eq_true]
      rw [hsk, htk, or_iff_right fun hkey => hne (hnum.2 hkey)]

theorem implicitCast_iff {source target : TypeId} (hs : t.isResolved source = true) (ht : t.isResolved target = true) :
    t.implicitCast source target = true ↔ source = target ∨
      t.kind source ≠ .void ∧ t.kind target ≠ .void ∧ (t.kind source = .dynamic ∨ t.kind target = .dynamic ∨
        t.isNamed source = false ∧ t.isNamed target = false ∧ implicitKinds (t.kind source) (t.kind target) = true) := by
  simp only [implicitCast, hs, ht, Bool.not_true, Bool.or_self, Bool.false_eq_true, ↓reduceIte, Bool.or_eq_true,
    decide_eq_true_eq]
  split_ifs with heq hvoid hdynamic hnamed
  · simp [heq]
  · simp only [heq, false_or, false_iff]
    tauto
  · simp only [heq, true_iff, false_or]
    tauto
  · rw [← Bool.not_eq_true, ← Bool.not_eq_true]
    simp only [heq, false_or, false_iff]
    tauto
  · rw [← Bool.not_eq_true, ← Bool.not_eq_true]
    tauto

theorem resolved_of_implicitCast {source target : TypeId} (h : t.implicitCast source target = true) :
    t.isResolved source = true ∧ t.isResolved target = true := by
  by_contra hres
  have hopen : (!t.isResolved source || !t.isResolved target) = true := by simpa [imp_iff_not_or] using hres
  rw [implicitCast, if_pos hopen] at h
  cases h

theorem resolved_of_explicitCast {source target : TypeId} (h : (t.explicitCast source target).1 = true) :
    t.isResolved source = true ∧ t.isResolved target = true := by
  by_cases himp : t.implicitCast source target = true
  · exact resolved_of_implicitCast himp
  · by_contra hres
    have hopen : (!t.isResolved source || !t.isResolved target) = true := by simpa [imp_iff_not_or] using hres
    rw [explicitCast, if_neg himp, if_pos hopen] at h
    cases h

theorem explicitCast_of_implicitCast {source target : TypeId} (h : t.implicitCast source target = true) :
    (t.explicitCast source target).1 = true := by
  simp [explicitCast, h]

/-- Two types with the name of one symbol and one structure. -/
def Namesakes (t : TypeTable) (source target : TypeId) : Prop :=
  ∃ a f, t.lookup? source = some a ∧ t.lookup? target = some f ∧ f.isNamed = true ∧ a.sym = f.sym ∧ a.shape = f.shape

theorem namesakes_iff {source target : TypeId} {a f : Ty} (ha : t.lookup? source = some a)
    (hf : t.lookup? target = some f) :
    t.Namesakes source target ↔ f.isNamed = true ∧ a.sym = f.sym ∧ a.shape = f.shape := by
  constructor
  · rintro ⟨a', f', ha', hf', h⟩
    obtain rfl := Option.some.inj (ha.symm.trans ha')
    obtain rfl := Option.some.inj (hf.symm.trans hf')
    exact h
  · intro h
    exact ⟨a, f, ha, hf, h⟩

/-- Different types of one symbol, where one takes the parts of the other, have one structure when they have a name and
all parts are the same. -/
theorem bare_key_iff (h : t.Indexed) {source target : TypeId} {a f : Ty} (ha : t.lookup? source = some a)
    (hf : t.lookup? target = some f) (hne : source ≠ target) (hsym : f.sym = a.sym) {r : TypeId → TypeId → Prop}
    (htakes : f.shape.Takes r a.shape) : a.bare.key = f.bare.key ↔ t.Namesakes source target := by
  rw [namesakes_iff ha hf]
  have hnamed : a.isNamed = f.isNamed := by rw [Ty.isNamed, Ty.isNamed, hsym]
  by_cases hn : f.isNamed = true
  · have hbare : a.bare = { shape := a.shape } := by rw [Ty.bare, hnamed, if_pos hn]
    have hbare' : f.bare = { shape := f.shape } := by rw [Ty.bare, if_pos hn]
    have hka : ({ shape := a.shape } : Ty).kind.Known := (h.known _ _ ha).1
    have hkf : ({ shape := f.shape } : Ty).kind.Known := (h.known _ _ hf).1
    rw [hbare, hbare']
    refine ⟨fun hkey => ⟨hn, hsym.symm, ?_⟩, fun h => by rw [h.2.2]⟩
    obtain ⟨halike, -⟩ := (Ty.key_eq_iff hka hkf).1 hkey
    exact (htakes.eq_of_parts halike.elem.symm halike.key.symm halike.result.symm halike.params.symm).symm
  · have hbare : a.bare = a := by rw [Ty.bare, hnamed, if_neg hn]
    have hbare' : f.bare = f := by rw [Ty.bare, if_neg hn]
    rw [hbare, hbare']
    refine ⟨fun hkey => absurd ?_ hne, fun h => absurd h.1 hn⟩
    exact (number_eq_iff h.keyed (h.own _ _ ha) (h.own _ _ hf)).2 hkey

theorem Indexed.explicitCast_of_accepts (h : t.Indexed) {source target : TypeId} (hacc : t.accepts target source = true) :
    (t.explicitCast source target).1 = true ↔
      source = target ∨ (t.kind target = .dynamic ∧ t.kind source ≠ .void) ∨ t.Namesakes source target := by
  obtain ⟨ht, hs, hcases⟩ := acceptsAux_succ.1 hacc
  by_cases heq : source = target
  · simp only [heq, true_or, iff_true]
    exact explicitCast_of_implicitCast ((implicitCast_iff ht ht).2 (.inl rfl))
  · obtain ⟨f, a, hf, ha, hcases⟩ := hcases.resolve_left (Ne.symm heq)
    rw [explicitCast_iff h ha hf hs ht, implicitCast_iff hs ht, or_iff_right heq, or_iff_right heq, kind_of_lookup? ha,
      kind_of_lookup? hf]
    rcases hcases with hdyn | ⟨hsym, htakes⟩
    · by_cases hvoid : a.kind = .void
      · have hkey : a.bare.key ≠ f.bare.key := by
          intro hkey
          have hk := ((Ty.key_eq_iff (kind_bare a ▸ (h.known _ _ ha).1) (kind_bare f ▸ (h.known _ _ hf).1)).1 hkey).1.kind
          rw [kind_bare, kind_bare, hvoid, hdyn] at hk
          cases hk
        have hname : ¬t.Namesakes source target := by
          rw [namesakes_iff ha hf]
          rintro ⟨-, -, hshape⟩
          have hk : a.kind = f.kind := congrArg Shape.kind hshape
          rw [hvoid, hdyn] at hk
          cases hk
        simp [hvoid, hdyn, hkey, hname, explicitKinds, implicitKinds]
      · simp [hvoid, hdyn]
    · obtain ⟨hk, hdyn, hvoid, hexp, himp⟩ := htakes.kinds
      have hka : a.kind = f.shape.kind := hk.symm
      have hkf : f.kind = f.shape.kind := rfl
      rw [hka, hkf, bare_key_iff h ha hf heq hsym htakes]
      simp [hdyn, hexp, himp]

/-- What is converted without a cast can be written with one. What is accepted can be written as a cast when it is the same
type, when the target is dynamic, or when both have the name of one symbol and one structure; it cannot when its parts
are accepted and the structures differ. -/
theorem explicitCast_of_accepted (cs : List TypeCall) (source target : TypeId) :
    ((initial.issue cs).2.implicitCast source target = true →
      ((initial.issue cs).2.explicitCast source target).1 = true) ∧
    ((initial.issue cs).2.accepts target source = true → (((initial.issue cs).2.explicitCast source target).1 = true ↔
      source = target ∨
      ((initial.issue cs).2.kind target = .dynamic ∧ (initial.issue cs).2.kind source ≠ .void) ∨
      (initial.issue cs).2.Namesakes source target)) := by
  have hi : (initial.issue cs).2.Indexed := indexed_initial.issue cs
  exact ⟨explicitCast_of_implicitCast, hi.explicitCast_of_accepts⟩

/-- A function with a dynamic parameter stands for one with an integer parameter and is not converted to it; it is
converted to the dynamic type. -/
theorem handlers_converted :
    let t := (initial.issue handlers).2
    t.accepts 12 11 = true ∧ (t.explicitCast 11 12).1 = false ∧ t.accepts dynamic 12 = true ∧
      (t.explicitCast 12 dynamic).1 = true := by
  intro t
  have hends : t.accepts 12 11 = true ∧ t.accepts dynamic 12 = true ∧ (t.kind dynamic = .dynamic ∧ t.kind 12 ≠ .void) ∧
      t.kind 12 ≠ .dynamic ∧ t.lookup? 12 = some { shape := .func [int] false 10 } := by decide +kernel
  obtain ⟨h, htop, hconvert, hkind, hl⟩ := hends
  refine ⟨h, ?_, htop, ((explicitCast_of_accepted handlers 12 dynamic).2 htop).2 (.inr (.inl hconvert))⟩
  rw [Bool.eq_false_iff]
  intro hcast
  rcases ((explicitCast_of_accepted handlers 11 12).2 h).1 hcast with heq | ⟨hdyn, -⟩ | ⟨a, f, -, hf, hn, -⟩
  · exact absurd heq (by decide)
  · exact absurd hdyn hkind
  · obtain rfl := Option.some.inj (hl.symm.trans hf)
    cases hn

/-- An array of integers stands where an array of anything is expected, and cannot be converted to one. -/
theorem dynamicElement_uncastable :
    let t := (initial.issue [.array int, .array dynamic]).2
    t.accepts 10 9 = true ∧ t.kind 9 ≠ .void ∧ t.kind 10 ≠ .void ∧ (t.explicitCast 9 10).1 = false := by
  decide +kernel

/-! ## Values of type void -/

/-- A value of type void is accepted by its own type and by dynamic only. -/
theorem accepts_void {formal actual : TypeId} (hk : t.kind actual = .void) (h : t.accepts formal actual = true) :
    formal = actual ∨ t.kind formal = .dynamic := by
  obtain ⟨-, -, heq | ⟨x, y, hx, hy, hdyn | ⟨-, htakes⟩⟩⟩ := acceptsAux_succ.1 h
  · exact .inl heq
  · exact .inr ((kind_of_lookup? hx).trans hdyn)
  · rw [kind_of_lookup? hy] at hk
    exact absurd (htakes.kinds.1.trans hk) htakes.kinds.2.2.1

theorem implicitCast_void {source target : TypeId} (hk : t.kind source = .void)
    (h : t.implicitCast source target = true) : source = target := by
  obtain ⟨hs, ht⟩ := resolved_of_implicitCast h
  exact ((implicitCast_iff hs ht).1 h).resolve_right fun hr => hr.1 hk

/-- A value of type void is converted to a type of the same structure only. -/
theorem Indexed.explicitCast_void (h : t.Indexed) {source target : TypeId} (hk : t.kind source = .void)
    (hcast : (t.explicitCast source target).1 = true) : t.kind target = .void := by
  obtain ⟨hs, ht⟩ := resolved_of_explicitCast hcast
  obtain ⟨a, ha⟩ := exists_of_isResolved hs
  obtain ⟨f, hf⟩ := exists_of_isResolved ht
  have hvoid : a.kind = .void := (kind_of_lookup? ha).symm.trans hk
  rw [kind_of_lookup? hf]
  rcases (explicitCast_iff h ha hf hs ht).1 hcast with himp | hkey | hexp | himp
  · rw [← kind_of_lookup? hf, ← implicitCast_void hk himp, hk]
  · have hsame := ((Ty.key_eq_iff (kind_bare a ▸ (h.known _ _ ha).1) (kind_bare f ▸ (h.known _ _ hf).1)).1 hkey).1.kind
    rw [← kind_bare f, ← hsame, kind_bare, hvoid]
  · rw [hvoid] at hexp
    cases hexp
  · rw [hvoid] at himp
    cases himp

theorem numericUpper_void {l r : TypeKind} (hk : l = .void ∨ r = .void) : numericUpper l r = none := by
  rcases hk with rfl | rfl
  · rfl
  · simp [numericUpper, TypeKind.isNumeric]

/-- An operator takes a void operand beside a dynamic one, and a comparison takes two of one type. -/
theorem binaryUpper_void {cls : OpClass} {l r u : TypeId} (hk : t.kind l = .void ∨ t.kind r = .void)
    (h : t.binaryUpper cls l r = some u) :
    u = pending ∨ t.kind l = .dynamic ∨ t.kind r = .dynamic ∨ cls = .equality ∧ l = r := by
  unfold binaryUpper at h
  split at h
  · exact .inl (Option.some.inj h).symm
  split at h
  · split at h
    · rename_i heq
      simp only [Bool.and_eq_true, decide_eq_true_eq] at heq
      exact .inr (.inr (.inr heq))
    · cases h
  dsimp only at h
  split at h
  · rename_i hdyn
    simp only [Bool.or_eq_true, decide_eq_true_eq] at hdyn
    exact hdyn.elim (fun hl => .inr (.inl hl)) fun hr => .inr (.inr (.inl hr))
  have hnum := numericUpper_void hk
  have hnumeric : ((t.kind l).isNumeric && (t.kind r).isNumeric) = false := by
    rcases hk with hk | hk <;> simp [hk, TypeKind.isNumeric]
  have hprim : (t.kind l = .string && (t.kind r).isPrimitive || t.kind r = .string && (t.kind l).isPrimitive) = false := by
    have hvoid : TypeKind.void.isPrimitive = false := rfl
    rcases hk with hk | hk <;> simp [hk, hvoid]
  have hone (k : TypeKind) (hne : k ≠ .void) : (t.kind l = k && t.kind r = k) = false := by
    rcases hk with hk | hk <;> simp [hk, hne.symm]
  cases cls with
  | equality =>
    simp only [hnumeric, Bool.or_false, decide_eq_true_eq, Option.ite_none_right_eq_some] at h
    exact .inr (.inr (.inr ⟨rfl, h.1⟩))
  | ordering => simp [hnumeric, hone] at h
  | logical => simp [hone] at h
  | bitwise => simp [hone] at h
  | add => simp [hprim, hnum] at h
  | arith => simp [hnum] at h
  | _ => cases h

theorem unaryUpper_void {cls : OpClass} {x u : TypeId} (hk : t.kind x = .void) (h : t.unaryUpper cls x = some u) :
    u = pending := by
  unfold unaryUpper at h
  split at h
  · exact (Option.some.inj h).symm
  · simp [hk, TypeKind.isNumeric] at h

end TypeTable

end TreeCompiler
