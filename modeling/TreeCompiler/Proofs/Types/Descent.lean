import TreeCompiler.Proofs.Except
import TreeCompiler.Proofs.Types.Acceptance
import TreeCompiler.Proofs.Types.Fingerprint

/-!
# Recursions along types

A type is entered after its parts, so what goes from a type to its parts goes to smaller numbers and ends. The value of a
type is computed along the index of a placeholder too, which is no number of a type and can be any number.

* `Ends` : a recursion ends; `ends_of_smaller`, `fuel_eq` : it does when each step is to something smaller, and then as much
  fuel as the size is enough;
* `Ty.shownParts`, `Ty.hashedParts`, `Shape.pairs` : what the text of a type, its value and its acceptance go on with;
* `TypeTable.Orderly` : calls about numbers that have been issued; `TypeTable.Founded` : all parts have smaller numbers;
  `Founded.call`, `Founded.issue` : what one call keeps, and any number of them;
* `TypeTable.isSome_structuralWith?` : a type has a value exactly when the recursion for it ends;
* `TypeTable.recursions_end` : which recursions end in every table that calls have made;
* `TypeTable.ownIndex_endless` : a placeholder that is met again below itself.
-/

namespace TreeCompiler

/-! ## Recursions -/

/-- The recursion that goes on from `x` with each of `next x` ends. -/
def Ends {α : Type} (next : α → List α) (x : α) : Prop := Acc (fun y x => y ∈ next x) x

section Recursion

variable {α β : Type} {next : α → List α} {size : α → Nat}

theorem ends_of_smaller (h : ∀ x, ∀ y ∈ next x, size y < size x) (x : α) : Ends next x :=
  Subrelation.accessible (h _ _) ((measure size).wf.apply x)

/-- Nothing that ends goes on with itself. -/
theorem not_ends_of_mem {x : α} (h : x ∈ next x) : ¬Ends next x := fun hends => by
  induction hends with
  | intro x _ ih => exact ih x h h

theorem fuel_eq {F : Nat → α → β} (h : ∀ x, ∀ y ∈ next x, size y < size x)
    (hF : ∀ m n x, (∀ y ∈ next x, F m y = F n y) → F (m + 1) x = F (n + 1) x) {m n : Nat} {x : α}
    (hm : size x < m) (hn : size x < n) : F m x = F n x := by
  induction m generalizing n x with
  | zero => cases hm
  | succ m ih =>
    obtain ⟨n, rfl⟩ : ∃ n', n = n' + 1 := ⟨n - 1, by omega⟩
    refine hF m n x fun y hy => ?_
    have hlt := h x y hy
    exact ih (by omega) (by omega)

end Recursion

/-! ## What a type is made of -/

namespace Shape

/-- The parts of a structure, those of no type left out. -/
def components (s : Shape) : List TypeId := ({ shape := s } : Ty).components

/-- The pairs of types that acceptance goes on with; formal and actual type change places at the parameters of a function. -/
def pairs : Shape → Shape → List (TypeId × TypeId)
  | array e, array e' => [(e, e')]
  | map k e, map k' e' => [(k, k'), (e, e')]
  | tuple es, tuple es' => es.zip es'
  | func ps _ r, func ps' _ r' => ps'.zip ps ++ [(r, r')]
  | _, _ => []

theorem mem_components_of_pairs {s s' : Shape} {c d : TypeId} (h : (c, d) ∈ s.pairs s') :
    c ∈ s.components ∧ d ∈ s'.components ∨ c ∈ s'.components ∧ d ∈ s.components := by
  unfold pairs at h
  split at h
  · left
    simpa [components, Ty.components] using h
  · left
    simp only [List.mem_cons, Prod.mk.injEq, List.not_mem_nil, or_false] at h
    rcases h with ⟨rfl, rfl⟩ | ⟨rfl, rfl⟩ <;> simp [components, Ty.components]
  · left
    simpa [components, Ty.components] using List.of_mem_zip h
  · rcases List.mem_append.1 h with h | h
    · right
      have hboth := List.of_mem_zip h
      simp [components, Ty.components, hboth]
    · left
      obtain ⟨rfl, rfl⟩ := Prod.mk.inj (List.mem_singleton.1 h)
      simp [components, Ty.components]
  · cases h

/-- Only the pairs that acceptance goes on with matter to it. -/
theorem Takes.imp {r r' : TypeId → TypeId → Prop} {s s' : Shape} (h : s.Takes r s')
    (hr : ∀ p ∈ s.pairs s', r p.1 p.2 → r' p.1 p.2) : s.Takes r' s' := by
  cases h with
  | array h => exact .array (hr (_, _) List.mem_cons_self h)
  | map hk he =>
    exact .map (hr (_, _) List.mem_cons_self hk) (hr (_, _) (List.mem_cons_of_mem _ List.mem_cons_self) he)
  | tuple h =>
    obtain ⟨hlen, hall⟩ := List.forall₂_iff_zip.1 h
    exact .tuple (List.forall₂_iff_zip.2 ⟨hlen, fun hp => hr (_, _) hp (hall hp)⟩)
  | func hp hx =>
    obtain ⟨hlen, hall⟩ := List.forall₂_iff_zip.1 hp
    refine .func (List.forall₂_iff_zip.2 ⟨hlen, fun hp => hr (_, _) (List.mem_append_left _ hp) (hall hp)⟩) ?_
    exact hr (_, _) (List.mem_append_right _ (List.mem_singleton.2 rfl)) hx

/-- What is in a structure besides its parts is no type, or the index of a placeholder. -/
theorem mem_components_of_field {s : Shape} {c : TypeId}
    (h : c ∈ s.fields.map (·.type) ++ [s.elem, s.key, s.result] ++ s.params) :
    c ∈ s.components ∨ c = 0 ∨ s.kind = .param ∧ c = s.key := by
  by_cases h0 : c = 0
  · exact .inr (.inl h0)
  · cases s <;> simp_all [components, Ty.components, fields, elem, key, result, params, kind, or_comm]

end Shape

namespace Ty

/-- The types that the text of a type is made of: the arguments behind a name, else the parts of the structure. -/
def shownParts (t : Ty) : List TypeId := if t.isNamed then t.args else t.shape.components

/-- The numbers whose values go into the value of a type, the index of a placeholder among them. -/
def hashedParts (t : Ty) : List TypeId :=
  t.shape.fields.map (·.type) ++ [t.shape.elem, t.shape.key, t.shape.result] ++ t.shape.params ++ t.args

theorem mem_components {t : Ty} {c : TypeId} : c ∈ t.components ↔ c ∈ t.shape.components ∨ c ∈ t.args := by
  simp [Shape.components, components]

theorem mem_components_of_shown {t : Ty} {c : TypeId} (h : c ∈ t.shownParts) : c ∈ t.components := by
  unfold shownParts at h
  split at h
  · exact mem_components.2 (.inr h)
  · exact mem_components.2 (.inl h)

theorem mem_components_of_hashed {t : Ty} {c : TypeId} (h : c ∈ t.hashedParts) :
    c ∈ t.components ∨ c = 0 ∨ t.kind = .param ∧ c = t.shape.key := by
  rcases List.mem_append.1 h with h | h
  · exact (Shape.mem_components_of_field h).imp_left fun h => mem_components.2 (.inl h)
  · exact .inl (mem_components.2 (.inr h))

end Ty

/-! ## Calls about issued numbers -/

/-- The numbers of types that a call is about. -/
def TypeCall.ids : TypeCall → List TypeId
  | .array elem => [elem]
  | .map key elem => [key, elem]
  | .tuple elems => elems
  | .func params _ result => params ++ [result]
  | .struct fields => fields.map (·.type)
  | .union variants => variants.map (·.type)
  | .param _ _ => []
  | .named base _ _ args => base :: args
  | .underlying id => [id]

namespace TypeTable

variable {t : TypeTable} {c : TypeCall} {cs : List TypeCall}

/-- Each call is about numbers that have been issued before it, or about no type. -/
def Orderly : TypeTable → List TypeCall → Prop
  | _, [] => True
  | t, c :: cs => (∀ id ∈ c.ids, id ≤ t.size) ∧ Orderly (t.call c).2 cs

instance decidableOrderly : (t : TypeTable) → (cs : List TypeCall) → Decidable (t.Orderly cs)
  | _, [] => isTrue trivial
  | t, c :: cs =>
    have := decidableOrderly (t.call c).2 cs
    inferInstanceAs (Decidable ((∀ id ∈ c.ids, id ≤ t.size) ∧ Orderly (t.call c).2 cs))

/-- The parts of a type have smaller numbers than the type. -/
def Founded (t : TypeTable) : Prop := ∀ id ty, t.lookup? id = some ty → ∀ p ∈ ty.components, p < id

/-- A call enters the type that it asks for, or nothing. -/
theorem call_cases (t : TypeTable) (c : TypeCall) :
    (t.call c).2 = t ∨ ∃ ty, t.asked? c = some ty ∧ (t.call c).2 = (t.intern ty).2 := by
  cases hc : t.asked? c with
  | none => exact .inl (call_refused hc)
  | some ty =>
    cases c with
    | named base sym name args =>
      obtain ⟨x, hx, rfl⟩ := Option.map_eq_some_iff.1 hc
      exact .inr ⟨_, rfl, by simp [call, named?, hx]⟩
    | underlying id =>
      obtain ⟨x, hx, rfl⟩ := Option.map_eq_some_iff.1 hc
      by_cases hn : x.isNamed = true
      · exact .inr ⟨_, rfl, by simp [call, underlying, hx, hn]⟩
      · exact .inl (by simp [call, underlying, hx, hn])
    | _ =>
      obtain rfl := Option.some.inj hc
      exact .inr ⟨_, rfl, rfl⟩

theorem founded_initial : initial.Founded := by
  have hscalar : ∀ e ∈ initial.entries.toList, e.2.components = [] := by decide +kernel
  intro id ty hl p hp
  unfold lookup? at hl
  split at hl
  · cases hl
  · obtain ⟨e, he, rfl⟩ := Option.map_eq_some_iff.1 hl
    rw [hscalar e (Array.mem_toList_iff.2 (Array.mem_of_getElem? he))] at hp
    cases hp

namespace Founded

theorem le_size (h : t.Founded) {id p : TypeId} {ty : Ty} (hl : t.lookup? id = some ty) (hp : p ∈ ty.components) :
    p ≤ t.size := (h id ty hl p hp).le.trans (lookup?_le hl)

/-- The parts of a type that an orderly call asks for are in the table already: they are given with the call or come from a
type of the table. -/
theorem asked (h : t.Founded) {ty : Ty} (hids : ∀ id ∈ c.ids, id ≤ t.size) (hc : t.asked? c = some ty) :
    ∀ p ∈ ty.components, p ≤ t.size := by
  intro p hp
  cases c with
  | named base sym name args =>
    obtain ⟨x, hx, rfl⟩ := Option.map_eq_some_iff.1 hc
    rcases Ty.mem_components.1 hp with hp | hp
    · exact h.le_size hx (Ty.mem_components.2 (.inl hp))
    · exact hids p (List.mem_cons_of_mem _ hp)
  | underlying id =>
    obtain ⟨x, hx, rfl⟩ := Option.map_eq_some_iff.1 hc
    refine h.le_size hx ?_
    unfold Ty.bare at hp
    split at hp
    · exact Ty.mem_components.2 (.inl hp)
    · exact hp
  | param name index =>
    obtain rfl := Option.some.inj hc
    cases hp
  | struct fs | union fs =>
    obtain rfl := Option.some.inj hc
    rw [Ty.components, List.append_nil] at hp
    exact hids p (List.mem_filter.1 hp).1
  | _ =>
    obtain rfl := Option.some.inj hc
    rw [Ty.components, List.append_nil] at hp
    exact hids p hp

theorem intern (h : t.Founded) {ty : Ty} (hty : ∀ p ∈ ty.components, p ≤ t.size) : (t.intern ty).2.Founded := by
  intro id x hx p hp
  rcases lookup?_intern hx with hx | ⟨rfl, rfl⟩
  · exact h id x hx p hp
  · exact Nat.lt_succ_of_le (hty p hp)

theorem call (h : t.Founded) (hids : ∀ id ∈ c.ids, id ≤ t.size) : (t.call c).2.Founded := by
  rcases call_cases t c with hsame | ⟨ty, hc, hcall⟩
  · rwa [hsame]
  · rw [hcall]
    exact h.intern (h.asked hids hc)

theorem issue (h : t.Founded) (hcs : t.Orderly cs) : (t.issue cs).2.Founded := by
  induction cs generalizing t with
  | nil => exact h
  | cons c cs ih => exact ih (h.call hcs.1) hcs.2

end Founded

/-! ## From a type to its parts -/

/-- The numbers that a recursion along `parts` goes on with; none behind a number that stands for no type. -/
def below (t : TypeTable) (parts : Ty → List TypeId) (id : TypeId) : List TypeId := ((t.lookup? id).map parts).getD []

/-- The pairs of numbers that acceptance goes on with. -/
def pairsBelow (t : TypeTable) (q : TypeId × TypeId) : List (TypeId × TypeId) :=
  match t.lookup? q.1, t.lookup? q.2 with
  | some f, some a => f.shape.pairs a.shape
  | _, _ => []

theorem mem_below {parts : Ty → List TypeId} {id p : TypeId} :
    p ∈ t.below parts id ↔ ∃ ty, t.lookup? id = some ty ∧ p ∈ parts ty := by
  unfold below
  cases t.lookup? id with
  | none => simp
  | some ty => simp

namespace Founded

theorem below_lt (h : t.Founded) {parts : Ty → List TypeId} (hparts : ∀ ty, parts ty ⊆ ty.components) (id : TypeId) :
    ∀ p ∈ t.below parts id, p < id := by
  intro p hp
  obtain ⟨ty, hl, hp⟩ := mem_below.1 hp
  exact h id ty hl p (hparts ty hp)

theorem hashed_lt (h : t.Founded) {id p : TypeId} {ty : Ty} (hl : t.lookup? id = some ty) (hp : p ∈ ty.hashedParts) :
    p < id ∨ ty.kind = .param ∧ p = ty.shape.key := by
  rcases Ty.mem_components_of_hashed hp with hp | rfl | hparam
  · exact .inl (h id ty hl p hp)
  · exact .inl (Nat.pos_of_ne_zero (lookup?_pos hl))
  · exact .inr hparam

theorem pairs_lt (h : t.Founded) (q : TypeId × TypeId) : ∀ p ∈ t.pairsBelow q, max p.1 p.2 < max q.1 q.2 := by
  intro p hp
  unfold pairsBelow at hp
  split at hp
  · rename_i f a hf ha
    rcases Shape.mem_components_of_pairs hp with ⟨hp, hp'⟩ | ⟨hp, hp'⟩
    · exact max_lt_max (h _ f hf p.1 (Ty.mem_components.2 (.inl hp))) (h _ a ha p.2 (Ty.mem_components.2 (.inl hp')))
    · rw [max_comm q.1]
      exact max_lt_max (h _ a ha p.1 (Ty.mem_components.2 (.inl hp))) (h _ f hf p.2 (Ty.mem_components.2 (.inl hp')))
  · cases hp

end Founded

/-! ## One step of each recursion -/

section Steps

variable {m n : Nat} {id : TypeId}

theorem containsAux_congr {k : TypeKind} (h : ∀ p ∈ t.below Ty.components id, t.containsAux k m p = t.containsAux k n p) :
    t.containsAux k (m + 1) id = t.containsAux k (n + 1) id := by
  apply Bool.eq_iff_iff.2
  cases hl : t.lookup? id with
  | none => rw [containsAux_unknown hl, containsAux_unknown hl]
  | some ty =>
    rw [containsAux_known hl, containsAux_known hl]
    refine or_congr_right (exists_congr fun p => and_congr_right fun hp => ?_)
    rw [h p (mem_below.2 ⟨ty, hl, hp⟩)]

theorem formatAux_congr (h : ∀ p ∈ t.below Ty.shownParts id, t.formatAux m p = t.formatAux n p) :
    t.formatAux (m + 1) id = t.formatAux (n + 1) id := by
  cases hl : t.lookup? id with
  | none => simp only [formatAux, hl]
  | some ty =>
    replace h : ∀ p ∈ ty.shownParts, t.formatAux m p = t.formatAux n p := fun p hp => h p (mem_below.2 ⟨ty, hl, hp⟩)
    unfold Ty.shownParts at h
    simp only [formatAux, hl]
    by_cases hn : ty.isNamed = true
    · rw [if_pos hn] at h
      rw [if_pos hn, if_pos hn, List.map_congr_left h]
    · rw [if_neg hn] at h
      rw [if_neg hn, if_neg hn]
      generalize ty.shape = s at h
      have hlist (ids : List TypeId) (hids : ids ⊆ s.components) : ids.map (t.formatAux m) = ids.map (t.formatAux n) :=
        List.map_congr_left fun p hp => h p (hids hp)
      have hfields (fs : List TyField) (hfs : (fs.map (·.type)).filter (· ≠ 0) ⊆ s.components) :
          fs.map (fun f => f.name ++ (if f.type = 0 then "" else ": " ++ t.formatAux m f.type)) =
            fs.map fun f => f.name ++ (if f.type = 0 then "" else ": " ++ t.formatAux n f.type) := by
        refine List.map_congr_left fun f hf => ?_
        by_cases h0 : f.type = 0
        · rw [if_pos h0, if_pos h0]
        · rw [if_neg h0, if_neg h0, h _ (hfs (List.mem_filter.2 ⟨List.mem_map_of_mem hf, by simpa using h0⟩))]
      unfold Shape.components Ty.components at h hlist hfields
      cases s with
      | scalar k => rfl
      | array e => simp only [h e (by simp)]
      | map k e => simp only [h k (by simp), h e (by simp)]
      | struct fs => simp only [hfields fs (by simp)]
      | tuple es => simp only [hlist es (by simp)]
      | func ps v r => simp only [hlist ps (by simp), h r (by simp)]
      | union vs => simp only [hfields vs (by simp)]
      | param i => rfl

theorem acceptsAux_congr {q : TypeId × TypeId}
    (h : ∀ p ∈ t.pairsBelow q, t.acceptsAux m p.1 p.2 = t.acceptsAux n p.1 p.2) :
    t.acceptsAux (m + 1) q.1 q.2 = t.acceptsAux (n + 1) q.1 q.2 := by
  apply Bool.eq_iff_iff.2
  rw [acceptsAux_succ, acceptsAux_succ]
  refine and_congr_right fun _ => and_congr_right fun _ => or_congr_right (exists_congr fun f => exists_congr fun a =>
    and_congr_right fun hf => and_congr_right fun ha => or_congr_right (and_congr_right fun _ => ?_))
  have hpairs : ∀ p ∈ f.shape.pairs a.shape, t.acceptsAux m p.1 p.2 = t.acceptsAux n p.1 p.2 := by
    simpa only [pairsBelow, hf, ha] using h
  exact ⟨fun h => h.imp fun p hp hm => hpairs p hp ▸ hm, fun h => h.imp fun p hp hn => hpairs p hp ▸ hn⟩

/-- A value is computed in one step more from the values of all that goes into it. -/
theorem isSome_structuralAux {digest : Bytes → UInt64} : (t.structuralAux digest (n + 1) id).isSome ↔
    ∀ p ∈ t.below Ty.hashedParts id, (t.structuralAux digest n p).isSome := by
  cases hl : t.lookup? id with
  | none => simp [structuralAux, below, hl]
  | some ty =>
    have hmem : t.below Ty.hashedParts id = ty.hashedParts := by simp [below, hl]
    simp only [hmem, structuralAux, hl]
    rw [Option.isSome_bind_iff fun _ => Option.isSome_bind_iff fun _ => Option.isSome_bind_iff fun _ =>
      Option.isSome_bind_iff fun _ => Option.isSome_bind_iff fun _ => Option.isSome_bind_pure]
    simp only [Option.isSome_mapM, Option.isSome_map, Ty.hashedParts, List.forall_mem_append, List.forall_mem_map,
      List.forall_mem_cons, List.not_mem_nil, and_assoc]
    simp

end Steps

/-! ## Values -/

section Values

variable {digest : Bytes → UInt64} {n : Nat} {id : TypeId}

theorem ends_of_isSome (h : (t.structuralAux digest n id).isSome) : Ends (t.below Ty.hashedParts) id := by
  induction n generalizing id with
  | zero => cases h
  | succ n ih => exact Acc.intro id fun p hp => ih (isSome_structuralAux.1 h p hp)

theorem structuralAux_settled :
    (t.structuralAux digest (t.size + 2) id).isSome → (t.structuralAux digest (t.size + 1) id).isSome := by
  refine settled_of_bounded (P := fun n id => (t.structuralAux digest n id).isSome) (fun _ => Bool.false_ne_true)
    (fun l m h id hid => ?_) (fun n id hid => ?_) id
  · exact isSome_structuralAux.2 fun p hp => h p (isSome_structuralAux.1 hid p hp)
  · cases n with
    | zero => exact Iff.rfl
    | succ n => rw [isSome_structuralAux, isSome_structuralAux, below, below, lookup?_beyond hid, lookup?, if_pos rfl]

/-- A type has a value exactly when the recursion for it ends: on its way it meets each type of the table once at most. -/
theorem isSome_structuralWith? : (t.structuralWith? digest id).isSome ↔ Ends (t.below Ty.hashedParts) id := by
  refine ⟨ends_of_isSome, fun h => ?_⟩
  induction h with
  | intro id _ ih => exact isSome_structuralAux.2 fun p hp => structuralAux_settled (ih p hp)

theorem isSome_hash? {f : Fingerprints} :
    (f.hash? t id).isSome ↔ (∃ v, (id, v) ∈ f.issued) ∨ Ends (t.below Ty.hashedParts) id := by
  have hvalue : (t.structuralWith? f.digest id).isSome ↔ Ends (t.below Ty.hashedParts) id := isSome_structuralWith?
  rw [← hvalue]
  simp [Fingerprints.hash?]

end Values

/-- The index of every placeholder is smaller than its number. -/
def IndicesBelow (t : TypeTable) : Prop := ∀ id ≤ t.size, ∀ ty ∈ t.lookup? id, ty.kind = .param → ty.shape.key < id

instance (t : TypeTable) : Decidable t.IndicesBelow :=
  inferInstanceAs (Decidable (∀ id ≤ t.size, ∀ ty ∈ t.lookup? id, ty.kind = .param → ty.shape.key < id))

theorem Founded.hashed_below_lt (h : t.Founded) (hindex : t.IndicesBelow) (id : TypeId) :
    ∀ p ∈ t.below Ty.hashedParts id, p < id := by
  intro p hp
  obtain ⟨ty, hl, hp⟩ := mem_below.1 hp
  rcases h.hashed_lt hl hp with hlt | ⟨hk, rfl⟩
  · exact hlt
  · exact hindex id (lookup?_le hl) ty hl hk

/-- In a table that calls about issued numbers have made, the parts of a type have smaller numbers, so searching a type,
showing it and comparing it with another one ends. A type has a value exactly when the recursion for it ends, and all have
when the index of every placeholder is smaller than its number; then a value that is free is found for each type. -/
theorem recursions_end {cs : List TypeCall} (hcs : initial.Orderly cs) :
    let t := (initial.issue cs).2
    (∀ id ty, t.lookup? id = some ty → (∀ p ∈ ty.components, p < id) ∧ (∀ p ∈ ty.shownParts, p < id) ∧
      ∀ p ∈ ty.hashedParts, p < id ∨ ty.kind = .param ∧ p = ty.shape.key) ∧
    (∀ id, Ends (t.below Ty.components) id ∧ Ends (t.below Ty.shownParts) id ∧ ∀ actual, Ends t.pairsBelow (id, actual)) ∧
    (∀ id fuel, id ≤ t.size → id < fuel → (∀ k, t.containsAux k fuel id = t.contains id k) ∧
      t.formatAux fuel id = t.format id ∧
      ∀ actual, actual ≤ t.size → actual < fuel → t.acceptsAux fuel id actual = t.accepts id actual) ∧
    (∀ (f : Fingerprints) (id : TypeId),
      ((t.structuralWith? f.digest id).isSome ↔ Ends (t.below Ty.hashedParts) id) ∧
      ((f.hash? t id).isSome ↔ (∃ v, (id, v) ∈ f.issued) ∨ Ends (t.below Ty.hashedParts) id) ∧
      (f.issued.length < 2 ^ 64 → ∀ v, f.isTaken (f.probe (f.issued.length + 1) v) = false)) ∧
    (t.IndicesBelow → ∀ id, Ends (t.below Ty.hashedParts) id) := by
  intro t
  have ht : t.Founded := founded_initial.issue hcs
  have hparts := ht.below_lt fun _ _ hp => hp
  have hshown := ht.below_lt fun _ _ hp => Ty.mem_components_of_shown hp
  refine ⟨fun id ty hl => ?parts, fun id => ?ends, fun id fuel hid hfuel => ?fuel, fun f id => ?values, fun hindex => ?all⟩
  case parts =>
    exact ⟨ht id ty hl, fun p hp => ht id ty hl p (Ty.mem_components_of_shown hp), fun p hp => ht.hashed_lt hl hp⟩
  case ends =>
    exact ⟨ends_of_smaller hparts id, ends_of_smaller hshown id, fun actual => ends_of_smaller ht.pairs_lt _⟩
  case fuel =>
    have henough : id < t.size + 2 := by omega
    refine ⟨fun k => ?_, ?_, fun actual hactual hfuel' => ?_⟩
    · exact fuel_eq (F := t.containsAux k) hparts (fun _ _ _ => containsAux_congr) hfuel henough
    · exact fuel_eq (F := t.formatAux) hshown (fun _ _ _ => formatAux_congr) hfuel henough
    · have henough' : actual < t.size + 2 := by omega
      exact fuel_eq (F := fun n q => t.acceptsAux n q.1 q.2) (x := (id, actual)) ht.pairs_lt
        (fun _ _ _ => acceptsAux_congr) (max_lt hfuel hfuel') (max_lt henough henough')
  case values =>
    exact ⟨isSome_structuralWith?, isSome_hash?, fun hlen v => Fingerprints.isTaken_probe (Fingerprints.exists_free v hlen)⟩
  case all => exact ends_of_smaller (ht.hashed_below_lt hindex)

/-- A named struct with a template parameter, and the structure behind it. -/
def boxed : List TypeCall :=
  [.param "T" 0, .array 9, .func [9] false 10, .struct [⟨"f", 11⟩], .named 12 7 "Box" [9], .underlying 13]

theorem boxed_values : initial.Orderly boxed ∧ ∀ id, ((initial.issue boxed).2.structural? id).isSome := by
  have hcs : initial.Orderly boxed := by decide +kernel
  obtain ⟨-, -, -, hvalues, hall⟩ := recursions_end hcs
  exact ⟨hcs, fun id => (hvalues {} id).1.2 (hall (by decide +kernel) id)⟩

/-- A placeholder whose index is its own number is computed from itself, and with more fuel it has no value either. One whose
index is the next number has a value until that number is given to a type, and then another one. -/
theorem ownIndex_endless :
    let t := (initial.issue [.param "T" 9]).2
    let before := (initial.issue [.param "T" 10]).2
    let after := (initial.issue [.param "T" 10, .array int]).2
    (initial.Orderly [.param "T" 9] ∧ 9 ∈ t.below Ty.hashedParts 9 ∧ ¬Ends (t.below Ty.hashedParts) 9 ∧
      ∀ digest fuel, t.structuralAux digest fuel 9 = none) ∧
    initial.Orderly [.param "T" 10, .array int] ∧ 10 ∈ after.below Ty.hashedParts 9 ∧
      before.structural? 9 = some 0x307fa7b3246ba89c ∧ after.structural? 9 = some 0xdb0dc1c5bf263f90 := by
  intro t before after
  have hself : 9 ∈ t.below Ty.hashedParts 9 := by decide +kernel
  have hends : ¬Ends (t.below Ty.hashedParts) 9 := not_ends_of_mem hself
  refine ⟨⟨by decide +kernel, hself, hends, fun digest fuel => ?_⟩, by decide +kernel, by decide +kernel, ?_, ?_⟩
  · exact Option.not_isSome_iff_eq_none.1 fun h => hends (ends_of_isSome h)
  · decide +kernel
  · decide +kernel

end TypeTable

end TreeCompiler
