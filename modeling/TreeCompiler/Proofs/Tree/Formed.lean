import TreeCompiler.Proofs.Scope.Naming

/-!
# Trees whose slots are filled as their kinds say

* `Node.slots` : the child slots of each kind of node;
* `Tree.Formed` : children stand in the slots of their kinds only, and every child exists. Nothing is said of circles and of
  children that are shared;
* `Tree.Retyped` : the tree after nodes were given types.
-/

namespace TreeCompiler

/-! ## Formed trees -/

/-- The declarations that are refused when their name is taken. -/
def namingKinds : List NodeKind := [.letDecl, .func, .typeDecl, .unionDecl]

/-- The children that a node of its kind may have. -/
def Node.slots (n : Node) : List NodeId :=
  match n.kind with
  | .file | .nameSpace | .block | .unionDecl => n.list
  | .importing | .breakStmt | .continueStmt | .intLit | .realLit | .stringLit | .boolLit => []
  | .letDecl | .whileLoop | .eachLoop => [n.a, n.b]
  | .func => n.list ++ [n.a, n.c, n.b]
  | .param | .typeDecl | .variant | .matchArm | .returnStmt => [n.a]
  | .ifStmt => [n.a, n.b, n.c]
  | .forLoop => [n.a, n.b, n.c, n.d]
  | .matchStmt => n.a :: n.list
  | _ => n.children

/-- The kind of the parts that a node of a kind is made of. -/
def NodeKind.part? : NodeKind → Option NodeKind
  | .func => some .param
  | .unionDecl => some .variant
  | .matchStmt => some .matchArm
  | _ => none

structure Node.Formed (t : Tree) (n : Node) : Prop where
  children : ∀ c ∈ n.children, c ∈ n.slots ∧ (t.get? c).isSome
  parts : ∀ c ∈ n.list, n.kind.part? = none ∨ n.kind.part? = some (t.kind c)

instance (t : Tree) (n : Node) : Decidable (n.Formed t) :=
  decidable_of_iff ((∀ c ∈ n.children, c ∈ n.slots ∧ (t.get? c).isSome) ∧
    ∀ c ∈ n.list, n.kind.part? = none ∨ n.kind.part? = some (t.kind c)) ⟨fun h => ⟨h.1, h.2⟩, fun h => ⟨h.1, h.2⟩⟩

/-- Nodes have children in the slots of their kinds only, and every child exists. -/
structure Tree.Formed (t : Tree) : Prop where
  nodes : ∀ n ∈ t.nodes.toList, n.Formed t
  roots : ∀ r ∈ t.roots, (t.get? r).isSome

instance (t : Tree) : Decidable t.Formed :=
  decidable_of_iff ((∀ n ∈ t.nodes.toList, n.Formed t) ∧ ∀ r ∈ t.roots, (t.get? r).isSome)
    ⟨fun h => ⟨h.1, h.2⟩, fun h => ⟨h.1, h.2⟩⟩

theorem Tree.Formed.get {t : Tree} (h : t.Formed) {id : NodeId} {n : Node} (hn : t.get? id = some n) : n.Formed t := by
  refine h.nodes n ?_
  unfold Tree.get? at hn
  split at hn
  · cases hn
  · exact Array.mem_toList_iff.2 (Array.mem_of_getElem? hn)

/-- A child slot is empty or holds a node. -/
def Tree.Has (t : Tree) (c : NodeId) : Prop := c = 0 ∨ ∃ n, t.get? c = some n

namespace Node.Formed

variable {t : Tree} {n : Node}

theorem has_child (h : n.Formed t) {c : NodeId} (hc : c ∈ n.children) : t.Has c :=
  .inr (Option.isSome_iff_exists.1 (h.children c hc).2)

theorem has_slot (h : n.Formed t) {c : NodeId} (hc : c = n.a ∨ c = n.b ∨ c = n.c ∨ c = n.d) : t.Has c := by
  by_cases h0 : c = 0
  · exact .inl h0
  · refine h.has_child (List.mem_append_left _ (List.mem_append_left _ (List.mem_filter.2 ⟨?_, by simpa using h0⟩)))
    simpa using hc

theorem has_list (h : n.Formed t) {c : NodeId} (hc : c ∈ n.list) : t.Has c := h.has_child (List.mem_append_right _ hc)

theorem has_part (h : n.Formed t) {k : NodeKind} (hk : n.kind.part? = some k) {c : NodeId} (hc : c ∈ n.list) :
    ∃ m, t.get? c = some m ∧ m.kind = k := by
  obtain ⟨m, hm⟩ := Option.isSome_iff_exists.1 (h.children c (List.mem_append_right _ hc)).2
  have hkind : t.kind c = m.kind := by simp [Tree.kind, hm]
  have hpart := h.parts c hc
  rw [hk, hkind] at hpart
  simp only [reduceCtorEq, Option.some.injEq, false_or] at hpart
  exact ⟨m, hm, hpart.symm⟩

end Node.Formed

theorem Tree.mem_range'_of_get? {t : Tree} {id : Nat} {n : Node} (hn : t.get? id = some n) : id ∈ List.range' 1 t.size := by
  unfold Tree.get? at hn
  split at hn
  · cases hn
  · rename_i h0
    have hlt : id - 1 < t.size := (Array.getElem?_eq_some_iff.1 hn).1
    have hpos : 0 < id := Nat.pos_of_ne_zero h0
    exact List.mem_range'_1.2 (by omega)

/-- Distinct nodes of a tree are no more than the tree has. -/
theorem Tree.length_le_size {t : Tree} {D : List NodeId} (hnodup : D.Nodup) (hin : ∀ c ∈ D, ∃ n, t.get? c = some n) :
    D.length ≤ t.size := by
  have hsub : D ⊆ List.range' 1 t.size := fun c hc => by
    obtain ⟨n, hn⟩ := hin c hc
    exact mem_range'_of_get? hn
  have hle := (List.subperm_of_subset hnodup hsub).length_le
  rwa [List.length_range'] at hle

/-! ## Trees that were given types -/

/-- The node has another type. -/
def Node.Retyped (n n' : Node) : Prop := ∃ valueType completed, n' = { n with valueType, completed }

structure Tree.Retyped (t t' : Tree) : Prop where
  size : t'.size = t.size
  nodes : ∀ id n, t.get? id = some n → ∃ n', t'.get? id = some n' ∧ n.Retyped n'
  roots : t'.roots = t.roots

theorem Tree.Retyped.refl (t : Tree) : t.Retyped t := ⟨rfl, fun _ n hn => ⟨n, hn, n.valueType, n.completed, rfl⟩, rfl⟩

/-- No node was added. -/
theorem Tree.Retyped.original {t t' : Tree} (h : t.Retyped t') {id : NodeId} {n' : Node} (hn' : t'.get? id = some n') :
    ∃ n, t.get? id = some n ∧ n.Retyped n' := by
  cases hn : t.get? id with
  | some n =>
    obtain ⟨m, hm, hr⟩ := h.nodes id n hn
    cases hn'.symm.trans hm
    exact ⟨n, rfl, hr⟩
  | none =>
    obtain ⟨hpos, hlt⟩ := List.mem_range'_1.1 (mem_range'_of_get? hn')
    rw [h.size] at hlt
    unfold Tree.get? at hn
    rw [if_neg (Nat.ne_of_gt hpos), Array.getElem?_eq_none_iff] at hn
    unfold Tree.size at hlt
    exact absurd hn (by omega)

theorem Tree.Retyped.modify {t t' : Tree} (h : t.Retyped t') (id : NodeId) {f : Node → Node}
    (hf : ∀ n : Node, n.Retyped (f n)) :
    t.Retyped (t'.modify id f) := by
  refine ⟨?_, fun k n hn => ?_, ?_⟩
  · rw [← h.size]
    unfold Tree.modify Tree.size
    split <;> simp
  · obtain ⟨n', hn', v, c, rfl⟩ := h.nodes k n hn
    rw [Tree.get?_modify, hn']
    split
    · obtain ⟨v', c', hf'⟩ := hf { n with valueType := v, completed := c }
      exact ⟨_, rfl, v', c', hf'⟩
    · exact ⟨_, rfl, v, c, rfl⟩
  · rw [← h.roots]
    unfold Tree.modify
    split <;> rfl

end TreeCompiler
