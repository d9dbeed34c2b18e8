import Mathlib.Logic.Relation
import TreeCompiler.Proofs.Scope.Growth

/-!
# Trees under analysis

An analysis edits the tree it works on. It adds nodes and gives a node its type; an operator may become a call, and an
expression in a child slot may be exchanged for an implicit cast of it.

* `Tree.Alike t v w` : the nodes `v` and `w` are one expression up to implicit casts;
* `Node.Refines` : what an edit leaves of a node; `Tree.Refines` : what it leaves of a tree. What stands in a child slot is
  known only when the parts of map literals are pairs, because the parts of a map literal are written back after all of
  them were resolved. A first slot is never emptied.
-/

namespace TreeCompiler

/-- The kinds of nodes that an operator goes through. -/
def operationKinds : List NodeKind := [.binary, .unary, .call]

namespace Flags

theorem has_union_folded (f : Flags) {m : Flags} (h : folded.bits &&& m.bits = 0) : (f.union folded).has m = f.has m := by
  simp only [has, union, Nat.and_or_distrib_right, h, Nat.or_zero]

theorem has_implicit : Flags.implicit.has .implicit = true := by decide

theorem union_folded_twice (f : Flags) : (f.union folded).union folded = f.union folded := by
  simp only [union, Nat.or_assoc, Nat.or_self]

end Flags

/-! ## Nodes -/

/-- What every edit leaves of a node. -/
structure Node.Refines (n n' : Node) : Prop where
  kind : n'.kind = n.kind ∨ (n.kind = .binary ∨ n.kind = .unary) ∧ n'.kind = .call
  name : n'.name = n.name
  params : n'.params = n.params
  flags : n'.flags = n.flags ∨ n'.flags = n.flags.union .folded
  list : n.kind ∉ operationKinds → n.kind ≠ .arrayLit → n'.list = n.list

namespace Node.Refines

variable {a b c n n' : Node}

theorem refl (n : Node) : n.Refines n := ⟨.inl rfl, rfl, rfl, .inl rfl, fun _ _ => rfl⟩

/-- An edit of other parts. -/
theorem of_same (hk : n'.kind = n.kind) (hn : n'.name = n.name) (hp : n'.params = n.params) (hf : n'.flags = n.flags)
    (hl : n'.list = n.list) : n.Refines n' := ⟨.inl hk, hn, hp, .inl hf, fun _ _ => hl⟩

theorem kind_eq (h : n.Refines n') (hk : n.kind ∉ operationKinds) : n'.kind = n.kind := by
  rcases h.kind with h | ⟨h | h, -⟩
  · exact h
  · exact absurd (h ▸ by decide) hk
  · exact absurd (h ▸ by decide) hk

/-- A kind that no operation has is the kind from the beginning. -/
theorem kind_eq' (h : n.Refines n') (hk : n'.kind ∉ operationKinds) : n.kind = n'.kind := by
  rcases h.kind with h | ⟨-, h⟩
  · exact h.symm
  · exact absurd (h ▸ by decide) hk

theorem trans (h₁ : a.Refines b) (h₂ : b.Refines c) : a.Refines c := by
  refine ⟨?_, h₂.name.trans h₁.name, h₂.params.trans h₁.params, ?_, fun hk ha => ?_⟩
  · rcases h₁.kind with h | ⟨h, hc⟩
    · rw [← h]
      exact h₂.kind
    · refine .inr ⟨h, ?_⟩
      rcases h₂.kind with h' | ⟨-, h'⟩
      · exact h'.trans hc
      · exact h'
  · rcases h₁.flags with h | h <;> rcases h₂.flags with h' | h' <;> rw [h', h]
    · exact .inl rfl
    · exact .inr rfl
    · exact .inr rfl
    · exact .inr (Flags.union_folded_twice _)
  · have hkind := h₁.kind_eq hk
    exact (h₂.list (hkind ▸ hk) (hkind ▸ ha)).trans (h₁.list hk ha)

theorem has_eq (h : n.Refines n') {m : Flags} (hm : Flags.folded.bits &&& m.bits = 0) : n'.flags.has m = n.flags.has m := by
  rcases h.flags with h | h <;> rw [h]
  exact Flags.has_union_folded _ hm

theorem grows (h : n.Refines n') : n.Grows n' := by
  refine ⟨h.kind, fun hk => ?_⟩
  rw [h.list (by rw [hk]; decide) (by rw [hk]; decide)]

end Node.Refines

namespace Tree

variable {t t' : Tree}

/-! ## Implicit casts -/

/-- The node `v` is an implicit cast of `w`. -/
def Casts (t : Tree) (v w : NodeId) : Prop :=
  ∃ n, t.get? v = some n ∧ n.kind = .cast ∧ n.flags.has .implicit = true ∧ n.a = w

def Alike (t : Tree) : NodeId → NodeId → Prop := Relation.EqvGen t.Casts

namespace Alike

theorem refl (t : Tree) (v : NodeId) : t.Alike v v := Relation.EqvGen.refl v

theorem of_eq {v w : NodeId} (h : v = w) : t.Alike v w := h ▸ refl t v

theorem symm {v w : NodeId} (h : t.Alike v w) : t.Alike w v := Relation.EqvGen.symm _ _ h

theorem trans {u v w : NodeId} (h₁ : t.Alike u v) (h₂ : t.Alike v w) : t.Alike u w := Relation.EqvGen.trans _ _ _ h₁ h₂

theorem of_casts {v w : NodeId} (h : t.Casts v w) : t.Alike v w := Relation.EqvGen.rel _ _ h

/-- What is alike stays so when no cast loses its expression. -/
theorem mono {v w : NodeId} (h : t.Alike v w) (hc : ∀ v w, t.Casts v w → t'.Alike v w) : t'.Alike v w := by
  induction h with
  | rel v w h => exact hc v w h
  | refl v => exact refl t' v
  | symm v w _ ih => exact ih.symm
  | trans u v w _ _ ih₁ ih₂ => exact ih₁.trans ih₂

end Alike

/-! ## Trees -/

/-- The parts of every map literal are pairs. -/
def Paired (t : Tree) : Prop :=
  ∀ id n, t.get? id = some n → n.kind = .mapLit → ∀ p ∈ n.list, ∀ m, t.get? p = some m → m.kind = .pair

theorem Paired.of_nodes (h : ∀ id n, t.get? id = some n → ∃ n', t'.get? id = some n' ∧ n.Refines n') (hp : t'.Paired) :
    t.Paired := by
  intro id n hn hk p hpn m hm
  obtain ⟨n', hn', g⟩ := h id n hn
  obtain ⟨m', hm', gm⟩ := h p m hm
  have hlist := g.list (by rw [hk]; decide) (by rw [hk]; decide)
  have hpair := hp id n' hn' ((g.kind_eq (by rw [hk]; decide)).trans hk) p (hlist ▸ hpn) m' hm'
  exact (gm.kind_eq' (by rw [hpair]; decide)).trans hpair

/-- The nodes are one expression if the parts of map literals are pairs. -/
def Same (t : Tree) (v w : NodeId) : Prop := t.Paired → t.Alike v w

namespace Same

theorem refl (t : Tree) (v : NodeId) : t.Same v v := fun _ => .refl t v

theorem of_eq {v w : NodeId} (h : v = w) : t.Same v w := h ▸ refl t v

theorem symm {v w : NodeId} (h : t.Same v w) : t.Same w v := fun hp => (h hp).symm

theorem trans {u v w : NodeId} (h₁ : t.Same u v) (h₂ : t.Same v w) : t.Same u w := fun hp => (h₁ hp).trans (h₂ hp)

end Same

structure Refines (t t' : Tree) : Prop where
  nodes : ∀ id n, t.get? id = some n → ∃ n', t'.get? id = some n' ∧ n.Refines n'
  slots : ∀ id n n', t.get? id = some n → t'.get? id = some n' → n.kind ∉ operationKinds →
    t'.Same n'.a n.a ∧ t'.Same n'.b n.b
  filled : ∀ id n n', t.get? id = some n → t'.get? id = some n' → n.kind ∉ operationKinds → n.a ≠ 0 → n'.a ≠ 0

namespace Refines

theorem paired (h : t.Refines t') (hp : t'.Paired) : t.Paired := .of_nodes h.nodes hp

theorem same (h : t.Refines t') {v w : NodeId} (hv : t.Same v w) : t'.Same v w := by
  intro hp
  refine (hv (h.paired hp)).mono ?_
  rintro v w ⟨n, hn, hk, hi, rfl⟩
  obtain ⟨n', hn', g⟩ := h.nodes v n hn
  have hop : n.kind ∉ operationKinds := by rw [hk]; decide
  have hcast : t'.Casts v n'.a := ⟨n', hn', (g.kind_eq hop).trans hk, (g.has_eq (by decide)).trans hi, rfl⟩
  exact (Alike.of_casts hcast).trans ((h.slots v n n' hn hn' hop).1 hp)

theorem of_extends (h : t.Extends t') : t.Refines t' := by
  refine ⟨fun id n hn => ⟨n, h id n hn, .refl n⟩, fun id n n' hn hn' _ => ?_, fun id n n' hn hn' _ h0 => ?_⟩
  · cases (h id n hn).symm.trans hn'
    exact ⟨.refl _ _, .refl _ _⟩
  · cases (h id n hn).symm.trans hn'
    exact h0

theorem refl (t : Tree) : t.Refines t := .of_extends (.refl t)

theorem trans {a b c : Tree} (h₁ : a.Refines b) (h₂ : b.Refines c) : a.Refines c := by
  refine ⟨fun id n hn => ?_, fun id n n₂ hn hn₂ hk => ?_, fun id n n₂ hn hn₂ hk h0 => ?_⟩
  · obtain ⟨n₁, hn₁, g₁⟩ := h₁.nodes id n hn
    obtain ⟨n₂, hn₂, g₂⟩ := h₂.nodes id n₁ hn₁
    exact ⟨n₂, hn₂, g₁.trans g₂⟩
  · obtain ⟨n₁, hn₁, g₁⟩ := h₁.nodes id n hn
    obtain ⟨ha₁, hb₁⟩ := h₁.slots id n n₁ hn hn₁ hk
    obtain ⟨ha₂, hb₂⟩ := h₂.slots id n₁ n₂ hn₁ hn₂ (g₁.kind_eq hk ▸ hk)
    exact ⟨ha₂.trans (h₂.same ha₁), hb₂.trans (h₂.same hb₁)⟩
  · obtain ⟨n₁, hn₁, g₁⟩ := h₁.nodes id n hn
    exact h₂.filled id n₁ n₂ hn₁ hn₂ (g₁.kind_eq hk ▸ hk) (h₁.filled id n n₁ hn hn₁ hk h0)

theorem grows (h : t.Refines t') : t.Grows t' := by
  intro id n hn
  obtain ⟨n', hn', g⟩ := h.nodes id n hn
  exact ⟨n', hn', g.grows⟩

end Refines

/-! ## Edits of one node -/

theorem nodes_modify {id : NodeId} {f : Node → Node} (h : ∀ n, t.get? id = some n → n.Refines (f n)) (k : NodeId) (n : Node)
    (hn : t.get? k = some n) : ∃ n', (t.modify id f).get? k = some n' ∧ n.Refines n' := by
  rw [get?_modify, hn]
  split
  · subst k
    exact ⟨f n, rfl, h n hn⟩
  · exact ⟨n, rfl, .refl n⟩

theorem refines_modify {id : NodeId} {f : Node → Node} (h : ∀ n, t.get? id = some n → n.Refines (f n))
    (hs : ∀ n, t.get? id = some n → n.kind ∉ operationKinds →
      (t.modify id f).Same (f n).a n.a ∧ (t.modify id f).Same (f n).b n.b ∧ (n.a ≠ 0 → (f n).a ≠ 0)) :
    t.Refines (t.modify id f) := by
  have hslots (k n n') (hn : t.get? k = some n) (hn' : (t.modify id f).get? k = some n') (hk : n.kind ∉ operationKinds) :
      (t.modify id f).Same n'.a n.a ∧ (t.modify id f).Same n'.b n.b ∧ (n.a ≠ 0 → n'.a ≠ 0) := by
    rw [get?_modify, hn] at hn'
    split at hn'
    · subst k
      cases hn'
      exact hs n hn hk
    · cases hn'
      exact ⟨.refl _ _, .refl _ _, fun h => h⟩
  refine ⟨nodes_modify h, fun k n n' hn hn' hk => ?_, fun k n n' hn hn' hk => (hslots k n n' hn hn' hk).2.2⟩
  exact ⟨(hslots k n n' hn hn' hk).1, (hslots k n n' hn hn' hk).2.1⟩

/-- An edit that leaves the child slots alone. -/
theorem refines_modify_same {id : NodeId} {f : Node → Node}
    (h : ∀ n, t.get? id = some n → n.Refines (f n) ∧ (f n).a = n.a ∧ (f n).b = n.b) : t.Refines (t.modify id f) :=
  refines_modify (fun n hn => (h n hn).1) fun n hn _ =>
    ⟨.of_eq (h n hn).2.1, .of_eq (h n hn).2.2, fun h0 => (h n hn).2.1 ▸ h0⟩

/-- A cast of a slot's expression is still one after an edit elsewhere. -/
theorem Casts.modify {id : NodeId} {f : Node → Node} {v w : NodeId} (h : t.Casts v w) (hv : v ≠ id) :
    (t.modify id f).Casts v w := by
  obtain ⟨n, hn, hc⟩ := h
  exact ⟨n, by rw [get?_modify, if_neg hv, hn], hc⟩

/-- An edit of a node that is no cast keeps every cast. -/
theorem Alike.modify {id v w : NodeId} {n : Node} {f : Node → Node} (h : t.Alike v w) (hn : t.get? id = some n)
    (hk : n.kind ≠ .cast) : (t.modify id f).Alike v w := by
  refine h.mono fun v w hc => .of_casts (hc.modify ?_)
  rintro rfl
  obtain ⟨c, hget, hcast, -⟩ := hc
  cases hn.symm.trans hget
  exact hk hcast

/-- An edit of a part of a map literal, which is no cast. -/
theorem Same.modify {id p v w : NodeId} {m n : Node} {f : Node → Node} (h : t.Same v w) (hm : t.get? id = some m)
    (hk : m.kind = .mapLit) (hp : p ∈ m.list) (hn : t.get? p = some n)
    (hf : ∀ n, t.get? p = some n → n.Refines (f n)) : (t.modify p f).Same v w := by
  intro hpaired
  have hold := Paired.of_nodes (nodes_modify hf) hpaired
  refine (h hold).modify hn ?_
  rw [hold id m hm hk p hp n hn]
  decide

/-- The key and the value of a pair are written back. -/
theorem refines_modify_pair {id p k v : NodeId} {m n : Node} (hm : t.get? id = some m) (hk : m.kind = .mapLit)
    (hp : p ∈ m.list) (hn : t.get? p = some n) (ha : t.Same k n.a) (hb : t.Same v n.b) (h0 : k ≠ 0) :
    t.Refines (t.modify p fun n => { n with a := k, b := v }) := by
  have hnodes (n' : Node) (_ : t.get? p = some n') : n'.Refines { n' with a := k, b := v } := .of_same rfl rfl rfl rfl rfl
  refine refines_modify hnodes fun n' hn' _ => ?_
  cases hn.symm.trans hn'
  exact ⟨ha.modify hm hk hp hn hnodes, hb.modify hm hk hp hn hnodes, fun _ => h0⟩

end Tree

end TreeCompiler
