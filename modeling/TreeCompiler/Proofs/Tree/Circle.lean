import TreeCompiler.Proofs.Except
import TreeCompiler.Proofs.Tree.Formed
import TreeCompiler.Tree.Unit
import Mathlib.Logic.Relation

/-!
# Circles in a tree

The nodes of a decoded tree refer to nodes that exist, and no more is known of them: a node may be its own child. Walking and
copying descend without looking back, so they end exactly where no circle can be reached.

* `Tree.Child`, `Tree.MeetsCircle` : the edges that a walk follows, and that following them from a node can lead around;
* `Tree.Descends` : a way down through nodes of the tree. Without a circle it is shorter than the tree is large;
* `walk_isSome`, `copy_isSome` : walking and copying end when no circle is met; `walkAux_eq_none`, `copyAux_eq_none` : when one
  is, they do not end with any fuel;
* `decodeUnit_closed` : what validation says of the children.
-/

namespace TreeCompiler

namespace Tree

variable {t t' : Tree} {enter : NodeId → Bool} {id : NodeId}

/-- The walk enters `x` and goes on to `c`. -/
def Child (t : Tree) (enter : NodeId → Bool) (x c : NodeId) : Prop :=
  enter x = true ∧ ∃ n, t.get? x = some n ∧ c ∈ n.children

def MeetsCircle (t : Tree) (enter : NodeId → Bool) (id : NodeId) : Prop :=
  ∃ x, Relation.ReflTransGen (t.Child enter) id x ∧ Relation.TransGen (t.Child enter) x x

theorem not_meetsCircle_of_acc (h : Acc (fun c x => t.Child enter x c) id) : ¬t.MeetsCircle enter id := by
  rintro ⟨x, hreach, hcircle⟩
  have hx : Acc (fun c x => t.Child enter x c) x := by
    clear hcircle
    induction hreach with
    | refl => exact h
    | tail _ hstep ih => exact ih.inv hstep
  have hloop : Relation.TransGen (fun c x => t.Child enter x c) x x := Relation.transGen_swap.2 hcircle
  have hacc := acc_transGen_iff.2 hx
  clear hreach hcircle hx
  induction hacc with
  | intro x _ ih => exact ih x hloop hloop

/-! ## Ways down -/

/-- From `id` down through the nodes `l`. -/
structure Descends (t : Tree) (enter : NodeId → Bool) (id : NodeId) (l : List NodeId) : Prop where
  chain : List.IsChain (t.Child enter) (id :: l)
  real : ∀ x ∈ id :: l, ∃ n, t.get? x = some n

theorem Descends.single {n : Node} (hn : t.get? id = some n) : t.Descends enter id [] where
  chain := List.isChain_singleton id
  real x hx := by
    rw [List.mem_singleton] at hx
    exact ⟨n, hx ▸ hn⟩

theorem Descends.cons {c : NodeId} {n : Node} {l : List NodeId} (h : t.Descends enter c l) (henter : enter id = true)
    (hn : t.get? id = some n) (hc : c ∈ n.children) : t.Descends enter id (c :: l) where
  chain := List.isChain_cons_cons.2 ⟨⟨henter, n, hn, hc⟩, h.chain⟩
  real x hx := by
    rcases List.mem_cons.1 hx with rfl | hx
    · exact ⟨n, hn⟩
    · exact h.real x hx

/-- A way down that does not lead around meets each node once. -/
theorem Descends.length_lt {l : List NodeId} (h : t.Descends enter id l) (hc : ¬t.MeetsCircle enter id) :
    l.length < t.size := by
  have hbelow : (id :: l).Pairwise (Relation.TransGen (t.Child enter)) :=
    (h.chain.imp fun _ _ => Relation.TransGen.single).pairwise
  have hreach : ∀ x ∈ id :: l, Relation.ReflTransGen (t.Child enter) id x := by
    intro x hx
    rcases List.mem_cons.1 hx with rfl | hx
    · exact .refl
    · exact ((List.pairwise_cons.1 hbelow).1 x hx).to_reflTransGen
  have hnodup : (id :: l).Nodup := by
    refine hbelow.imp_of_mem fun hx _ hxy => ?_
    rintro rfl
    exact hc ⟨_, hreach _ hx, hxy⟩
  exact length_le_size hnodup h.real

/-! ## Walking -/

theorem child_iff {c : NodeId} : t.Child enter id c ↔ id ≠ 0 ∧ enter id = true ∧ c ∈ (t.children? id).getD [] := by
  unfold Child children?
  cases hn : t.get? id with
  | none => simp
  | some n =>
    have h0 : id ≠ 0 := by
      rintro rfl
      cases hn
    simp [h0]

/-- A walk ends with one level more of fuel when it does from each child that it goes on to. -/
theorem walkAux_isSome_iff {fuel : Nat} :
    (t.walkAux enter (fuel + 1) id).isSome ↔ ∀ c, t.Child enter id c → (t.walkAux enter fuel c).isSome := by
  simp only [child_iff]
  rw [walkAux]
  by_cases h0 : id = 0
  · simp [h0]
  · by_cases henter : enter id = true
    · simp only [h0, henter, if_false, if_true, Option.isSome_map, Option.isSome_mapM, ne_eq, not_false_eq_true, true_and]
    · simp [h0, henter]

theorem acc_of_walkAux {fuel : Nat} : ∀ {id}, (t.walkAux enter fuel id).isSome → Acc (fun c x => t.Child enter x c) id := by
  induction fuel with
  | zero => nofun
  | succ fuel ih => exact fun h => ⟨_, fun c hc => ih (walkAux_isSome_iff.1 h c hc)⟩

/-- A walk that ran out of fuel has gone down as deep as the fuel reached. -/
theorem exists_descends {fuel : Nat} :
    ∀ {id}, ¬(t.walkAux enter (fuel + 1) id).isSome → ∃ l, t.Descends enter id l ∧ l.length = fuel := by
  induction fuel with
  | zero =>
    intro id h
    rw [walkAux_isSome_iff] at h
    push Not at h
    obtain ⟨c, ⟨-, n, hn, -⟩, -⟩ := h
    exact ⟨[], .single hn, rfl⟩
  | succ fuel ih =>
    intro id h
    rw [walkAux_isSome_iff] at h
    push Not at h
    obtain ⟨c, ⟨henter, n, hn, hc⟩, hnone⟩ := h
    obtain ⟨l, hl, hlength⟩ := ih hnone
    exact ⟨c :: l, hl.cons henter hn hc, by rw [List.length_cons, hlength]⟩

theorem walkAux_isSome_of_not_meetsCircle {fuel : Nat} (h : ¬t.MeetsCircle enter id) (hfuel : t.size < fuel) :
    (t.walkAux enter fuel id).isSome := by
  obtain ⟨fuel, rfl⟩ : ∃ k, fuel = k + 1 := ⟨fuel - 1, by omega⟩
  by_contra hnone
  obtain ⟨l, hl, hlength⟩ := exists_descends hnone
  have hlt := hl.length_lt h
  omega

theorem walk_isSome (h : ¬t.MeetsCircle enter id) : (t.walk enter id).isSome :=
  walkAux_isSome_of_not_meetsCircle h (by omega)

/-- Around a circle no amount of fuel is enough. -/
theorem walkAux_eq_none (h : t.MeetsCircle enter id) (fuel : Nat) : t.walkAux enter fuel id = none := by
  by_contra hsome
  exact not_meetsCircle_of_acc (acc_of_walkAux (Option.isSome_iff_ne_none.2 hsome)) h

/-! ## Copying -/

/-- All slots of a node in the order in which they are copied, the empty ones as well. -/
def slots (n : Node) : List NodeId := n.a :: n.b :: n.c :: n.d :: (n.typeArgs ++ n.list)

theorem mem_children_iff {n : Node} {c : NodeId} : c ∈ n.children ↔
    (c ≠ 0 ∧ (c = n.a ∨ c = n.b ∨ c = n.c ∨ c = n.d)) ∨ c ∈ n.typeArgs ∨ c ∈ n.list := by
  simp [Node.children, and_comm]

theorem mem_slots_iff {n : Node} {c : NodeId} : c ∈ slots n ↔
    (c = n.a ∨ c = n.b ∨ c = n.c ∨ c = n.d) ∨ c ∈ n.typeArgs ∨ c ∈ n.list := by
  simp [slots, or_assoc]

theorem mem_slots_of_children {n : Node} {c : NodeId} (h : c ∈ n.children) : c ∈ slots n :=
  mem_slots_iff.2 ((mem_children_iff.1 h).imp_left And.right)

theorem mem_slots {n : Node} {c : NodeId} (h : c ∈ slots n) : c = 0 ∨ c ∈ n.children := by
  rw [mem_children_iff]
  rcases eq_or_ne c 0 with h0 | h0
  · exact .inl h0
  · exact .inr ((mem_slots_iff.1 h).imp_left fun h => ⟨h0, h⟩)

section CopyList

variable {copy : Tree → NodeId → Option (NodeId × Tree)}

theorem copyListWith_append (xs ys : List NodeId) : ∀ t, copyListWith copy t (xs ++ ys) = (do
    let (xs', t) ← copyListWith copy t xs
    let (ys', t) ← copyListWith copy t ys
    return (xs' ++ ys', t)) := by
  induction xs with
  | nil => intro t; simp [copyListWith]
  | cons x xs ih => intro t; simp [copyListWith, ih, Option.bind_assoc]

variable (hcopy : ∀ t id r, copy t id = some r → t.Extends r.2)
include hcopy

theorem copyListWith_isSome {ids : List NodeId} (h : ∀ c ∈ ids, ∀ t', t.Extends t' → (copy t' c).isSome) :
    ∀ t', t.Extends t' → (copyListWith copy t' ids).isSome := by
  induction ids with
  | nil => exact fun _ _ => rfl
  | cons c ids ih =>
    intro t' ht
    obtain ⟨r, hr⟩ := Option.isSome_iff_exists.1 (h c (List.mem_cons_self ..) t' ht)
    obtain ⟨rs, hrs⟩ := Option.isSome_iff_exists.1
      (ih (fun c hc => h c (List.mem_cons_of_mem _ hc)) r.2 (ht.trans (hcopy _ _ _ hr)))
    simp [copyListWith, hr, hrs]

theorem exists_copy_isSome {ids : List NodeId} {c : NodeId} (hc : c ∈ ids) :
    ∀ {t'}, t.Extends t' → (copyListWith copy t' ids).isSome → ∃ t'', t.Extends t'' ∧ (copy t'' c).isSome := by
  induction ids with
  | nil => cases hc
  | cons x ids ih =>
    intro t' ht h
    cases hx : copy t' x with
    | none => simp [copyListWith, hx] at h
    | some r =>
      rcases List.mem_cons.1 hc with rfl | hc
      · exact ⟨t', ht, by rw [hx]; rfl⟩
      · refine ih hc (ht.trans (hcopy _ _ _ hx)) ?_
        cases hrs : copyListWith copy r.2 ids with
        | none => simp [copyListWith, hx, hrs] at h
        | some rs => rfl

end CopyList

theorem copyAux_isSome_eq {fuel : Nat} {n : Node} (hn : t.get? id = some n) :
    (copyAux (fuel + 1) t id).isSome = (copyListWith (copyAux fuel) t (slots n)).isSome := by
  simp [copyAux, hn, slots, copyListWith_append, copyListWith, Option.isSome_bind]

/-- The children of a node exist. -/
def Closed (t : Tree) : Prop := ∀ id n, t.get? id = some n → ∀ c ∈ n.children, t.Has c

theorem Has.get?_eq (h : t.Has id) (ht : t.Extends t') : t'.get? id = t.get? id := by
  rcases h with rfl | ⟨n, hn⟩
  · rfl
  · rw [hn, ht id n hn]

theorem Closed.slot (h : t.Closed) {n : Node} (hn : t.get? id = some n) {c : NodeId} (hc : c ∈ slots n) : t.Has c := by
  rcases mem_slots hc with h0 | hc
  · exact .inl h0
  · exact h id n hn c hc

theorem copyAux_extends {fuel : Nat} (t : Tree) (id : NodeId) (r : NodeId × Tree) (h : copyAux fuel t id = some r) :
    t.Extends r.2 := (copyAux_copies fuel t id r h).1

/-- What is copied is what is walked over: the copies that were made before do not change the nodes that are left. -/
theorem walkAux_of_copyAux (hclosed : t.Closed) {fuel : Nat} : ∀ {t' id}, t.Extends t' → t.Has id →
    (copyAux fuel t' id).isSome → (t.walkAux (fun _ => true) fuel id).isSome := by
  induction fuel with
  | zero =>
    intro _ _ _ _ h
    cases h
  | succ fuel ih =>
    intro t' id ht hid h
    rw [walkAux_isSome_iff]
    rintro c ⟨-, n, hn, hc⟩
    rw [copyAux_isSome_eq (ht id n hn)] at h
    obtain ⟨t'', ht'', hcopied⟩ := exists_copy_isSome copyAux_extends (mem_slots_of_children hc) ht h
    exact ih ht'' (hclosed id n hn c hc) hcopied

/-- An empty slot takes a level of fuel to copy. -/
theorem copyAux_of_walkAux (hclosed : t.Closed) {fuel : Nat} : ∀ {t' id}, t.Extends t' → t.Has id →
    (t.walkAux (fun _ => true) fuel id).isSome → (copyAux (fuel + 1) t' id).isSome := by
  induction fuel with
  | zero =>
    intro _ _ _ _ h
    cases h
  | succ fuel ih =>
    intro t' id ht hid h
    have hsame := hid.get?_eq ht
    cases hn : t.get? id with
    | none =>
      rw [hn] at hsame
      simp [copyAux, hsame]
    | some n =>
      rw [hn] at hsame
      rw [copyAux_isSome_eq hsame]
      refine copyListWith_isSome copyAux_extends (fun c hc t'' ht'' => ?_) t' ht
      rcases mem_slots hc with rfl | hc
      · rfl
      · exact ih ht'' (hclosed id n hn c hc) (walkAux_isSome_iff.1 h c ⟨rfl, n, hn, hc⟩)

theorem copy_isSome (hclosed : t.Closed) (hid : t.Has id) (h : ¬t.MeetsCircle (fun _ => true) id) : (t.copy id).isSome :=
  copyAux_of_walkAux hclosed (.refl t) hid (walkAux_isSome_of_not_meetsCircle h (by omega))

theorem copyAux_eq_none (hclosed : t.Closed) (hid : t.Has id) (h : t.MeetsCircle (fun _ => true) id) (fuel : Nat) :
    copyAux fuel t id = none := by
  by_contra hsome
  have hwalk := walkAux_of_copyAux hclosed (.refl t) hid (Option.isSome_iff_ne_none.2 hsome)
  exact not_meetsCircle_of_acc (acc_of_walkAux hwalk) h

/-! ## Decoded trees -/

theorem has_of_le_size (h : id ≤ t.size) : t.Has id := by
  rcases eq_or_ne id 0 with h0 | h0
  · exact .inl h0
  · have hlt : id - 1 < t.nodes.size := Nat.sub_one_lt_of_le (Nat.pos_of_ne_zero h0) h
    exact .inr ⟨_, (if_neg h0).trans (Array.getElem?_eq_getElem hlt)⟩

theorem validateNode_ok {n : Node} (h : t.validateNode id n = .ok ()) {c : NodeId} (hc : c ∈ n.children) : t.Has c := by
  refine has_of_le_size (Nat.le_of_not_lt fun hlt => ?_)
  unfold validateNode at h
  cases hfind : n.children.find? (fun c => decide (t.size < c)) with
  | none => exact List.find?_eq_none.1 hfind c hc (decide_eq_true hlt)
  | some _ =>
    rw [hfind] at h
    dsimp only at h
    split at h
    · cases h
    · split at h <;> cases h

theorem validate_ok (h : t.validate = .ok ()) : t.Closed := by
  intro id n hn c hc
  obtain ⟨⟨⟩, -, hnodes⟩ := Except.bind_ok h
  unfold get? at hn
  split at hn
  · cases hn
  · rw [← Array.getElem?_toList, ← List.mk_mem_zipIdx_iff_getElem?] at hn
    exact validateNode_ok (Except.forM_eq_ok_iff.1 hnodes _ hn) hc

/-- The nodes of a decoded tree refer to nodes of the tree. -/
theorem decodeUnit_closed {bs : Bytes} (h : decodeUnit bs = .ok t) : t.Closed := by
  unfold decodeUnit at h
  split at h
  · split at h
    · split at h
      · cases h
      · obtain ⟨⟨⟩, hvalid, h⟩ := Except.bind_ok h
        cases h
        exact validate_ok hvalid
    · cases h
  · cases h

end Tree

end TreeCompiler
