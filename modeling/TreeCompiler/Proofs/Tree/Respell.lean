import Mathlib.Data.List.Forall2
import TreeCompiler.Proofs.Scope.Growth
import TreeCompiler.Proofs.Text.Compose

/-!
# Trees in another spelling

Two trees may differ in how the names of declarations and of their uses are spelled. Some names are compared as they are
written, so those are spelled alike in both: the name of a member, and the names of what a union declaration, a match, a
struct type or a struct literal lists.

* `Dialect` : which spellings stand for one name; `Dialect.exact`, `Dialect.canonical` : no others than the name itself, and
  every canonically equivalent one;
* `Node.spelled` : a node with other spellings; `Node.written` : the nodes whose names are compared as they are written;
* `Dialect.Respells` : trees that differ in spelling only. Edits of both trees that do the same keep it (`Respells.modify`,
  `Respells.push`, `Respells.copy`).
-/

namespace TreeCompiler

/-- Which spellings stand for one name. -/
structure Dialect where
  Same : String → String → Prop
  refl : ∀ x, Same x x
  normal : ∀ {x y}, Same x y → Compose.normalize x = Compose.normalize y

namespace Dialect

/-- Every name has one spelling. -/
def exact : Dialect where
  Same x y := x = y
  refl _ := rfl
  normal h := congrArg Compose.normalize h

/-- Canonically equivalent spellings. -/
def canonical : Dialect where
  Same x y := Compose.normalize x = Compose.normalize y
  refl _ := rfl
  normal h := h

def Strict (d : Dialect) : Prop := ∀ x y, d.Same x y → x = y

theorem strict_exact : exact.Strict := fun _ _ h => h

variable {d : Dialect}

theorem empty_iff {x y : String} (h : d.Same x y) : y = "" ↔ x = "" := by
  rw [← Compose.normalize_eq_empty, ← d.normal h, Compose.normalize_eq_empty]

end Dialect

/-! ## Nodes -/

/-- The spellings of the names that a node carries. -/
structure Spelling where
  name : String
  path : List String
  bind : String

/-- The kinds of nodes that list what is compared as it is written. -/
def listingKinds : List NodeKind := [.unionDecl, .matchStmt, .typeStruct, .structLit]

namespace Node

@[reducible] def spelled (n : Node) (w : Spelling) : Node := { n with name := w.name, path := w.path, bind := w.bind }

def spelling (n : Node) : Spelling := ⟨n.name, n.path, n.bind⟩

theorem spelled_spelling (n : Node) : n.spelled n.spelling = n := rfl

/-- An edit that commutes with spelling leaves the names alone. -/
theorem names_of_spelled {f f' : Node → Node} (hf : ∀ n w, f' (spelled n w) = (f n).spelled w) (n : Node) :
    (f' n).name = n.name ∧ (f' n).path = n.path ∧ (f' n).bind = n.bind := by
  have hspelled := hf n n.spelling
  rw [spelled_spelling] at hspelled
  rw [hspelled]
  exact ⟨rfl, rfl, rfl⟩

/-- The nodes whose names are compared as they are written, as the node `n` with the number `id` tells. -/
def written (n : Node) (id : NodeId) : List NodeId :=
  (if n.kind = .member then [id] else []) ++ (if n.kind ∈ listingKinds then n.list else [])

theorem mem_written_list {n : Node} {id c : NodeId} (hk : n.kind ∈ listingKinds) (hc : c ∈ n.list) : c ∈ n.written id := by
  rw [written, if_pos hk]
  exact List.mem_append_right _ hc

theorem mem_written_member {n : Node} {id : NodeId} (hk : n.kind = .member) : id ∈ n.written id := by
  rw [written, if_pos hk]
  exact List.mem_append_left _ (List.mem_singleton_self id)

/-- A node over other children, before it has a type. -/
def rebuilt (n : Node) (a b c d : NodeId) (typeArgs list : List NodeId) : Node :=
  { n with a, b, c, d, typeArgs, list, valueType := 0, completed := false }

theorem written_congr {m n : Node} (hk : m.kind = n.kind) (hl : m.list = n.list) (id : NodeId) :
    m.written id = n.written id := by
  rw [written, written, hk, hl]

end Node

/-- The node lists nothing that is compared as it is written. -/
def Tree.Plain (t : Tree) (id : NodeId) : Prop := ∃ n, t.get? id = some n ∧ n.kind ∉ listingKinds

theorem Tree.plain_modify {t : Tree} (id : NodeId) {f : Node → Node}
    (hf : ∀ n, n.kind ∉ listingKinds → (f n).kind ∉ listingKinds) (k : NodeId) (h : t.Plain k) :
    (t.modify id f).Plain k := by
  obtain ⟨n, hn, hk⟩ := h
  unfold Plain
  rw [get?_modify, hn]
  split
  · exact ⟨f n, rfl, hf n hk⟩
  · exact ⟨n, rfl, hk⟩

theorem Tree.Extends.plain {t t' : Tree} (h : t.Extends t') (k : NodeId) (hk : t.Plain k) : t'.Plain k := by
  obtain ⟨n, hn, hkind⟩ := hk
  exact ⟨n, h k n hn, hkind⟩

namespace Dialect

variable {d : Dialect}

/-- The spellings `w` stand for the names of the node `n`. -/
class Spells (d : Dialect) (n : Node) (w : Spelling) : Prop where
  name : d.Same n.name w.name
  path : List.Forall₂ d.Same n.path w.path
  bind : d.Same n.bind w.bind

theorem forall₂_refl (d : Dialect) (xs : List String) : List.Forall₂ d.Same xs xs :=
  List.forall₂_same.2 fun x _ => d.refl x

theorem spells_refl (d : Dialect) (n : Node) : d.Spells n n.spelling := ⟨d.refl _, d.forall₂_refl _, d.refl _⟩

/-- An edit of other parts. -/
theorem Spells.congr {m n : Node} {w : Spelling} (h : d.Spells n w) (hn : m.name = n.name) (hp : m.path = n.path)
    (hb : m.bind = n.bind) : d.Spells m w :=
  ⟨hn ▸ h.name, hp ▸ h.path, hb ▸ h.bind⟩

theorem eq_of_forall₂ (hd : d.Strict) {xs ys : List String} (h : List.Forall₂ d.Same xs ys) : ys = xs := by
  have heq : List.Forall₂ Eq xs ys := h.imp hd
  rw [List.forall₂_eq_eq_eq] at heq
  exact heq.symm

theorem Spells.eq (hd : d.Strict) {n : Node} {w : Spelling} (h : d.Spells n w) : n.spelled w = n := by
  rw [Node.spelled, ← hd _ _ h.name, ← hd _ _ h.bind, eq_of_forall₂ hd h.path]

/-! ## Trees -/

/-- The node `c` has one spelling in both trees. -/
def Written (d : Dialect) (t t' : Tree) (c : NodeId) : Prop :=
  d.Strict ∨ ∃ n n', t.get? c = some n ∧ t'.get? c = some n' ∧ n'.name = n.name

structure Respells (d : Dialect) (t t' : Tree) : Prop where
  files : t'.files = t.files
  roots : t'.roots = t.roots
  size : t'.size = t.size
  nodes : ∀ id n, t.get? id = some n → ∃ w, d.Spells n w ∧ t'.get? id = some (n.spelled w)
  written : ∀ id n, t.get? id = some n → ∀ c ∈ n.written id, d.Written t t' c

theorem respells_refl (hd : d.Strict) (t : Tree) : d.Respells t t :=
  ⟨rfl, rfl, rfl, fun _ n hn => ⟨n.spelling, d.spells_refl n, hn⟩, fun _ _ _ _ _ => .inl hd⟩

/-- Trees that are given node by node. -/
theorem respells_of_nodes {t t' : Tree} (hfiles : t'.files = t.files) (hroots : t'.roots = t.roots)
    (hnodes : List.Forall₂ (fun n n' => ∃ w, d.Spells n w ∧ n' = Node.spelled n w) t.nodes.toList t'.nodes.toList)
    (hwritten : ∀ p ∈ t.nodes.toList.zipIdx 1, ∀ c ∈ p.1.written p.2,
      (t.get? c).isSome ∧ (t'.get? c).map (·.name) = (t.get? c).map (·.name)) : d.Respells t t' := by
  obtain ⟨hlength, hget⟩ := List.forall₂_iff_get.1 hnodes
  have hentry {id : NodeId} {n : Node} (hn : t.get? id = some n) : id ≠ 0 ∧ t.nodes.toList[id - 1]? = some n := by
    unfold Tree.get? at hn
    split at hn
    · cases hn
    · exact ⟨‹_›, by rw [Array.getElem?_toList]; exact hn⟩
  refine ⟨hfiles, hroots, hlength.symm, fun id n hn => ?_, fun id n hn c hc => ?_⟩
  · obtain ⟨hid, hn⟩ := hentry hn
    obtain ⟨hlt, rfl⟩ := List.getElem?_eq_some_iff.1 hn
    obtain ⟨w, hs, hw⟩ := hget (id - 1) hlt (hlength ▸ hlt)
    refine ⟨w, hs, ?_⟩
    unfold Tree.get?
    rw [if_neg hid, ← Array.getElem?_toList, List.getElem?_eq_getElem (hlength ▸ hlt)]
    exact congrArg some hw
  · obtain ⟨hid, hn⟩ := hentry hn
    have hmem : (n, id) ∈ t.nodes.toList.zipIdx 1 :=
      List.mk_mem_zipIdx_iff_le_and_getElem?_sub.2 ⟨Nat.one_le_iff_ne_zero.2 hid, hn⟩
    obtain ⟨hsome, hname⟩ := hwritten (n, id) hmem c hc
    obtain ⟨m, hm⟩ := Option.isSome_iff_exists.1 hsome
    rw [hm, Option.map_some] at hname
    obtain ⟨m', hm', heq⟩ := Option.map_eq_some_iff.1 hname
    exact .inr ⟨m, m', hm, hm', heq⟩

/-- Nodes are added, and the others keep their names. -/
def KeepsNames (t t' : Tree) : Prop := ∀ id n, t.get? id = some n → ∃ n', t'.get? id = some n' ∧ n'.name = n.name

theorem KeepsNames.of_extends {t t' : Tree} (h : t.Extends t') : KeepsNames t t' := fun id n hn => ⟨n, h id n hn, rfl⟩

theorem keepsNames_modify (t : Tree) (id : NodeId) {f : Node → Node} (hf : ∀ n, (f n).name = n.name) :
    KeepsNames t (t.modify id f) := by
  intro k n hn
  rw [Tree.get?_modify, hn]
  split
  · exact ⟨f n, rfl, hf n⟩
  · exact ⟨n, rfl, rfl⟩

theorem Written.mono {t t' u u' : Tree} {c : NodeId} (h : d.Written t t' c) (hu : KeepsNames t u) (hu' : KeepsNames t' u') :
    d.Written u u' c := by
  refine h.imp_right ?_
  rintro ⟨n, n', hn, hn', hname⟩
  obtain ⟨m, hm, hmn⟩ := hu c n hn
  obtain ⟨m', hm', hmn'⟩ := hu' c n' hn'
  exact ⟨m, m', hm, hm', by rw [hmn', hname, hmn]⟩

theorem Written.name_eq {t t' : Tree} {c : NodeId} {n : Node} {w : Spelling} (h : d.Written t t' c) (hs : d.Spells n w)
    (hn : t.get? c = some n) (hn' : t'.get? c = some (n.spelled w)) : w.name = n.name := by
  rcases h with hd | ⟨m, m', hm, hm', hname⟩
  · exact (hd _ _ hs.name).symm
  · cases hn.symm.trans hm
    cases hn'.symm.trans hm'
    exact hname

theorem get?_eq_none_iff (t : Tree) (id : Nat) : t.get? id = none ↔ id = 0 ∨ t.nodes.size < id := by
  unfold Tree.get?
  cases id with
  | zero => simp
  | succ id =>
    change t.nodes[id]? = none ↔ _
    rw [Array.getElem?_eq_none_iff]
    omega

namespace Respells

variable {t t' : Tree}

theorem get?_none (h : d.Respells t t') {id : NodeId} (hn : t.get? id = none) : t'.get? id = none := by
  have hsize : t'.nodes.size = t.nodes.size := h.size
  rw [get?_eq_none_iff] at hn ⊢
  rwa [hsize]

theorem get?_map {α : Type} (h : d.Respells t t') (f : Node → α) (hf : ∀ n w, f (Node.spelled n w) = f n) (id : NodeId) :
    (t'.get? id).map f = (t.get? id).map f := by
  cases hn : t.get? id with
  | none => rw [h.get?_none hn]
  | some n =>
    obtain ⟨w, -, hn'⟩ := h.nodes id n hn
    rw [hn', Option.map_some, Option.map_some, hf]

theorem kind (h : d.Respells t t') (id : NodeId) : t'.kind id = t.kind id :=
  congrArg (·.getD NodeKind.invalid) (h.get?_map (·.kind) (fun _ _ => rfl) id)

theorem span (h : d.Respells t t') (id : NodeId) : t'.span id = t.span id :=
  congrArg (·.getD {}) (h.get?_map (·.span) (fun _ _ => rfl) id)

theorem children? (h : d.Respells t t') (id : NodeId) : t'.children? id = t.children? id :=
  h.get?_map _ (fun _ _ => rfl) id

theorem walk (h : d.Respells t t') (enter : NodeId → Bool) (id : NodeId) : t'.walk enter id = t.walk enter id := by
  have hchildren : t'.children? = t.children? := funext h.children?
  have haux (fuel : Nat) (id : NodeId) : t'.walkAux enter fuel id = t.walkAux enter fuel id := by
    induction fuel generalizing id with
    | zero => rfl
    | succ fuel ih =>
      unfold Tree.walkAux
      rw [hchildren, funext ih]
  unfold Tree.walk
  rw [haux, h.size]

theorem eq_of_strict (hd : d.Strict) (h : d.Respells t t') : t' = t := by
  have hnodes : t'.nodes = t.nodes := by
    refine Array.ext h.size fun i hi' hi => ?_
    have hn : t.get? (i + 1) = some t.nodes[i] := by simp [Tree.get?, hi]
    obtain ⟨w, hs, hn'⟩ := h.nodes _ _ hn
    rw [hs.eq hd] at hn'
    simpa [Tree.get?, hi'] using hn'
  have hfiles := h.files
  have hroots := h.roots
  cases t
  cases t'
  simp_all

/-! ### Edits -/

theorem modify (h : d.Respells t t') (id : NodeId) {f f' : Node → Node} (hf : ∀ n w, f' (Node.spelled n w) = (f n).spelled w)
    (hn : ∀ n, (f n).name = n.name ∧ (f n).path = n.path ∧ (f n).bind = n.bind)
    (hw : ∀ n, t.get? id = some n → ∀ c ∈ (f n).written id, c ∈ n.written id ∨ d.Written t t' c) :
    d.Respells (t.modify id f) (t'.modify id f') := by
  have hf' (n : Node) : (f' n).name = n.name := (Node.names_of_spelled hf n).1
  have hmono {c : NodeId} (hc : d.Written t t' c) : d.Written (t.modify id f) (t'.modify id f') c :=
    hc.mono (keepsNames_modify t id fun n => (hn n).1) (keepsNames_modify t' id hf')
  have hsize (t : Tree) (f : Node → Node) : (t.modify id f).size = t.size ∧ (t.modify id f).files = t.files ∧
      (t.modify id f).roots = t.roots := by
    unfold Tree.modify Tree.size
    split <;> simp
  refine ⟨?_, ?_, ?_, fun k n hk => ?_, fun k n hk c hc => ?_⟩
  · rw [(hsize t' f').2.1, (hsize t f).2.1, h.files]
  · rw [(hsize t' f').2.2, (hsize t f).2.2, h.roots]
  · rw [(hsize t' f').1, (hsize t f).1, h.size]
  · rw [Tree.get?_modify] at hk ⊢
    split at hk
    · rename_i hid
      obtain ⟨m, hm, rfl⟩ := Option.map_eq_some_iff.1 hk
      obtain ⟨w, hs, hm'⟩ := h.nodes k m hm
      refine ⟨w, hs.congr (hn m).1 (hn m).2.1 (hn m).2.2, ?_⟩
      rw [if_pos hid, hm', Option.map_some, hf]
    · rename_i hid
      obtain ⟨w, hs, hn'⟩ := h.nodes k n hk
      exact ⟨w, hs, by rw [if_neg hid, hn']⟩
  · rw [Tree.get?_modify] at hk
    split at hk
    · rename_i hid
      obtain ⟨m, hm, rfl⟩ := Option.map_eq_some_iff.1 hk
      subst k
      rcases hw m hm c hc with hc | hc
      · exact hmono (h.written id m hm c hc)
      · exact hmono hc
    · exact hmono (h.written k n hk c hc)

theorem push (h : d.Respells t t') {n : Node} {w : Spelling} (hs : d.Spells n w)
    (hw : ∀ c ∈ n.written (t.size + 1), d.Written (t.push n).2 (t'.push (n.spelled w)).2 c) :
    d.Respells (t.push n).2 (t'.push (n.spelled w)).2 := by
  refine ⟨h.files, h.roots, ?_, fun k m hk => ?_, fun k m hk c hc => ?_⟩
  · have hsize := h.size
    unfold Tree.size at hsize
    simp only [Tree.push, Tree.size, Array.size_push, hsize]
  · rw [Tree.get?_push] at hk ⊢
    rw [h.size]
    split at hk
    · rename_i hid
      cases hk
      exact ⟨w, hs, by rw [if_pos hid]⟩
    · rename_i hid
      obtain ⟨w', hs', hm'⟩ := h.nodes k m hk
      exact ⟨w', hs', by rw [if_neg hid, hm']⟩
  · rw [Tree.get?_push] at hk
    split at hk
    · cases hk
      subst k
      exact hw c hc
    · exact (h.written k m hk c hc).mono (.of_extends (Tree.extends_push t n)) (.of_extends (Tree.extends_push t' _))

/-- The root of what was pushed on both trees. -/
theorem written_push (h : d.Respells t t') {n : Node} {w : Spelling} (hw : w.name = n.name) :
    d.Written (t.push n).2 (t'.push (n.spelled w)).2 (t.size + 1) := by
  refine .inr ⟨n, n.spelled w, ?_, ?_, hw⟩
  · rw [Tree.get?_push, if_pos rfl]
  · rw [Tree.get?_push, h.size, if_pos rfl]

end Respells

/-! ### Copies -/

/-- The copies `r` and `r'` of `ids`, made in two spellings of a tree. -/
structure Copied (d : Dialect) (t t' : Tree) (ids : List NodeId) (r r' : List NodeId × Tree) : Prop where
  same : r'.1 = r.1
  respells : d.Respells r.2 r'.2
  extends_ : t.Extends r.2
  extends_' : t'.Extends r'.2
  written : (∀ c ∈ ids, d.Written t t' c) → ∀ c ∈ r.1, d.Written r.2 r'.2 c

theorem rel_bind {α β γ δ : Type} {R : α → β → Prop} {S : γ → δ → Prop} {o : Option α} {o' : Option β} {f : α → Option γ}
    {f' : β → Option δ} (h : Option.Rel R o o') (hf : ∀ a b, R a b → Option.Rel S (f a) (f' b)) :
    Option.Rel S (o >>= f) (o' >>= f') := by
  cases h with
  | some h => exact hf _ _ h
  | none => exact .none

/-- The copier makes the same copies in both trees. -/
def CopiesAlike (d : Dialect) (copy : Tree → NodeId → Option (NodeId × Tree)) : Prop :=
  ∀ t t', d.Respells t t' → ∀ id,
    Option.Rel (fun r r' => d.Copied t t' [id] ([r.1], r.2) ([r'.1], r'.2)) (copy t id) (copy t' id)

theorem CopiesAlike.list {copy : Tree → NodeId → Option (NodeId × Tree)} (hc : d.CopiesAlike copy) (ids : List NodeId) :
    ∀ t t', d.Respells t t' →
      Option.Rel (d.Copied t t' ids) (Tree.copyListWith copy t ids) (Tree.copyListWith copy t' ids) := by
  induction ids with
  | nil =>
    intro t t' h
    exact .some ⟨rfl, h, .refl t, .refl t', fun _ c hc => nomatch hc⟩
  | cons id ids ih =>
    intro t t' h
    refine rel_bind (hc t t' h id) fun r r' hr => ?_
    refine rel_bind (ih r.2 r'.2 hr.respells) fun q q' hq => ?_
    refine .some ⟨?_, hq.respells, hr.extends_.trans hq.extends_, hr.extends_'.trans hq.extends_', fun hids c hmem => ?_⟩
    · rw [hq.same, (List.cons.inj hr.same).1]
    · have grown {c : NodeId} (hw : d.Written r.2 r'.2 c) : d.Written q.2 q'.2 c :=
        hw.mono (.of_extends hq.extends_) (.of_extends hq.extends_')
      rcases List.mem_cons.1 hmem with rfl | hmem
      · refine grown (hr.written (fun c hc => ?_) _ (List.mem_singleton_self _))
        rw [List.mem_singleton.1 hc]
        exact hids id List.mem_cons_self
      · refine hq.written (fun c hc => ?_) c hmem
        exact (hids c (List.mem_cons_of_mem _ hc)).mono (.of_extends hr.extends_) (.of_extends hr.extends_')

theorem copiesAlike_copyAux (d : Dialect) (fuel : Nat) : d.CopiesAlike (Tree.copyAux fuel) := by
  induction fuel with
  | zero => exact fun _ _ _ _ => .none
  | succ fuel ih =>
    intro t t' h id
    unfold Tree.copyAux
    cases hn : t.get? id with
    | none =>
      rw [h.get?_none hn]
      refine .some ⟨rfl, h, .refl t, .refl t', fun hid c hc => ?_⟩
      rw [List.mem_singleton] at hc
      subst hc
      refine (hid id (List.mem_singleton_self id)).imp_right ?_
      rintro ⟨n, -, hsome, -⟩
      cases hn.symm.trans hsome
    | some n =>
      obtain ⟨w, hs, hn'⟩ := h.nodes id n hn
      rw [hn']
      dsimp only
      refine rel_bind (ih t t' h n.a) fun r₁ r₁' h₁ => ?_
      refine rel_bind (ih _ _ h₁.respells n.b) fun r₂ r₂' h₂ => ?_
      refine rel_bind (ih _ _ h₂.respells n.c) fun r₃ r₃' h₃ => ?_
      refine rel_bind (ih _ _ h₃.respells n.d) fun r₄ r₄' h₄ => ?_
      refine rel_bind (ih.list n.typeArgs _ _ h₄.respells) fun r₅ r₅' h₅ => ?_
      refine rel_bind (ih.list n.list _ _ h₅.respells) fun r₆ r₆' h₆ => ?_
      have hbefore := h₁.extends_.trans <| h₂.extends_.trans <| h₃.extends_.trans <| h₄.extends_.trans h₅.extends_
      have hbefore' := h₁.extends_'.trans <| h₂.extends_'.trans <| h₃.extends_'.trans <| h₄.extends_'.trans h₅.extends_'
      have ha := (List.cons.inj h₁.same).1
      have hb := (List.cons.inj h₂.same).1
      have hc := (List.cons.inj h₃.same).1
      have hd := (List.cons.inj h₄.same).1
      simp only [ha, hb, hc, hd, h₅.same, h₆.same]
      have hroot : d.Written t t' id → w.name = n.name := fun hid => hid.name_eq hs hn hn'
      have hpush := h₆.respells.push (n := n.rebuilt r₁.1 r₂.1 r₃.1 r₄.1 r₅.1 r₆.1) (w := w) (hs.congr rfl rfl rfl) ?_
      · refine .some ⟨?_, hpush, ?_, ?_, fun hid c hc => ?_⟩
        · have hsize : r₆'.2.nodes.size = r₆.2.nodes.size := h₆.respells.size
          exact congrArg (fun k => [k + 1]) hsize
        · exact hbefore.trans (h₆.extends_.trans (Tree.extends_push _ _))
        · exact hbefore'.trans (h₆.extends_'.trans (Tree.extends_push _ _))
        · rw [List.mem_singleton.1 hc]
          exact h₆.respells.written_push (hroot (hid id (List.mem_singleton_self id)))
      · intro c hc
        unfold Node.written at hc
        rcases List.mem_append.1 hc with hc | hc
        · split at hc
          · rename_i hk
            rw [List.mem_singleton.1 hc]
            exact h₆.respells.written_push (hroot (h.written id n hn id (Node.mem_written_member hk)))
          · cases hc
        · split at hc
          · rename_i hk
            have hlist (e : NodeId) (he : e ∈ n.list) : d.Written r₅.2 r₅'.2 e :=
              (h.written id n hn e (Node.mem_written_list hk he)).mono (.of_extends hbefore) (.of_extends hbefore')
            exact (h₆.written hlist c hc).mono (.of_extends (Tree.extends_push _ _)) (.of_extends (Tree.extends_push _ _))
          · cases hc

/-- Copies of one subtree. -/
theorem Respells.copy {t t' : Tree} (h : d.Respells t t') (id : NodeId) :
    Option.Rel (fun r r' => d.Copied t t' [id] ([r.1], r.2) ([r'.1], r'.2)) (t.copy id) (t'.copy id) := by
  unfold Tree.copy
  rw [h.size]
  exact copiesAlike_copyAux d _ t t' h id

end Dialect

end TreeCompiler
