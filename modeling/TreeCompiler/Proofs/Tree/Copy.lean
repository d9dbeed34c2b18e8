import TreeCompiler.Proofs.Tree.Circle

/-!
# Copies of a subtree

A tree may share nodes and name nodes that it does not have. Copying repeats what is shared and leaves out what is missing.

* `Unfolding`, `Tree.unfolding?` : what hangs below a node when shared nodes are repeated, without the node numbers and the
  marks of the analysis;
* `Tree.Copied` : the new nodes of a tree hold an unfolding, each at one place of it. Later additions do not change that;
* `copyAux_copied` : by induction on the depth, from every tree that the copies made before lead to;
* `copy_deep` : copying gives a copy of the unfolding. A reference to a missing node must not be a number that the copy gives
  out: `copy_captures` is a tree where one is taken for a node of the copy.
-/

namespace TreeCompiler

/-- What a node says about itself: how many children it has, and not which. -/
def Node.content (n : Node) : Node :=
  { n with a := 0, b := 0, c := 0, d := 0, typeArgs := List.replicate n.typeArgs.length 0,
           list := List.replicate n.list.length 0, valueType := 0, completed := false }

inductive Unfolding where
  | missing
  | node (content : Node) (slots : List Unfolding)

namespace Unfolding

mutual

/-- The number of places that hold a node. -/
def count : Unfolding → Nat
  | missing => 0
  | node _ slots => countAll slots + 1

def countAll : List Unfolding → Nat
  | [] => 0
  | u :: us => u.count + countAll us

end

end Unfolding

namespace Tree

variable {t t' t'' : Tree} {id c : NodeId} {fuel : Nat}

def unfoldAux (t : Tree) : Nat → NodeId → Option Unfolding
  | 0, _ => none
  | fuel + 1, id =>
    match t.get? id with
    | none => some .missing
    | some n => ((slots n).mapM (unfoldAux t fuel)).map (.node n.content)

/-- `none` when the subtree runs in a circle. -/
def unfolding? (t : Tree) (id : NodeId) : Option Unfolding := t.unfoldAux (t.size + 2) id

/-! ## Lists -/

section MapM

variable {α β : Type} {f g : α → Option β}

theorem mapM_cons_eq_some {a : α} {l : List α} {r : List β} :
    (a :: l).mapM f = some r ↔ ∃ b bs, f a = some b ∧ l.mapM f = some bs ∧ r = b :: bs := by
  rw [List.mapM_cons]
  cases f a <;> cases l.mapM f <;> simp [eq_comm]

theorem mapM_mono {l : List α} (h : ∀ a ∈ l, ∀ b, f a = some b → g a = some b) :
    ∀ {r}, l.mapM f = some r → l.mapM g = some r := by
  induction l with
  | nil => exact id
  | cons a l ih =>
    intro r hr
    obtain ⟨b, bs, hb, hbs, rfl⟩ := mapM_cons_eq_some.1 hr
    refine mapM_cons_eq_some.2 ⟨b, bs, h a (List.mem_cons_self ..) b hb, ?_, rfl⟩
    exact ih (fun a ha => h a (List.mem_cons_of_mem _ ha)) hbs

theorem mapM_append_eq_some {l l' : List α} {r : List β} :
    (l ++ l').mapM f = some r ↔ ∃ bs bs', l.mapM f = some bs ∧ l'.mapM f = some bs' ∧ r = bs ++ bs' := by
  rw [List.mapM_append]
  cases l.mapM f <;> cases l'.mapM f <;> simp [eq_comm]

end MapM

/-! ## Unfolding -/

theorem unfoldAux_mono (t : Tree) : ∀ {fuel fuel' id u}, fuel ≤ fuel' → t.unfoldAux fuel id = some u →
    t.unfoldAux fuel' id = some u := by
  intro fuel
  induction fuel with
  | zero => nofun
  | succ fuel ih =>
    intro fuel' id u hle h
    obtain ⟨fuel', rfl⟩ : ∃ k, fuel' = k + 1 := ⟨fuel' - 1, by omega⟩
    rw [unfoldAux] at h ⊢
    cases hn : t.get? id with
    | none => simpa only [hn] using h
    | some n =>
      simp only [hn, Option.map_eq_some_iff] at h ⊢
      obtain ⟨us, hus, rfl⟩ := h
      exact ⟨us, mapM_mono (fun c _ u hu => ih (by omega) hu) hus, rfl⟩

theorem walkAux_mono (t : Tree) (enter : NodeId → Bool) : ∀ {fuel fuel' id ids}, fuel ≤ fuel' →
    t.walkAux enter fuel id = some ids → t.walkAux enter fuel' id = some ids := by
  intro fuel
  induction fuel with
  | zero => nofun
  | succ fuel ih =>
    intro fuel' id ids hle h
    obtain ⟨fuel', rfl⟩ : ∃ k, fuel' = k + 1 := ⟨fuel' - 1, by omega⟩
    rw [walkAux] at h ⊢
    split at h
    · rwa [if_pos ‹_›]
    · rw [if_neg ‹_›]
      split at h
      · rw [Option.map_eq_some_iff] at h
        obtain ⟨below, hbelow, rfl⟩ := h
        rw [if_pos ‹_›, mapM_mono (fun c _ u hu => ih (by omega) hu) hbelow]
        rfl
      · rwa [if_neg ‹_›]

/-- What can be walked over can be unfolded, with a level of fuel for the empty slots. -/
theorem unfoldAux_of_walkAux : ∀ {id}, (t.walkAux (fun _ => true) fuel id).isSome → (t.unfoldAux (fuel + 1) id).isSome := by
  induction fuel with
  | zero => nofun
  | succ fuel ih =>
    intro id h
    rw [unfoldAux]
    cases hn : t.get? id with
    | none => rfl
    | some n =>
      simp only [Option.isSome_map, Option.isSome_mapM]
      intro c hc
      rcases mem_slots hc with rfl | hc
      · rfl
      · exact ih (walkAux_isSome_iff.1 h c ⟨rfl, n, hn, hc⟩)

theorem unfolding?_isSome (h : ¬t.MeetsCircle (fun _ => true) id) : (t.unfolding? id).isSome :=
  unfoldAux_of_walkAux (walkAux_isSome_of_not_meetsCircle h (by omega))

/-- Walking over the children is walking over the slots: there is nothing to walk over in an empty one. -/
theorem walkAux_children {n : Node} {enter : NodeId → Bool} {below : List (List NodeId)}
    (h : (slots n).mapM (t.walkAux enter (fuel + 1)) = some below) :
    ∃ below', n.children.mapM (t.walkAux enter (fuel + 1)) = some below' ∧ below'.flatten = below.flatten := by
  have hfilter : ∀ (l : List NodeId) below, l.mapM (t.walkAux enter (fuel + 1)) = some below →
      ∃ below', (l.filter (· ≠ 0)).mapM (t.walkAux enter (fuel + 1)) = some below' ∧ below'.flatten = below.flatten := by
    intro l
    induction l with
    | nil => exact fun below h => ⟨below, h, rfl⟩
    | cons c l ih =>
      intro below h
      obtain ⟨ids, below, hids, hbelow, rfl⟩ := mapM_cons_eq_some.1 h
      obtain ⟨below', hbelow', heq⟩ := ih below hbelow
      by_cases h0 : c = 0
      · subst h0
        obtain rfl : [] = ids := Option.some.inj hids
        exact ⟨below', hbelow', heq⟩
      · rw [List.filter_cons_of_pos (by simpa using h0)]
        exact ⟨ids :: below', mapM_cons_eq_some.2 ⟨ids, below', hids, hbelow', rfl⟩, by simp [heq]⟩
  have hslots : slots n = [n.a, n.b, n.c, n.d] ++ (n.typeArgs ++ n.list) := rfl
  rw [hslots] at h
  obtain ⟨bs, bs', hbs, hbs', rfl⟩ := mapM_append_eq_some.1 h
  obtain ⟨below', hbelow', heq⟩ := hfilter _ bs hbs
  rw [Node.children, List.append_assoc]
  exact ⟨below' ++ bs', mapM_append_eq_some.2 ⟨below', bs', hbelow', hbs', rfl⟩, by simp [heq]⟩

/-! ## What a copy is -/

/-- `t'` is `t` with `k` more nodes, none of them analysed yet. -/
structure Added (t : Tree) (k : Nat) (t' : Tree) : Prop where
  files : t'.files = t.files
  roots : t'.roots = t.roots
  size : t'.size = t.size + k
  kept : ∀ id, id ≤ t.size → t'.get? id = t.get? id
  fresh : ∀ id n, t.size < id → t'.get? id = some n → n.valueType = 0 ∧ n.completed = false

theorem get?_eq_none_of_lt (h : t.size < id) : t.get? id = none := by
  have hsize : t.nodes.size ≤ id - 1 := Nat.le_sub_one_of_lt h
  rw [get?, if_neg (Nat.ne_zero_of_lt h), Array.getElem?_eq_none hsize]

theorem le_size_of_get? {n : Node} (h : t.get? id = some n) : id ≤ t.size := by
  by_contra hlt
  rw [get?_eq_none_of_lt (Nat.lt_of_not_le hlt)] at h
  cases h

theorem Added.refl (t : Tree) : t.Added 0 t where
  files := rfl
  roots := rfl
  size := rfl
  kept _ _ := rfl
  fresh _ _ hid hn := absurd (le_size_of_get? hn) (Nat.not_le_of_lt hid)

theorem Added.trans {k k' : Nat} (h : t.Added k t') (h' : t'.Added k' t'') : t.Added (k + k') t'' where
  files := h'.files.trans h.files
  roots := h'.roots.trans h.roots
  size := by rw [h'.size, h.size, Nat.add_assoc]
  kept id hid := (h'.kept id (by rw [h.size]; omega)).trans (h.kept id hid)
  fresh id n hid hn := by
    rcases Nat.lt_or_ge t'.size id with hlt | hle
    · exact h'.fresh id n hlt hn
    · exact h.fresh id n hid ((h'.kept id hle).symm.trans hn)

theorem Added.push {n : Node} (htype : n.valueType = 0) (hcompleted : n.completed = false) : t.Added 1 (t.push n).2 where
  files := rfl
  roots := rfl
  size := Array.size_push ..
  kept id hid := by rw [get?_push, if_neg (by omega)]
  fresh id m hid hm := by
    rw [get?_push] at hm
    split at hm
    · cases hm
      exact ⟨htype, hcompleted⟩
    · exact absurd (le_size_of_get? hm) (Nat.not_le_of_lt hid)

theorem Added.toExtends {k : Nat} (h : t.Added k t') : t.Extends t' :=
  fun id _ hn => (h.kept id (le_size_of_get? hn)).trans hn

/-- The nodes that were added to `t` are the unfolding `u` at `root`, each node at one place, and stay that. -/
structure Copied (t : Tree) (fuel : Nat) (u : Unfolding) (root : NodeId) (t' : Tree) : Prop where
  added : t.Added u.count t'
  unfolds : ∀ t'', t'.Extends t'' → t''.unfoldAux fuel root = some u
  walks : ∃ ids, ids.Perm (List.range' (t.size + 1) u.count) ∧
    ∀ t'', t'.Extends t'' → t''.walkAux (fun _ => true) fuel root = some ids

structure CopiedAll (t : Tree) (fuel : Nat) (us : List Unfolding) (roots : List NodeId) (t' : Tree) : Prop where
  added : t.Added (Unfolding.countAll us) t'
  unfolds : ∀ t'', t'.Extends t'' → roots.mapM (t''.unfoldAux fuel) = some us
  walks : ∃ below, below.flatten.Perm (List.range' (t.size + 1) (Unfolding.countAll us)) ∧
    ∀ t'', t'.Extends t'' → roots.mapM (t''.walkAux (fun _ => true) fuel) = some below

theorem CopiedAll.nil : t.CopiedAll fuel [] [] t where
  added := .refl t
  unfolds _ _ := rfl
  walks := ⟨[], .refl _, fun _ _ => rfl⟩

theorem CopiedAll.cons {u : Unfolding} {us : List Unfolding} {root : NodeId} {roots : List NodeId}
    (h : t.Copied fuel u root t') (hrest : t'.CopiedAll fuel us roots t'') :
    t.CopiedAll fuel (u :: us) (root :: roots) t'' where
  added := h.added.trans hrest.added
  unfolds s hs := mapM_cons_eq_some.2 ⟨u, us, h.unfolds s (hrest.added.toExtends.trans hs), hrest.unfolds s hs, rfl⟩
  walks := by
    obtain ⟨ids, hids, hwalk⟩ := h.walks
    obtain ⟨below, hbelow, hwalks⟩ := hrest.walks
    refine ⟨ids :: below, ?_, fun s hs =>
      mapM_cons_eq_some.2 ⟨ids, below, hwalk s (hrest.added.toExtends.trans hs), hwalks s hs, rfl⟩⟩
    have hnumbers : List.range' (t.size + 1) (u.count + Unfolding.countAll us) =
        List.range' (t.size + 1) u.count ++ List.range' (t'.size + 1) (Unfolding.countAll us) := by
      rw [h.added.size, Nat.add_right_comm, List.range'_append_1]
    rw [List.flatten_cons, Unfolding.countAll, hnumbers]
    exact hids.append hbelow

/-- A node whose slots hold the copies. -/
theorem CopiedAll.push {us : List Unfolding} {n : Node} (h : t.CopiedAll (fuel + 1) us (slots n) t')
    (htype : n.valueType = 0) (hcompleted : n.completed = false) :
    t.Copied (fuel + 2) (.node n.content us) (t'.push n).1 (t'.push n).2 where
  added := h.added.trans (.push htype hcompleted)
  unfolds s hs := by
    have hn : s.get? (t'.push n).1 = some n := hs _ _ ((get?_push ..).trans (if_pos rfl))
    rw [unfoldAux, hn]
    simp only [h.unfolds s ((extends_push t' n).trans hs), Option.map_some]
  walks := by
    obtain ⟨below, hbelow, hwalks⟩ := h.walks
    refine ⟨(t'.push n).1 :: below.flatten, ?_, fun s hs => ?_⟩
    · have hlast : (t'.push n).1 = t.size + 1 + Unfolding.countAll us := by
        rw [show (t'.push n).1 = t'.size + 1 from rfl, h.added.size, Nat.add_right_comm]
      rw [Unfolding.count, List.range'_1_concat, hlast]
      exact (hbelow.cons _).trans (List.perm_append_singleton ..).symm
    · have hn : s.get? (t'.push n).1 = some n := hs _ _ ((get?_push ..).trans (if_pos rfl))
      obtain ⟨below', hbelow', heq⟩ := walkAux_children (hwalks s ((extends_push t' n).trans hs))
      rw [walkAux, if_neg (show (t'.push n).1 ≠ 0 from Nat.succ_ne_zero _), if_pos rfl, children?, hn]
      simp only [Option.map_some, Option.getD_some, hbelow', heq]

/-! ## Copying makes one -/

theorem copyListWith_length {copy : Tree → NodeId → Option (NodeId × Tree)} {ids : List NodeId} :
    ∀ {t r}, copyListWith copy t ids = some r → r.1.length = ids.length := by
  induction ids with
  | nil =>
    intro t r h
    cases h
    rfl
  | cons c ids ih =>
    intro t r h
    simp only [copyListWith, Option.bind_eq_bind, Option.bind_eq_some_iff] at h
    obtain ⟨⟨_, t₁⟩, -, ⟨is, t₂⟩, h₂, h⟩ := h
    cases h
    exact congrArg Nat.succ (ih h₂)

/-- When the slots of a node are copied, so is the node. -/
theorem copyAux_node {n : Node} {r : List NodeId × Tree} (hn : t.get? id = some n)
    (h : copyListWith (copyAux fuel) t (slots n) = some r) :
    ∃ n', slots n' = r.1 ∧ n'.content = n.content ∧ n'.valueType = 0 ∧ n'.completed = false ∧
      copyAux (fuel + 1) t id = some (r.2.push n') := by
  simp only [slots, copyListWith, copyListWith_append, Option.bind_eq_bind, Option.bind_eq_some_iff] at h
  obtain ⟨⟨a, t₁⟩, h₁, ⟨_, _⟩, ⟨⟨b, t₂⟩, h₂, ⟨_, _⟩, ⟨⟨c, t₃⟩, h₃, ⟨_, _⟩, ⟨⟨d, t₄⟩, h₄, ⟨_, _⟩,
    ⟨⟨as, t₅⟩, h₅, ⟨ls, t₆⟩, h₆, hr₆⟩, hr₅⟩, hr₄⟩, hr₃⟩, hr⟩ := h
  cases hr₆
  cases hr₅
  cases hr₄
  cases hr₃
  cases hr
  refine ⟨{ n with a, b, c, d, typeArgs := as, list := ls, valueType := 0, completed := false }, rfl, ?_, rfl, rfl, ?_⟩
  · have htypeArgs : as.length = n.typeArgs.length := copyListWith_length h₅
    have hlist : ls.length = n.list.length := copyListWith_length h₆
    simp only [Node.content, htypeArgs, hlist]
  · simp [copyAux, hn, h₁, h₂, h₃, h₄, h₅, h₆]

/-- From left to right, each from the tree that the ones before led to. -/
theorem copyListWith_copied {copy : Tree → NodeId → Option (NodeId × Tree)} {limit : Nat} {ids : List NodeId}
    (hcopy : ∀ c ∈ ids, ∀ s u, t.Extends s → t.unfoldAux fuel c = some u → s.size + u.count < limit →
      ∃ r, copy s c = some r ∧ s.Copied fuel u r.1 r.2) :
    ∀ {s us}, t.Extends s → ids.mapM (t.unfoldAux fuel) = some us → s.size + Unfolding.countAll us < limit →
      ∃ r, copyListWith copy s ids = some r ∧ s.CopiedAll fuel us r.1 r.2 := by
  induction ids with
  | nil =>
    intro s us _ hus _
    cases hus
    exact ⟨([], s), rfl, .nil⟩
  | cons c ids ih =>
    intro s us hs hus hlimit
    obtain ⟨u, us, hu, htail, rfl⟩ := mapM_cons_eq_some.1 hus
    rw [Unfolding.countAll] at hlimit
    obtain ⟨r, hr, hcopied⟩ := hcopy c (List.mem_cons_self ..) s u hs hu (by omega)
    obtain ⟨rs, hrs, hrest⟩ := ih (fun c hc => hcopy c (List.mem_cons_of_mem _ hc)) (hs.trans hcopied.added.toExtends) htail
      (by rw [hcopied.added.size]; omega)
    exact ⟨(r.1 :: rs.1, rs.2), by simp [copyListWith, hr, hrs], .cons hcopied hrest⟩

/-- No reference below `id` to a missing node is smaller than `limit`. -/
def MissesFrom (t : Tree) (limit : Nat) (id : NodeId) : Prop :=
  ∀ x c, Relation.ReflTransGen (t.Child fun _ => true) id x → t.Child (fun _ => true) x c → t.get? c = none →
    c = 0 ∨ limit ≤ c

theorem MissesFrom.child {limit : Nat} (h : t.MissesFrom limit id) (hc : t.Child (fun _ => true) id c) : t.MissesFrom limit c :=
  fun x c' hx => h x c' (.head hc hx)

/-- What is missing in `t` is still missing in `s`, since the numbers stay below the limit. -/
theorem MissesFrom.slot {limit : Nat} {s : Tree} {n : Node} (hmisses : t.MissesFrom limit id) (hn : t.get? id = some n)
    (hc : c ∈ slots n) (hs : t.Extends s) (hlimit : s.size < limit) : s.get? c = t.get? c ∧ t.MissesFrom limit c := by
  rcases mem_slots hc with rfl | hc
  · refine ⟨rfl, fun x c hx hc _ => ?_⟩
    rcases Relation.ReflTransGen.cases_head hx with rfl | ⟨_, ⟨-, _, h0, -⟩, -⟩
    · obtain ⟨-, _, h0, -⟩ := hc
      cases h0
    · cases h0
  · have hchild : t.Child (fun _ => true) id c := ⟨rfl, n, hn, hc⟩
    refine ⟨?_, hmisses.child hchild⟩
    cases hc' : t.get? c with
    | some m => exact hs c m hc'
    | none =>
      rcases hmisses id c .refl hchild hc' with rfl | hle
      · rfl
      · exact get?_eq_none_of_lt (by omega)

/-- By induction on the depth. The tree `s` is what the copies before have made of `t`. -/
theorem copyAux_copied {limit : Nat} : ∀ {id u s}, t.Extends s → s.get? id = t.get? id → t.MissesFrom limit id →
    t.unfoldAux fuel id = some u → s.size + u.count ≤ limit → ∃ r, copyAux fuel s id = some r ∧ s.Copied fuel u r.1 r.2 := by
  induction fuel with
  | zero => nofun
  | succ fuel ih =>
    intro id u s hs hsame hmisses hu hlimit
    rw [unfoldAux] at hu
    cases hn : t.get? id with
    | none =>
      simp only [hn, Option.some.injEq] at hu
      subst hu
      refine ⟨(0, s), by simp [copyAux, hsame, hn], .refl s, fun _ _ => rfl, [], .refl _, fun _ _ => rfl⟩
    | some n =>
      simp only [hn, Option.map_eq_some_iff] at hu
      obtain ⟨us, hus, rfl⟩ := hu
      obtain ⟨fuel, rfl⟩ : ∃ k, fuel = k + 1 := by
        cases fuel with
        | zero => simp [slots, unfoldAux] at hus
        | succ k => exact ⟨k, rfl⟩
      rw [Unfolding.count] at hlimit
      have hslots : ∀ c ∈ slots n, ∀ s u, t.Extends s → t.unfoldAux (fuel + 1) c = some u → s.size + u.count < limit →
          ∃ r, copyAux (fuel + 1) s c = some r ∧ s.Copied (fuel + 1) u r.1 r.2 := by
        intro c hc s u hs hu hlt
        obtain ⟨hsame, hmisses⟩ := hmisses.slot hn hc hs (by omega)
        exact ih hs hsame hmisses hu (Nat.le_of_lt hlt)
      obtain ⟨r, hr, hcopied⟩ := copyListWith_copied hslots hs hus (by omega)
      obtain ⟨n', hslots', hcontent, htype, hcompleted, hcopy⟩ := copyAux_node (hsame.trans hn) hr
      rw [← hslots'] at hcopied
      exact ⟨r.2.push n', hcopy, hcontent ▸ hcopied.push htype hcompleted⟩

/-- The tree `t'` holds at `root` a copy of `u` that `t` does not have: its nodes are the new ones, and each is met once. -/
structure DeepCopy (t : Tree) (u : Unfolding) (root : NodeId) (t' : Tree) : Prop extends t.Added u.count t' where
  unfolds : t'.unfolding? root = some u
  walks : ∃ ids, t'.walk (fun _ => true) root = some ids ∧ ids.Perm (List.range' (t.size + 1) u.count)

/-- Without a circle below it a node has an unfolding, and copying it makes a copy of that, unless a missing node is referred to
by the number of a node in the copy. -/
theorem copy_deep (hcircle : ¬t.MeetsCircle (fun _ => true) id) :
    ∃ u, t.unfolding? id = some u ∧
      (t.MissesFrom (t.size + u.count) id → ∃ root t', t.copy id = some (root, t') ∧ t.DeepCopy u root t') := by
  obtain ⟨u, hu⟩ := Option.isSome_iff_exists.1 (unfolding?_isSome hcircle)
  refine ⟨u, hu, fun hmisses => ?_⟩
  obtain ⟨r, hr, hcopied⟩ := copyAux_copied (.refl t) rfl hmisses hu (Nat.le_refl _)
  have hfuel : t.size + 2 ≤ r.2.size + 2 := by
    rw [hcopied.added.size]
    omega
  obtain ⟨ids, hids, hwalk⟩ := hcopied.walks
  exact ⟨r.1, r.2, hr, hcopied.added, unfoldAux_mono r.2 hfuel (hcopied.unfolds r.2 (.refl _)),
    ids, walkAux_mono r.2 _ hfuel (hwalk r.2 (.refl _)), hids⟩

/-- A call with its callee as the first argument and a second argument that is not there. -/
def selfCall (missing : NodeId) : Tree :=
  { nodes := #[{ kind := .intLit, int := 7 }, { kind := .call, a := 1, list := [1, missing] }] }

theorem copy_deep_selfCall : ∃ u, (selfCall 9).unfolding? 2 = some u ∧ ∃ root t', (selfCall 9).copy 2 = some (root, t') ∧
    (selfCall 9).DeepCopy u root t' := by
  have hcircle : ¬(selfCall 9).MeetsCircle (fun _ => true) 2 :=
    not_meetsCircle_of_acc (@acc_of_walkAux _ _ 4 _ rfl)
  obtain ⟨u, hu, hcopy⟩ := copy_deep hcircle
  have hcount : u.count = 3 := by
    obtain rfl := Option.some.inj hu
    rfl
  refine ⟨u, hu, hcopy fun x c _ hc hnone => ?_⟩
  obtain ⟨-, n, hn, hc⟩ := hc
  rw [hcount]
  have hmissing : ∀ n ∈ (selfCall 9).nodes, ∀ c ∈ n.children, (selfCall 9).get? c = none → c = 0 ∨ 2 + 3 ≤ c := by decide
  unfold get? at hn
  split at hn
  · cases hn
  · exact hmissing n (Array.mem_of_getElem? hn) c hc hnone

/-- The missing argument has the number of the first node of the copy, and is copied when it is reached. -/
theorem copy_captures : ¬∀ (t : Tree) (id : NodeId), ¬t.MeetsCircle (fun _ => true) id →
    ∃ u root t', t.unfolding? id = some u ∧ t.copy id = some (root, t') ∧ t.DeepCopy u root t' := by
  intro hclaim
  have hcircle : ¬(selfCall 3).MeetsCircle (fun _ => true) 2 :=
    not_meetsCircle_of_acc (@acc_of_walkAux _ _ 4 _ rfl)
  obtain ⟨u, root, t', hu, hcopy, hdeep⟩ := hclaim _ 2 hcircle
  have hcount : u.count = 3 := by
    obtain rfl := Option.some.inj hu
    rfl
  have hsize : t'.size = 6 := congrArg (fun r : NodeId × Tree => r.2.size) (Option.some.inj hcopy).symm
  have hexpected : t'.size = 2 + u.count := hdeep.size
  omega

end Tree

end TreeCompiler
