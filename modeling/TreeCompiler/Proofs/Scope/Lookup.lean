import TreeCompiler.Proofs.Scope.Naming
import TreeCompiler.Scope.Lookup

/-!
# What a lookup answers

A lookup walks the chain of scopes twice, once for the symbols of the scopes and once for their imports, and drops the
symbols that it meets again. Its answer depends on less: on the first scope of the chain that holds a visible symbol of
the name, and on the set of symbols that the imports bring in.

* `Innermost` : that first scope with its symbol; `Brings` : a symbol that an import on the chain brings in; `Candidate` :
  a symbol that a name can stand for when no local one shadows the others;
* `Answers` : the answer for a set of candidates; `Answers.agrees` : two answers for one set differ at most in the order of
  an ambiguity and in the symbol named for it;
* `withImports` : the table with other imports in its scopes; an import resolves the same in all of these tables, so the
  imports of an imported namespace bring nothing in;
* `lookup_answers` : the answer of a lookup, and what it depends on.
-/

namespace TreeCompiler

/-- What an import asks for, without the place where it stands. -/
def Import.target (u : Import) : List String × Bool := (u.path, u.fromGlobal)

/-- The imports of the two lists ask for the same, in any order and any number of times. -/
def SameImports (us us' : List Import) : Prop := ∀ x, x ∈ us.map Import.target ↔ x ∈ us'.map Import.target

/-- Answers that differ at most in the order of an ambiguity and in the symbol named for it. -/
structure Found.Agrees (r r' : Found) : Prop where
  symbol : r.ambiguous = [] → r.symbol = r'.symbol
  ambiguous : r.ambiguous.Perm r'.ambiguous
  denied : r.denied = r'.denied

namespace SameImports

variable {us us' : List Import}

theorem of_mem_iff (h : ∀ u, u ∈ us ↔ u ∈ us') : SameImports us us' := by
  intro x
  simp only [List.mem_map, h]

theorem symm (h : SameImports us us') : SameImports us' us := fun x => (h x).symm

/-- What an import says by what it asks for is said by one of the other list. -/
theorem exists_mem {P : Import → Prop} (h : SameImports us us') (hP : ∀ u u', u.target = u'.target → P u → P u') :
    (∃ u ∈ us, P u) → ∃ u ∈ us', P u := by
  rintro ⟨u, hu, hPu⟩
  obtain ⟨u', hu', htarget⟩ := List.mem_map.1 ((h u.target).1 (List.mem_map_of_mem hu))
  exact ⟨u', hu', hP u u' htarget.symm hPu⟩

end SameImports

namespace ScopeTable

variable {t : ScopeTable} {q : Query} {name : String} {C : SymbolId → Prop}

/-! ## Candidates -/

def importsOf (t : ScopeTable) (s : ScopeId) : List Import := ((t.scope? s).map (·.imports)).getD []

/-- The scope itself has a symbol of that name. -/
def Binds (t : ScopeTable) (s : ScopeId) (name : String) (id : SymbolId) : Prop :=
  (t.nameId? name).bind (t.boundIn? s) = some id

def Offers (t : ScopeTable) (q : Query) (s : ScopeId) (name : String) (id : SymbolId) : Prop :=
  t.Binds s name id ∧ t.visible q id = true

/-- `s` is the first scope of the chain that holds a visible symbol of the name, and `id` is this symbol. -/
def Innermost (t : ScopeTable) (q : Query) (name : String) (s : ScopeId) (id : SymbolId) : Prop :=
  ∃ inner outer, t.chain q.origin = inner ++ s :: outer ∧ t.Offers q s name id ∧ ∀ i ∈ inner, ∀ x, ¬t.Offers q i name x

/-- An import on the chain stands for a namespace that itself has the symbol. -/
def Brings (t : ScopeTable) (q : Query) (name : String) (id : SymbolId) : Prop :=
  ∃ s ∈ t.chain q.origin, ∃ u ∈ t.importsOf s, ∃ ns, t.resolveImport? s u = some ns ∧ t.Binds ns name id

def Candidate (t : ScopeTable) (q : Query) (name : String) (id : SymbolId) : Prop :=
  (∃ s, t.Innermost q name s id ∧ t.scopeKind s = .nameSpace) ∨ t.Brings q name id

theorem Innermost.binds {s : ScopeId} {id : SymbolId} : t.Innermost q name s id → t.Binds s name id :=
  fun ⟨_, _, _, hoffers, _⟩ => hoffers.1

theorem chainHit?_eq_some {n : NameId} (hn : t.nameId? name = some n) {s : ScopeId} {id : SymbolId} :
    t.chainHit? q n = some (s, id) ↔ t.Innermost q name s id := by
  have hoffers (i : ScopeId) (x : ScopeId × SymbolId) :
      (do let id ← t.boundIn? i n; if t.visible q id then some (i, id) else none) = some x ↔
        x.1 = i ∧ t.Offers q i name x.2 := by
    unfold Offers Binds
    rw [hn, Option.bind_some]
    cases t.boundIn? i n with
    | none => simp
    | some id =>
      by_cases hv : t.visible q id = true
      · simp only [Option.bind_eq_bind, Option.bind_some, hv, if_true, Option.some.injEq]
        constructor
        · rintro rfl
          exact ⟨rfl, rfl, hv⟩
        · rintro ⟨rfl, rfl, -⟩
          rfl
      · simp only [Option.bind_eq_bind, Option.bind_some, hv, if_false, reduceCtorEq, false_iff]
        rintro ⟨-, hid, hx⟩
        exact hv (Option.some.inj hid ▸ hx)
  unfold chainHit? Innermost
  rw [List.findSome?_eq_some_iff]
  constructor
  · rintro ⟨inner, i, outer, hchain, hi, hinner⟩
    obtain ⟨rfl, hi⟩ := (hoffers i (s, id)).1 hi
    refine ⟨inner, outer, hchain, hi, fun j hj x hx => ?_⟩
    have hnone := hinner j hj
    rw [(hoffers j (j, x)).2 ⟨rfl, hx⟩] at hnone
    cases hnone
  · rintro ⟨inner, outer, hchain, hi, hinner⟩
    refine ⟨inner, s, outer, hchain, (hoffers s (s, id)).2 ⟨rfl, hi⟩, fun j hj => ?_⟩
    rw [Option.eq_none_iff_forall_ne_some]
    intro x hx
    exact hinner j hj x.2 ((hoffers j x).1 hx).2

theorem Innermost.unique {s s' : ScopeId} {id id' : SymbolId} (h : t.Innermost q name s id)
    (h' : t.Innermost q name s' id') : s = s' ∧ id = id' := by
  obtain ⟨n, hn, -⟩ := Option.bind_eq_some_iff.1 h.binds
  have hhit : t.chainHit? q n = some (s, id) := (chainHit?_eq_some hn).2 h
  have hhit' : t.chainHit? q n = some (s', id') := (chainHit?_eq_some hn).2 h'
  exact Prod.mk.inj (Option.some.inj (hhit.symm.trans hhit'))

theorem mem_importedHits {n : NameId} (hn : t.nameId? name = some n) {id : SymbolId} :
    id ∈ t.importedHits q n ↔ t.Brings q name id := by
  unfold importedHits importedScopes Brings Binds
  simp only [hn, List.mem_filterMap, List.mem_flatMap, Option.bind_some]
  constructor
  · rintro ⟨ns, ⟨s, hs, u, hu, hr⟩, hb⟩
    exact ⟨s, hs, u, hu, ns, hr, hb⟩
  · rintro ⟨s, hs, u, hu, ns, hr, hb⟩
    exact ⟨ns, ⟨s, hs, u, hu, hr⟩, hb⟩

/-- A local symbol shadows everything. Without one the hits are the candidates. -/
theorem lookup_cases (t : ScopeTable) (q : Query) (name : String) :
    (∃ s id, t.Innermost q name s id ∧ t.scopeKind s ≠ .nameSpace ∧ t.lookup q name = t.found q [id]) ∨
    (∀ s id, t.Innermost q name s id → t.scopeKind s = .nameSpace) ∧
      ∃ hits, (∀ id, id ∈ hits ↔ t.Candidate q name id) ∧ t.lookup q name = t.found q hits := by
  unfold lookup
  cases hn : t.nameId? name with
  | none =>
    have hbinds (s : ScopeId) (id : SymbolId) : ¬t.Binds s name id := by simp [Binds, hn]
    have hinner (s : ScopeId) (id : SymbolId) : ¬t.Innermost q name s id := fun h => hbinds s id h.binds
    have hbrings (id : SymbolId) : ¬t.Brings q name id := fun ⟨_, _, _, _, ns, _, h⟩ => hbinds ns id h
    exact .inr ⟨fun s id h => absurd h (hinner s id), [], by simp [Candidate, hinner, hbrings], rfl⟩
  | some n =>
    dsimp only
    cases hc : t.chainHit? q n with
    | none =>
      have hinner (s : ScopeId) (id : SymbolId) : ¬t.Innermost q name s id := by
        rw [← chainHit?_eq_some hn, hc]
        simp
      refine .inr ⟨fun s id h => absurd h (hinner s id), t.importedHits q n, fun id => ?_, rfl⟩
      rw [mem_importedHits hn]
      simp [Candidate, hinner]
    | some hit =>
      obtain ⟨s, id⟩ := hit
      have hinner : t.Innermost q name s id := (chainHit?_eq_some hn).1 hc
      dsimp only
      by_cases hk : t.scopeKind s = .nameSpace
      · rw [if_pos hk]
        refine .inr ⟨fun s' id' h => (hinner.unique h).1 ▸ hk, id :: t.importedHits q n, fun x => ?_, rfl⟩
        have hspace : (∃ s, t.Innermost q name s x ∧ t.scopeKind s = .nameSpace) ↔ x = id := by
          constructor
          · rintro ⟨s', h, -⟩
            exact (h.unique hinner).2
          · rintro rfl
            exact ⟨s, hinner, hk⟩
        rw [List.mem_cons, mem_importedHits hn, Candidate, hspace]
      · rw [if_neg hk]
        exact .inl ⟨s, id, hinner, hk, rfl⟩

/-! ## Answers -/

/-- The answer of a lookup with the candidates `C`: none, the only one with its access, or all of them. -/
structure Answers (t : ScopeTable) (q : Query) (C : SymbolId → Prop) (r : Found) : Prop where
  none : (∀ id, ¬C id) → r = {}
  one : ∀ id, (∀ x, C x ↔ x = id) → r = { symbol := id, denied := !t.accessible q id }
  several : ∀ x y, C x → C y → x ≠ y →
    r.ambiguous.Nodup ∧ (∀ id, id ∈ r.ambiguous ↔ C id) ∧ r.ambiguous.head? = some r.symbol ∧ r.denied = false

theorem nodup_eraseDups {α : Type} [BEq α] [LawfulBEq α] : (l : List α) → l.eraseDups.Nodup
  | [] => by simp
  | a :: l => by
    rw [List.eraseDups_cons, List.nodup_cons]
    refine ⟨fun h => ?_, nodup_eraseDups _⟩
    simp [List.mem_eraseDups] at h
termination_by l => l.length
decreasing_by
  have := List.length_filter_le (fun b => !b == a) l
  simp only [List.length_cons]
  omega

theorem found_answers {hits : List SymbolId} (h : ∀ id, id ∈ hits ↔ C id) : t.Answers q C (t.found q hits) := by
  have hmem (id : SymbolId) : id ∈ hits.eraseDups ↔ C id := List.mem_eraseDups.trans (h id)
  have hnodup : hits.eraseDups.Nodup := nodup_eraseDups hits
  unfold found
  match hd : hits.eraseDups with
  | [] =>
    simp only [hd, List.not_mem_nil, false_iff] at hmem
    exact ⟨fun _ => rfl, fun id hid => absurd ((hid id).2 rfl) (hmem id), fun x _ hx => absurd hx (hmem x)⟩
  | [a] =>
    simp only [hd, List.mem_singleton] at hmem
    refine ⟨fun hnone => absurd ((hmem a).1 rfl) (hnone a), fun id hid => ?_, fun x y hx hy hne => ?_⟩
    · obtain rfl : a = id := (hid a).1 ((hmem a).1 rfl)
      rfl
    · exact absurd (((hmem x).2 hx).trans ((hmem y).2 hy).symm) hne
  | a :: b :: rest =>
    rw [hd] at hmem hnodup
    have ha : C a := (hmem a).1 (by simp)
    have hb : C b := (hmem b).1 (by simp)
    refine ⟨fun hnone => absurd ha (hnone a), fun id hid => ?_, fun x y _ _ _ => ⟨hnodup, hmem, rfl, rfl⟩⟩
    have hab : a = b := ((hid a).1 ha).trans ((hid b).1 hb).symm
    simp [hab] at hnodup

/-- There is no candidate, exactly one, or there are several. -/
theorem candidates_cases (C : SymbolId → Prop) :
    (∀ id, ¬C id) ∨ (∃ id, ∀ x, C x ↔ x = id) ∨ ∃ x y, C x ∧ C y ∧ x ≠ y := by
  by_cases hnone : ∀ id, ¬C id
  · exact .inl hnone
  · push Not at hnone
    obtain ⟨a, ha⟩ := hnone
    by_cases hone : ∀ x, C x → x = a
    · exact .inr (.inl ⟨a, fun x => ⟨hone x, fun hx => hx ▸ ha⟩⟩)
    · push Not at hone
      obtain ⟨b, hb, hne⟩ := hone
      exact .inr (.inr ⟨b, a, hb, ha, hne⟩)

theorem Answers.agrees {r r' : Found} (h : t.Answers q C r) (h' : t.Answers q C r') : r.Agrees r' := by
  rcases candidates_cases C with hnone | ⟨id, hone⟩ | ⟨x, y, hx, hy, hne⟩
  · rw [h.none hnone, h'.none hnone]
    exact ⟨fun _ => rfl, .refl _, rfl⟩
  · rw [h.one id hone, h'.one id hone]
    exact ⟨fun _ => rfl, .refl _, rfl⟩
  · obtain ⟨hnodup, hmem, -, hdenied⟩ := h.several x y hx hy hne
    obtain ⟨hnodup', hmem', -, hdenied'⟩ := h'.several x y hx hy hne
    refine ⟨fun hnil => ?_, ?_, hdenied.trans hdenied'.symm⟩
    · have hx := (hmem x).2 hx
      rw [hnil] at hx
      cases hx
    · exact (List.perm_ext_iff_of_nodup hnodup hnodup').2 fun id => (hmem id).trans (hmem' id).symm

/-- Symbols are numbered from 1, so an answer shows whether there was a candidate. -/
theorem Answers.isFound_iff {r : Found} (h : t.Answers q C r) (hC : ∀ id, C id → id ≠ 0) :
    r.isFound = true ↔ ∃ id, C id := by
  rcases candidates_cases C with hnone | ⟨id, hone⟩ | ⟨x, y, hx, hy, hne⟩
  · rw [h.none hnone]
    simp [Found.isFound, hnone]
  · rw [h.one id hone]
    have hid : C id := (hone id).2 rfl
    simp [Found.isFound, hC id hid, hone]
  · obtain ⟨-, hmem, hhead, -⟩ := h.several x y hx hy hne
    have hr : C r.symbol := (hmem r.symbol).1 (List.mem_of_head? hhead)
    simp only [Found.isFound, ne_eq, decide_eq_true_eq]
    exact ⟨fun _ => ⟨x, hx⟩, fun _ => hC _ hr⟩

theorem Named.ne_zero (h : t.Named) {s : ScopeId} {id : SymbolId} (hb : t.Binds s name id) : id ≠ 0 := by
  obtain ⟨n, -, hn⟩ := Option.bind_eq_some_iff.1 hb
  obtain ⟨sym, hsym⟩ := h.bound hn
  rintro rfl
  cases hsym

/-! ## Other imports -/

/-- The table with the imports of its scopes replaced. -/
def withImports (t : ScopeTable) (f : ScopeId → List Import) : ScopeTable :=
  { t with scopes := t.scopes.mapIdx fun i s => { s with imports := f (i + 1) } }

variable {f : ScopeId → List Import}

@[simp] theorem scope?_withImports (s : ScopeId) :
    (t.withImports f).scope? s = (t.scope? s).map fun sc => { sc with imports := f s } := by
  unfold scope? withImports
  by_cases h0 : s = 0
  · simp [h0]
  · simp [h0, Nat.sub_add_cancel (Nat.pos_of_ne_zero h0)]

@[simp] theorem symbol?_withImports (id : SymbolId) : (t.withImports f).symbol? id = t.symbol? id := rfl

@[simp] theorem nameId?_withImports (s : String) : (t.withImports f).nameId? s = t.nameId? s := rfl

@[simp] theorem scopeKind_withImports (s : ScopeId) : (t.withImports f).scopeKind s = t.scopeKind s := by
  simp [scopeKind, Function.comp_def]

@[simp] theorem chain_withImports (s : ScopeId) : (t.withImports f).chain s = t.chain s := by
  have haux (fuel : Nat) (s : ScopeId) : (t.withImports f).chainAux fuel s = t.chainAux fuel s := by
    induction fuel generalizing s with
    | zero => rfl
    | succ fuel ih =>
      unfold chainAux
      rw [scope?_withImports]
      cases t.scope? s with
      | none => rfl
      | some sc => exact congrArg (s :: ·) (ih sc.parent)
  unfold chain
  rw [haux]
  simp [withImports]

@[simp] theorem boundIn?_withImports (s : ScopeId) (n : NameId) :
    (t.withImports f).boundIn? s n = t.boundIn? s n := by
  unfold boundIn?
  rw [scope?_withImports]
  cases t.scope? s <;> rfl

@[simp] theorem visible_withImports (id : SymbolId) : (t.withImports f).visible q id = t.visible q id := rfl

@[simp] theorem accessible_withImports (id : SymbolId) :
    (t.withImports f).accessible q id = t.accessible q id := by
  simp [accessible, isWithin]

@[simp] theorem childNamespace?_withImports (s : ScopeId) (seg : String) :
    (t.withImports f).childNamespace? s seg = t.childNamespace? s seg := by
  unfold childNamespace?
  rw [scope?_withImports]
  cases t.scope? s <;> rfl

@[simp] theorem descend?_withImports (s : ScopeId) (path : List String) :
    (t.withImports f).descend? s path = t.descend? s path := by
  induction path generalizing s with
  | nil => rfl
  | cons seg path ih => simp only [descend?, childNamespace?_withImports, ih]

theorem Named.withImports (h : t.Named) : (t.withImports f).Named := by
  intro id sc' hsc' p hp
  rw [scope?_withImports] at hsc'
  obtain ⟨sc, hsc, rfl⟩ := Option.map_eq_some_iff.1 hsc'
  exact h id sc hsc p hp

/-- An import is resolved without the help of imports. -/
@[simp] theorem resolveImport?_withImports (s : ScopeId) (u : Import) :
    (t.withImports f).resolveImport? s u = t.resolveImport? s u := by
  unfold resolveImport? namespaceOnChain?
  cases u.path <;> simp

theorem resolveImport?_congr {u u' : Import} (h : u.target = u'.target) (s : ScopeId) :
    t.resolveImport? s u = t.resolveImport? s u' := by
  obtain ⟨hpath, hglobal⟩ := Prod.mk.inj h
  simp only [resolveImport?, hpath, hglobal]

theorem importsOf_withImports {s : ScopeId} (h : s ∈ t.chain q.origin) : (t.withImports f).importsOf s = f s := by
  obtain ⟨sc, hsc⟩ := mem_chainAux h
  simp [importsOf, hsc]

@[simp] theorem binds_withImports {s : ScopeId} {id : SymbolId} :
    (t.withImports f).Binds s name id ↔ t.Binds s name id := by
  simp [Binds]

@[simp] theorem offers_withImports {s : ScopeId} {id : SymbolId} :
    (t.withImports f).Offers q s name id ↔ t.Offers q s name id := by
  simp [Offers]

@[simp] theorem innermost_withImports {s : ScopeId} {id : SymbolId} :
    (t.withImports f).Innermost q name s id ↔ t.Innermost q name s id := by
  simp [Innermost]

theorem brings_withImports (h : ∀ s ∈ t.chain q.origin, SameImports (f s) (t.importsOf s)) {id : SymbolId} :
    (t.withImports f).Brings q name id ↔ t.Brings q name id := by
  have hresolves (s : ScopeId) (u u' : Import) (hu : u.target = u'.target) :
      (∃ ns, t.resolveImport? s u = some ns ∧ t.Binds ns name id) →
        ∃ ns, t.resolveImport? s u' = some ns ∧ t.Binds ns name id := by
    rw [resolveImport?_congr hu]
    exact fun hns => hns
  unfold Brings
  simp only [chain_withImports, resolveImport?_withImports, binds_withImports]
  refine exists_congr fun s => and_congr_right fun hs => ?_
  rw [importsOf_withImports hs]
  exact ⟨(h s hs).exists_mem (hresolves s), (h s hs).symm.exists_mem (hresolves s)⟩

theorem candidate_withImports (h : ∀ s ∈ t.chain q.origin, SameImports (f s) (t.importsOf s)) (id : SymbolId) :
    (t.withImports f).Candidate q name id ↔ t.Candidate q name id := by
  simp only [Candidate, innermost_withImports, scopeKind_withImports, brings_withImports h]

theorem Answers.of_withImports {C' : SymbolId → Prop} {r : Found} (h : (t.withImports f).Answers q C' r)
    (hC : ∀ id, C' id ↔ C id) : t.Answers q C r := by
  obtain rfl : C' = C := funext fun id => propext (hC id)
  refine ⟨h.none, fun id hid => ?_, h.several⟩
  rw [← accessible_withImports (f := f)]
  exact h.one id hid

/-! ## Lookups -/

theorem lookup_of_local {s : ScopeId} {id : SymbolId} (h : t.Innermost q name s id) (hk : t.scopeKind s ≠ .nameSpace) :
    t.lookup q name = { symbol := id, denied := !t.accessible q id } := by
  rcases lookup_cases t q name with ⟨s', id', h', -, heq⟩ | ⟨hspaces, -⟩
  · obtain ⟨-, rfl⟩ := h.unique h'
    exact heq
  · exact absurd (hspaces s id h) hk

theorem lookup_of_spaces (h : ∀ s id, t.Innermost q name s id → t.scopeKind s = .nameSpace) :
    t.Answers q (t.Candidate q name) (t.lookup q name) := by
  rcases lookup_cases t q name with ⟨s, id, hi, hk, -⟩ | ⟨-, hits, hhits, heq⟩
  · exact absurd (h s id hi) hk
  · rw [heq]
    exact found_answers hhits

/-- In a table that has the symbols of its names, a name is found when something on the chain or an import has it. -/
theorem lookup_isFound (h : t.Named) :
    (t.lookup q name).isFound = true ↔ (∃ s id, t.Innermost q name s id) ∨ ∃ id, t.Brings q name id := by
  by_cases hspaces : ∀ s id, t.Innermost q name s id → t.scopeKind s = .nameSpace
  · have hne (id : SymbolId) : t.Candidate q name id → id ≠ 0 := by
      rintro (⟨s, hi, -⟩ | ⟨_, _, _, _, ns, _, hb⟩)
      · exact h.ne_zero hi.binds
      · exact h.ne_zero hb
    rw [(lookup_of_spaces hspaces).isFound_iff hne]
    constructor
    · rintro ⟨id, ⟨s, hi, -⟩ | hb⟩
      · exact .inl ⟨s, id, hi⟩
      · exact .inr ⟨id, hb⟩
    · rintro (⟨s, id, hi⟩ | ⟨id, hb⟩)
      · exact ⟨id, .inl ⟨s, hi, hspaces s id hi⟩⟩
      · exact ⟨id, .inr hb⟩
  · push Not at hspaces
    obtain ⟨s, id, hi, hk⟩ := hspaces
    have hne : id ≠ 0 := h.ne_zero hi.binds
    rw [lookup_of_local hi hk]
    exact ⟨fun _ => .inl ⟨s, id, hi⟩, fun _ => by simpa [Found.isFound] using hne⟩

theorem lookup_agrees (h : ∀ s ∈ t.chain q.origin, SameImports (f s) (t.importsOf s)) :
    ((t.withImports f).lookup q name).Agrees (t.lookup q name) := by
  by_cases hspaces : ∀ s id, t.Innermost q name s id → t.scopeKind s = .nameSpace
  · have hother : (t.withImports f).Answers q ((t.withImports f).Candidate q name) ((t.withImports f).lookup q name) :=
      lookup_of_spaces (by simpa using hspaces)
    exact (hother.of_withImports (candidate_withImports h)).agrees (lookup_of_spaces hspaces)
  · push Not at hspaces
    obtain ⟨s, id, hi, hk⟩ := hspaces
    have hother := lookup_of_local (t := t.withImports f) (innermost_withImports.2 hi) (by simpa using hk)
    rw [hother, lookup_of_local hi hk, accessible_withImports]
    exact ⟨fun _ => rfl, .refl _, rfl⟩

theorem lookup_withImports (h : ∀ s ∈ t.chain q.origin, f s = t.importsOf s) :
    (t.withImports f).lookup q name = t.lookup q name := by
  have hscopes : (t.withImports f).importedScopes q.origin = t.importedScopes q.origin := by
    unfold importedScopes
    rw [chain_withImports]
    refine List.flatMap_congr fun s hs => ?_
    show ((t.withImports f).importsOf s).filterMap _ = (t.importsOf s).filterMap _
    rw [importsOf_withImports hs, h s hs, funext (resolveImport?_withImports s)]
  have hhits (n : NameId) : (t.withImports f).importedHits q n = t.importedHits q n := by
    simp only [importedHits, hscopes, boundIn?_withImports]
  have hhit (n : NameId) : (t.withImports f).chainHit? q n = t.chainHit? q n := by
    unfold chainHit?
    rw [chain_withImports]
    simp only [boundIn?_withImports]
    rfl
  have hfound (hits : List SymbolId) : (t.withImports f).found q hits = t.found q hits := by
    simp only [found, accessible_withImports]
  simp only [lookup, nameId?_withImports, hhit, hhits, scopeKind_withImports, hfound]

/-- The answer of a lookup. The first scope of the chain with a visible symbol of the name decides: a local one shadows
everything; otherwise its symbol and those that the imports bring in are the candidates. The order of imports and their
repetition show in the order of an ambiguity only. The imports of scopes that are not on the chain do not count, nor does
any import help to resolve another. -/
theorem lookup_answers (t : ScopeTable) (q : Query) (name : String) :
    (∀ s id, t.Innermost q name s id → t.scopeKind s ≠ .nameSpace →
      t.lookup q name = { symbol := id, denied := !t.accessible q id }) ∧
    ((∀ s id, t.Innermost q name s id → t.scopeKind s = .nameSpace) →
      t.Answers q (t.Candidate q name) (t.lookup q name)) ∧
    (t.Named → ((t.lookup q name).isFound = true ↔ (∃ s id, t.Innermost q name s id) ∨ ∃ id, t.Brings q name id)) ∧
    (∀ f : ScopeId → List Import, (∀ s ∈ t.chain q.origin, SameImports (f s) (t.importsOf s)) →
      ((t.withImports f).lookup q name).Agrees (t.lookup q name) ∧
        (t.Named → ((t.withImports f).lookup q name).isFound = (t.lookup q name).isFound)) ∧
    (∀ f : ScopeId → List Import, (∀ s ∈ t.chain q.origin, f s = t.importsOf s) →
      (t.withImports f).lookup q name = t.lookup q name) ∧
    ∀ (f : ScopeId → List Import) s u, (t.withImports f).resolveImport? s u = t.resolveImport? s u := by
  refine ⟨fun s id => lookup_of_local, lookup_of_spaces, lookup_isFound, fun f hf => ⟨lookup_agrees hf, fun h => ?_⟩,
    fun f => lookup_withImports, fun f => resolveImport?_withImports⟩
  rw [Bool.eq_iff_iff, lookup_isFound h, lookup_isFound h.withImports]
  simp only [innermost_withImports, brings_withImports hf]

/-- Two namespaces with an `f`, a third that imports both of them, and in it a function that declares its own `f` second. -/
def crossing : ScopeTable where
  names := { texts := #["", "a", "b", "user", "f"] }
  scopes := #[
    { kind := .nameSpace, namespaces := [(1, 2), (2, 3), (3, 4)] },
    { kind := .nameSpace, parent := 1, name := "a", names := [(4, 1)] },
    { kind := .nameSpace, parent := 1, name := "b", names := [(4, 2)] },
    { kind := .nameSpace, parent := 1, name := "user",
      imports := [{ path := ["a"] }, { path := ["b"], fromGlobal := true }] },
    { kind := .function, parent := 4, names := [(4, 3)] }]
  symbols := #[
    { name := 4, kind := .var, scope := 2 },
    { name := 4, kind := .var, scope := 3 },
    { name := 4, kind := .var, scope := 5, seq := 2 }]

theorem named_crossing : crossing.Named := by
  intro id sc hsc p hp
  have hall : ∀ sc ∈ crossing.scopes, ∀ p ∈ sc.names, (crossing.symbol? p.2).isSome = true := by decide +kernel
  unfold scope? at hsc
  split at hsc
  · cases hsc
  · exact Option.isSome_iff_exists.1 (hall sc (Array.mem_of_getElem? hsc) p hp)

/-- Before its declaration the local `f` does not shadow the two imported ones. That the imports are written backwards and
twice makes no difference, nor does an import in the first of the two namespaces. -/
theorem crossing_looked :
    let late : Query := { origin := 5, seq := 2 }
    let early : Query := { origin := 5, seq := 1 }
    let swapped (s : ScopeId) : List Import := (crossing.importsOf s).reverse ++ crossing.importsOf s
    let nested (s : ScopeId) : List Import := if s = 2 then [{ path := ["b"] }] else crossing.importsOf s
    crossing.lookup late "f" = { symbol := 3 } ∧ (crossing.lookup early "f").ambiguous.Perm [1, 2] ∧ crossing.Named ∧
      ((crossing.withImports swapped).lookup early "f").Agrees (crossing.lookup early "f") ∧
      ((crossing.withImports swapped).lookup early "f").isFound = true ∧
      (crossing.withImports nested).lookup early "f" = crossing.lookup early "f" := by
  intro late early swapped nested
  have hn : crossing.nameId? "f" = some 4 := by decide +kernel
  obtain ⟨hlocal, -⟩ := lookup_answers crossing late "f"
  obtain ⟨-, hspaces, hfound, hagrees, hsame, -⟩ := lookup_answers crossing early "f"
  have hfive : crossing.Innermost late "f" 5 3 := (chainHit?_eq_some hn).1 (by decide +kernel)
  have hfree (s : ScopeId) (id : SymbolId) : ¬crossing.Innermost early "f" s id := by
    rw [← chainHit?_eq_some hn, show crossing.chainHit? early 4 = none by decide +kernel]
    exact nofun
  have hbrings (id : SymbolId) : crossing.Brings early "f" id ↔ id ∈ [1, 2] := by
    rw [← mem_importedHits hn, show crossing.importedHits early 4 = [1, 2] by decide +kernel]
  have hcandidate (id : SymbolId) : crossing.Candidate early "f" id ↔ id ∈ [1, 2] := by
    simp only [Candidate, hfree, false_and, exists_false, false_or, hbrings]
  obtain ⟨hnodup, hmem, -⟩ := (hspaces fun s id h => absurd h (hfree s id)).several 1 2
    ((hcandidate 1).2 (by decide)) ((hcandidate 2).2 (by decide)) (by decide)
  obtain ⟨hsorted, hkept⟩ := hagrees swapped fun s _ => .of_mem_iff (by simp [swapped])
  refine ⟨(hlocal 5 3 hfive (by decide +kernel)).trans (by decide +kernel),
    (List.perm_ext_iff_of_nodup hnodup (by decide)).2 fun id => (hmem id).trans (hcandidate id), named_crossing, hsorted,
    (hkept named_crossing).trans ((hfound named_crossing).2 (.inr ⟨1, (hbrings 1).2 (by decide)⟩)), hsame nested ?_⟩
  have hchain : ∀ s ∈ crossing.chain early.origin, s ≠ 2 := by decide +kernel
  intro s hs
  exact if_neg (hchain s hs)

end ScopeTable

end TreeCompiler
