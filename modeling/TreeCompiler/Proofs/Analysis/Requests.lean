import TreeCompiler.Proofs.Agree.Run
import TreeCompiler.Proofs.Tree.Copy
import TreeCompiler.Tree.Builder

/-!
# Instances and the arguments they were asked for with

A generic has one instance for each vector of type arguments. The instances are kept under keys of values that stand for
types, and whichever hash function the values come from, equal keys mean equal vectors as long as there is a value for every
type.

* `Analysis.startWith` : where an analysis starts that takes the values of types from another hash function;
* `Analysis.linked_run` : how keys, instances and requests hang together at the end of a run;
* `Analysis.instances_unique` : the instances of a run, and the values of types.

An instance is made from the declaration as it is at that time, and making one changes neither the declaration nor anything else
that is there.

* `Unfolding.withoutParams` : a declaration that is no longer generic;
* `Analysis.copyDecl_unfolds` : what the copy is, and that all other unfoldings stay;
* `Tree.analyze_changes_generic` : a generic function that the analysis changes. The types of its parameters are resolved in the
  declaration itself, and where one is a struct type, a default in it may be exchanged for a cast.
-/

namespace TreeCompiler

/-- The names of the built-in types stand for no generics. -/
theorem Analysis.sameInstances_declareBuiltins (t : ScopeTable) : t.SameInstances (declareBuiltins t) := by
  unfold declareBuiltins
  refine List.foldlRecOn (motive := t.SameInstances) _ _ (.refl t) fun tab htab (text, type) _ => ?_
  refine htab.trans ((tab.sameInstances_intern text).trans ?_)
  dsimp only
  split
  · rename_i hdeclare
    exact ScopeTable.sameInstances_declare rfl hdeclare
  · exact .refl _

namespace Analysis

/-- The state in which an analysis starts, with the values of types from `digest`. -/
def startWith (digest : Bytes → UInt64) (tree : Tree) (options : AnalysisOptions) (tracer : Tracer) : Analysis :=
  { initial tree options tracer with prints := { digest } }

example (tree : Tree) (options : AnalysisOptions) (tracer : Tracer) :
    initial tree options tracer = startWith Xxh3.hash tree options tracer := rfl

theorem linked_startWith (digest : Bytes → UInt64) (tree : Tree) (options : AnalysisOptions) (tracer : Tracer) :
    Linked (startWith digest tree options tracer) := by
  have hnone (gen : SymbolId) : (startWith digest tree options tracer).result.scopes.instancesOf gen = [] := by
    refine ((sameInstances_declareBuiltins {}).instances gen).trans ?_
    simp [ScopeTable.instancesOf, ScopeTable.symbol?]
  refine ⟨Fingerprints.issues_empty digest, fun gen => ?_, fun gen => ?_, fun gen e he => ?_, fun r hr => ?_⟩
  · rw [hnone]
    exact List.nodup_nil
  · rw [hnone]
    exact List.nodup_nil
  · rw [hnone] at he
    cases he
  · cases hr

/-- No step of a run loses how its instances hang together. -/
theorem linked_run (digest : Bytes → UInt64) (tree : Tree) (options : AnalysisOptions) (tracer : Tracer) :
    Linked (after run (startWith digest tree options tracer)) :=
  (later_run _).linked (linked_startWith digest tree options tracer)

theorem Linked.inst_eq {s : Analysis} (h : Linked s) {r r' : InstanceRequest} (hr : r ∈ s.requests) (hr' : r' ∈ s.requests)
    (hgen : r.generic = r'.generic) (hargs : r.args = r'.args) : r.inst = r'.inst := by
  obtain ⟨key, hmem, hkey⟩ := h.requests r hr
  obtain ⟨key', hmem', hkey'⟩ := h.requests r' hr'
  rw [← hgen] at hmem'
  rw [← hargs] at hkey'
  obtain rfl := hkey.unique h.issues hkey'
  exact congrArg Prod.snd (List.inj_on_of_nodup_map (h.keys r.generic) hmem hmem' rfl)

theorem Linked.args_eq {s : Analysis} (h : Linked s) (hlen : s.prints.issued.length ≤ 2 ^ 64) {r r' : InstanceRequest}
    (hr : r ∈ s.requests) (hr' : r' ∈ s.requests) (hgen : r.generic = r'.generic) (hinst : r.inst = r'.inst) :
    r.args = r'.args := by
  obtain ⟨key, hmem, hkey⟩ := h.requests r hr
  obtain ⟨key', hmem', hkey'⟩ := h.requests r' hr'
  rw [← hgen, ← hinst] at hmem'
  obtain rfl : key = key' := congrArg Prod.fst (List.inj_on_of_nodup_map (h.insts r.generic) hmem hmem' rfl)
  exact hkey.inj h.issues hlen hkey'

/-- Whatever hash function the values of types come from: two requests for a generic got the same instance exactly when
their arguments are the same, every instance was entered once, and the values that were asked for one after another are
equal exactly for the same type. -/
theorem instances_unique (digest : Bytes → UInt64) (tree : Tree) (options : AnalysisOptions) (tracer : Tracer) :
    let s := after run (startWith digest tree options tracer)
    (∀ r ∈ s.requests, ∀ r' ∈ s.requests, r.generic = r'.generic →
      (r.args = r'.args → r.inst = r'.inst) ∧ (s.prints.issued.length ≤ 2 ^ 64 → r.inst = r'.inst → r.args = r'.args)) ∧
    (∀ r ∈ s.requests, ((s.result.scopes.instancesOf r.generic).map (·.2)).count r.inst = 1) ∧
    (∀ gen, ((s.result.scopes.instancesOf gen).map (·.2)).Nodup) ∧
    ∀ queries : List (TypeTable × TypeId), (queries.map (·.2)).dedup.length ≤ 2 ^ 64 →
      ∀ a ∈ (Fingerprints.hashEach { digest } queries).1, ∀ b ∈ (Fingerprints.hashEach { digest } queries).1,
        a.2 = b.2 ↔ a.1 = b.1 := by
  intro s
  have h : Linked s := linked_run digest tree options tracer
  refine ⟨fun r hr r' hr' hgen => ?_, fun r hr => ?_, h.insts, ?_⟩
  · exact ⟨h.inst_eq hr hr' hgen, fun hlen => h.args_eq hlen hr hr' hgen⟩
  · obtain ⟨key, hmem, -⟩ := h.requests r hr
    exact List.count_eq_one_of_mem (h.insts r.generic) (List.mem_map_of_mem hmem)
  · exact fun queries hcount a ha b hb => Fingerprints.hashEach_eq_iff digest queries hcount ha hb

/-- A generic function that is called with an integer, a truth value and an integer again. -/
def calledThrice : Tree where
  nodes := #[
    .typeName ["T"], .param "x" 1, .typeName ["T"], .ident ["x"], .returnStmt 4, .block [5],
    { Node.func "id" [2] 3 6 with params := ["T"] },
    .ident ["id"], .intLit 1, .call 8 [9], .exprStmt 10,
    .ident ["id"], .boolLit true, .call 12 [13], .exprStmt 14,
    .ident ["id"], .intLit 2, .call 16 [17], .exprStmt 18,
    { kind := .file, list := [7, 11, 15, 19] }]
  roots := [20]

/-- Also when every type has the same hash value. -/
theorem calledThrice_instances :
    let s := after run (startWith (fun _ => 0) calledThrice {} {})
    (∃ r ∈ s.requests, ∃ r' ∈ s.requests, r.generic = r'.generic ∧ r.args ≠ r'.args ∧ r.inst ≠ r'.inst) ∧
      2 < s.requests.length := by
  obtain ⟨⟨r, hr, r', hr', hgen, hargs⟩, hmany, hlen⟩ :
      let s := after run (startWith (fun _ => 0) calledThrice {} {})
      (∃ r ∈ s.requests, ∃ r' ∈ s.requests, r.generic = r'.generic ∧ r.args ≠ r'.args) ∧
        2 < s.requests.length ∧ s.prints.issued.length ≤ 2 ^ 64 := by decide +kernel
  have hsame := (instances_unique (fun _ => 0) calledThrice {} {}).1 r hr r' hr' hgen
  exact ⟨⟨r, hr, r', hr', hgen, hargs, fun hinst => hargs (hsame.2 hlen hinst)⟩, hmany⟩

end Analysis

/-! ## Copies of declarations -/

def Unfolding.withoutParams : Unfolding → Unfolding
  | missing => missing
  | node content slots => node { content with params := [] } slots

namespace Tree

variable {t t' : Tree} {id : NodeId} {fuel : Nat}

/-- Nodes that are added do not change what hangs below the nodes of a closed tree. -/
theorem unfoldAux_extends (hclosed : t.Closed) (ht : t.Extends t') : ∀ {id u}, t.Has id → t.unfoldAux fuel id = some u →
    t'.unfoldAux fuel id = some u := by
  induction fuel with
  | zero =>
    intro id u _ hu
    cases hu
  | succ fuel ih =>
    intro id u hid hu
    rw [unfoldAux] at hu ⊢
    rw [hid.get?_eq ht]
    cases hn : t.get? id with
    | none => simpa only [hn] using hu
    | some n =>
      simp only [hn, Option.map_eq_some_iff] at hu ⊢
      obtain ⟨us, hus, rfl⟩ := hu
      exact ⟨us, mapM_mono (fun c hc u hu => ih (hclosed.slot hn hc) hu) hus, rfl⟩

theorem unfolding?_extends (hclosed : t.Closed) (ht : t.Extends t') (hsize : t.size ≤ t'.size) (hid : t.Has id)
    (hcircle : ¬t.MeetsCircle (fun _ => true) id) : t'.unfolding? id = t.unfolding? id := by
  obtain ⟨u, hu⟩ := Option.isSome_iff_exists.1 (unfolding?_isSome hcircle)
  rw [hu]
  exact unfoldAux_mono t' (by omega) (unfoldAux_extends hclosed ht hid hu)

/-- In a closed tree nothing is missing but what an empty slot names. -/
theorem Closed.missesFrom (hclosed : t.Closed) (limit : Nat) : t.MissesFrom limit id := by
  rintro x c - ⟨-, n, hn, hc⟩ hnone
  rcases hclosed x n hn c hc with h0 | ⟨m, hm⟩
  · exact .inl h0
  · rw [hnone] at hm
    cases hm

/-- The node that was added last, edited. -/
theorem modify_push (t : Tree) (n : Node) (f : Node → Node) :
    (t.push n).2.modify (t.push n).1 f = (t.push (f n)).2 := by
  unfold push modify
  refine (if_neg (Nat.succ_ne_zero _)).trans (congrArg (fun nodes => { t with nodes := nodes }) ?_)
  refine Array.ext_getElem? fun k => ?_
  rw [Array.getElem?_modify, Array.getElem?_push, Array.getElem?_push]
  by_cases hk : k = t.nodes.size
  · simp [hk]
  · rw [if_neg hk, if_neg hk, if_neg (by simpa using Ne.symm hk)]

end Tree

/-- A call of a generic function with a parameter of a struct type, whose field is a real with an integer as its default. -/
def defaulted : Tree where
  nodes := #[
    .typeName ["real"], .intLit 1, .field "a" 1 2, .typeStruct [3], .param "s" 4, .typeName ["T"], .param "y" 6,
    .typeName ["int"], .intLit 0, .returnStmt 9, .block [10], { Node.func "f" [5, 7] 8 11 with params := ["T"] },
    .ident ["f"], .realLit 0x3FF8000000000000, .field "a" 14 0, .structLit 0 [15], .intLit 1, .call 13 [16, 17], .exprStmt 18,
    { kind := .file, list := [12, 19] }]
  roots := [20]

namespace Analysis

theorem copyDecl_ok {s : Analysis} {decl : NodeId} {t : Tree} {n : Node}
    (h : s.result.tree.copy decl = some (t.push n)) : copyDecl decl s =
      .ok (t.size + 1) { s with result := { s.result with tree := (t.push { n with params := [] }).2 } } := by
  rw [copyDecl_apply, h]
  have hmodify := Tree.modify_push t n fun n => { n with params := [] }
  exact congrArg (fun t' => EStateM.Result.ok (t.size + 1) { s with result := { s.result with tree := t' } }) hmodify

open TreeCompiler.Tree in
/-- The copy of a declaration unfolds as the declaration does, without type parameters. Whatever was there unfolds as before. -/
theorem copyDecl_unfolds {s : Analysis} {decl : NodeId} {n : Node} (hclosed : s.result.tree.Closed)
    (hn : s.result.tree.get? decl = some n) (hcircle : ¬s.result.tree.MeetsCircle (fun _ => true) decl) :
    ∃ clone s', copyDecl decl s = .ok clone s' ∧ s.result.tree.get? clone = none ∧
      s'.result.tree.unfolding? clone = (s.result.tree.unfolding? decl).map Unfolding.withoutParams ∧
      ∀ id, s.result.tree.Has id → ¬s.result.tree.MeetsCircle (fun _ => true) id →
        s'.result.tree.unfolding? id = s.result.tree.unfolding? id := by
  obtain ⟨u, hu⟩ := Option.isSome_iff_exists.1 (unfolding?_isSome hcircle)
  have hunfold := hu
  rw [unfolding?, unfoldAux] at hunfold
  simp only [hn, Option.map_eq_some_iff] at hunfold
  obtain ⟨us, hus, rfl⟩ := hunfold
  have hslots : ∀ c ∈ slots n, ∀ t u, s.result.tree.Extends t → s.result.tree.unfoldAux (s.result.tree.size + 1) c = some u →
      t.size + u.count < s.result.tree.size + Unfolding.countAll us + 1 →
      ∃ r, copyAux (s.result.tree.size + 1) t c = some r ∧ t.Copied (s.result.tree.size + 1) u r.1 r.2 :=
    fun c hc t u ht hu hlt =>
      copyAux_copied ht ((hclosed.slot hn hc).get?_eq ht) (hclosed.missesFrom _) hu (Nat.le_of_lt hlt)
  obtain ⟨r, hr, hcopied⟩ := copyListWith_copied hslots (.refl _) hus (Nat.lt_succ_self _)
  obtain ⟨n', hslots', hcontent, htype, hcompleted, hcopy⟩ := copyAux_node hn hr
  rw [← hslots'] at hcopied
  have hplain := CopiedAll.push (n := { n' with params := [] }) hcopied htype hcompleted
  refine ⟨_, _, copyDecl_ok hcopy, hcopied.added.toExtends.get?_size, ?_, fun id hid hc => ?_⟩
  · rw [hu, Option.map_some]
    refine (unfoldAux_mono _ ?_ (hplain.unfolds _ (.refl _))).trans ?_
    · rw [hplain.added.size]
      omega
    · rw [Unfolding.withoutParams, ← hcontent]
      rfl
  · exact unfolding?_extends hclosed hplain.added.toExtends (by rw [hplain.added.size]; omega) hid hc

/-- A copy that is made before anything is resolved. -/
theorem copyDecl_unfolds_defaulted : ∃ clone s', copyDecl 12 (.initial defaulted {} {}) = .ok clone s' ∧
    s'.result.tree.unfolding? clone = (defaulted.unfolding? 12).map Unfolding.withoutParams ∧
    s'.result.tree.unfolding? 12 = defaulted.unfolding? 12 := by
  have hclosed : defaulted.Closed := Tree.validate_ok (by decide +kernel)
  have hcircle : ¬defaulted.MeetsCircle (fun _ => true) 12 :=
    Tree.not_meetsCircle_of_acc (@Tree.acc_of_walkAux _ _ 8 _ (by decide +kernel))
  obtain ⟨clone, s', hcopy, -, hclone, hkept⟩ :=
    @copyDecl_unfolds (.initial defaulted {} {}) 12 _ hclosed rfl hcircle
  exact ⟨clone, s', hcopy, hclone, hkept 12 (.inr ⟨_, rfl⟩) hcircle⟩

end Analysis

/-- The default in the declaration is exchanged for a cast. The copy of the cast has no type to convert to. -/
theorem Tree.analyze_changes_generic :
    defaulted.Formed ∧ (defaulted.unfolding? 12).map Unfolding.count = some 12 ∧
      ((defaulted.analyze {} {}).state.result.tree.unfolding? 12).map Unfolding.count = some 13 ∧
      (defaulted.analyze {} {}).diagnostics.map (·.code) = [.castMismatch] := by
  decide +kernel

end TreeCompiler
