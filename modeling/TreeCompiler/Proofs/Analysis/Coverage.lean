import TreeCompiler.Proofs.Analysis.Reach

/-!
# What the declaration pass reaches

The pass succeeds on every formed tree, and resolution finds a scope wherever it goes, except below a declaration whose name
was taken: the pass reports it and leaves.

* `Analysis.Visits D self` : what the pass does below the declarations of `D`;
* `declareStep_visits` : one node; `declareWith_visits` : the pass. The nodes under declaration are different ones, so there
  are never more of them than nodes, and the depth that `declare` allows is enough;
* `Tree.analyze_reaches` : the state in which resolution begins.
-/

namespace TreeCompiler

namespace Analysis

/-! ## The children of a node -/

/-- What the pass does on a node below the declarations of `D`. -/
structure Visits (t : Tree) (D : List NodeId) (visit : NodeId → AnalysisM Unit) : Prop where
  child : ∀ c, t.Has c → Covers t D D [c] (visit c)
  filled : ∀ c n, t.get? c = some n → c ∉ D → n.kind ∉ namingKinds → Covers t D D n.slots (visit c)

section Steps

variable {t : Tree} {D but : List NodeId} {self : NodeId → AnalysisM Unit} (hself : Visits t D self)
  (hD : ∀ id ∈ D, id ∈ but)
include hself hD

theorem child_covers {c : NodeId} (hc : t.Has c) : Covers t D but [c] (self c) := fun s => (hself.child c hc s).weaken hD

theorem children_covers {cs : List NodeId} (hcs : ∀ c ∈ cs, t.Has c) : Covers t D but cs (cs.forM self) := by
  have h := Covers.forM (g := id) cs fun c hc => child_covers hself hD (hcs c hc)
  rwa [List.map_id] at h

theorem declareNested_covers {c : NodeId} (hc : t.Has c) : Covers t D but [c] (declareNested self c) := by
  have h := child_covers hself hD hc
  intro s
  unfold declareNested
  refine .ite (fun h0 => ?_) fun _ => .bind fun _ s' _ => .ite (fun _ => h s') fun _ => ?_
  · exact .empty h0 _
  · exact (h.inBlock c s').last fun _ => inferInstance

theorem declareParam_covers {fs i : Nat} {p : NodeId} {pn : Node} (hp : t.get? p = some pn) (hn : pn.Formed t)
    (hk : pn.kind = .param) : Covers t D but [p] (declareParam self fs p i) := by
  have hslots : pn.slots = [pn.a] := by
    unfold Node.slots
    rw [hk]
  have hmem : p ∈ p :: but := List.mem_cons_self ..
  refine fun s => .part hp ?_
  rw [hslots]
  unfold declareParam
  refine .node_bind hp fun n' hn' => ?_
  obtain ⟨v, c, rfl⟩ := hn'
  refine .cons (.setScope (.inl hmem) fs) fun _ s₁ _ => ?_
  have htype := child_covers hself (fun id hid => List.mem_cons_of_mem p (hD id hid)) (hn.has_slot (.inl rfl))
  refine .cons (htype s₁) fun _ s₂ _ => ?_
  refine .bind fun _ s₃ _ => .bind fun _ s₄ _ => bindIn_covers (fun sym s => ?_) fun prev s hprev => ?_
  · exact .setDecl hmem sym
  · exact reportRedeclared_covers hprev

/-- The outermost block of a body is not declared on its own. -/
theorem body_covers {fs : ScopeId} {b : NodeId} {bn : Node} (hb : t.get? b = some bn) (hn : bn.Formed t) :
    Covers t D but [b] (do
      let body ← node b
      setScope b fs
      if body.kind = .block then body.list.forM self else self b) := by
  have hmem : b ∈ b :: but := List.mem_cons_self ..
  have hmore : ∀ id ∈ D, id ∈ b :: but := fun id hid => List.mem_cons_of_mem _ (hD id hid)
  intro s
  refine .node_bind hb fun n' hn' => ?_
  obtain ⟨v, c, rfl⟩ := hn'
  by_cases hblock : bn.kind = .block
  · have hslots : bn.slots = bn.list := by
      unfold Node.slots
      rw [hblock]
    refine .part hb ?_
    rw [hslots]
    refine .cons (.setScope (.inl hmem) fs) fun _ s₁ _ => .ite (fun _ => ?_) fun hne => absurd hblock hne
    exact children_covers hself hmore (fun c hc => hn.has_list hc) s₁
  · -- such a body is entered once more, and is left open only if it is already under declaration
    by_cases hopen : b ∈ but ∨ bn.kind ∈ namingKinds
    · refine .mono (.cons (.setScope (hopen.imp_right fun hk => ⟨bn, hb, hk⟩) fs) fun _ s₁ _ =>
        .ite (fun he => absurd he hblock) fun _ => child_covers hself hD (.inr ⟨bn, hb⟩) s₁) (by simp)
    · obtain ⟨hout, hk⟩ := not_or.1 hopen
      refine .part hb (.cons (.setScope (.inl hmem) fs) fun _ s₁ _ => .ite (fun he => absurd he hblock) fun _ => ?_)
      exact (hself.filled b bn hb (fun hin => hout (hD b hin)) hk s₁).weaken hmore

theorem declareFuncBody_covers {id : NodeId} {n : Node} (fn : SymbolId) (hn : t.get? id = some n) (ht : t.Formed)
    (hk : n.kind = .func) : Covers t D but n.slots (declareFuncBody self id fn) := by
  have hf := ht.get hn
  have opens (sc : Scope) (h : sc.names = []) : Quiet (withScopes (·.addScope sc)) :=
    Quiet.of_withScopes fun _ hn => hn.addScope h
  have setBody (fs : ScopeId) : Quiet (modifyScopes fun tab => tab.modifySymbol fn fun s => { s with body := fs }) :=
    Quiet.of_modifyScopes fun _ hn => hn.modifySymbol _ _
  have enter : Quiet (modify fun s => { s with funcs := s.funcs.insert fn { node := id }, bodies := s.bodies.push fn }) :=
    Quiet.note fun _ => ⟨rfl, rfl, rfl⟩
  have hparam (fs : ScopeId) (p : NodeId) (hp : p ∈ n.list) (i : Nat) : Covers t D but [p] (declareParam self fs p i) := by
    obtain ⟨pn, hpn, hpk⟩ := hf.has_part (k := .param) (by rw [hk]; rfl) hp
    exact declareParam_covers hself hD hpn (ht.get hpn) hpk
  have hslots : n.slots = n.list ++ [n.a, n.c, n.b] := by
    unfold Node.slots
    rw [hk]
  rw [hslots]
  intro s
  unfold declareFuncBody
  refine .node_bind hn fun n' hn' => .get_bind ?_
  obtain ⟨v, c, rfl⟩ := hn'
  have := opens { kind := .function, parent := s.scope, span := n.span, func := fn, anonymous := n.name = "" } rfl
  refine .bind fun fs s₁ _ => .bind fun _ s₂ _ => .bind fun _ s₃ _ => ?_
  refine Covers.outsideLoops (Covers.withScope (fun s₄ => ?_) fs) s₃
  refine .append (Covers.parts n.list (hparam fs) s₄) fun _ s₅ _ => ?_
  refine .cons (child_covers hself hD (hf.has_slot (.inl rfl)) s₅) fun _ s₆ _ => ?_
  refine .cons (child_covers hself hD (hf.has_slot (.inr (.inr (.inl rfl)))) s₆) fun _ s₇ _ => ?_
  refine .ite (fun h0 => ?_) fun h0 => ?_
  · obtain ⟨bn, hb⟩ := (hf.has_slot (.inr (.inl rfl))).resolve_left h0
    exact body_covers hself hD hb (ht.get hb) s₇
  · exact .empty (not_not.1 h0) _

theorem declareArm_covers {c : NodeId} {n : Node} (hc : t.get? c = some n) (hn : n.Formed t) (hk : n.kind = .matchArm) :
    Covers t D but [c] (declareArm self c) := by
  have hslots : n.slots = [n.a] := by
    unfold Node.slots
    rw [hk]
  have hmem : c ∈ c :: but := List.mem_cons_self ..
  have hmore : ∀ id ∈ D, id ∈ c :: but := fun id hid => List.mem_cons_of_mem _ (hD id hid)
  have hbody (s : Analysis) : CoversFrom t D (c :: but) s [n.a] (do
      if n.bind ≠ "" then setDecl c (← declareLocal c n.bind)
      declareNested self n.a) := by
    have hnested := declareNested_covers hself hmore (hn.has_slot (.inl rfl))
    refine .ite (fun _ => ?_) fun _ => hnested s
    exact .skip (declareLocal_covers c n.bind s) fun sym s₁ _ => .skip (.setDecl hmem sym) fun _ s₂ _ => hnested s₂
  refine fun s => .part hc ?_
  rw [hslots]
  unfold declareArm
  refine .node_bind hc fun n' hn' => .get_bind ?_
  obtain ⟨v, w, rfl⟩ := hn'
  refine .cons (.setScope (.inl hmem) _) fun _ s₁ _ => ?_
  exact (Covers.inBlock hbody c s₁).last fun _ => inferInstance

theorem declareMatch_covers {id : NodeId} {n : Node} (ht : t.Formed) (hn : n.Formed t) (hk : n.kind = .matchStmt) :
    Covers t D but (n.a :: n.list) (declareMatch self id n) := by
  have mark (c : NodeId) : Quiet (modify fun s => { s with matchOf := s.matchOf.insert c id }) :=
    Quiet.note fun _ => ⟨rfl, rfl, rfl⟩
  have harms : Covers t D but n.list (forIn n.list ⟨⟩ fun c _ => do
      discard <| node c
      modify fun s => { s with matchOf := s.matchOf.insert c id }
      declareArm self c
      pure (ForInStep.yield PUnit.unit)) := by
    have h := @Covers.forIn _ t D but (fun c _ => do
        discard <| node c
        modify fun s => { s with matchOf := s.matchOf.insert c id }
        declareArm self c
        pure (ForInStep.yield PUnit.unit)) (fun c : NodeId => c) n.list fun c hc =>
      ⟨do discard <| node c; modify fun s => { s with matchOf := s.matchOf.insert c id }; declareArm self c,
        by simp only [bind_assoc], ?_⟩
    · rwa [List.map_id'] at h
    · obtain ⟨arm, harm, hkind⟩ := hn.has_part (k := .matchArm) (by rw [hk]; rfl) hc
      intro s
      refine .skip (.node_bind harm fun _ _ => .pure _) fun _ s₁ _ => .bind fun _ s₂ _ => ?_
      exact declareArm_covers hself hD harm (ht.get harm) hkind s₂
  intro s
  unfold declareMatch
  exact .cons (child_covers hself hD (hn.has_slot (.inl rfl)) s) fun _ s₁ _ => (harms s₁).last fun _ => inferInstance

theorem declareFor_covers {id : NodeId} {n : Node} (hn : n.Formed t) :
    Covers t D but [n.a, n.b, n.c, n.d] (declareFor self id n) := by
  intro s
  unfold declareFor
  refine (Covers.inBlock (fun s => ?_) id s).last fun _ => inferInstance
  refine .cons (child_covers hself hD (hn.has_slot (.inl rfl)) s) fun _ s₁ _ => ?_
  refine .cons (child_covers hself hD (hn.has_slot (.inr (.inl rfl))) s₁) fun _ s₂ _ => ?_
  refine .cons (child_covers hself hD (hn.has_slot (.inr (.inr (.inl rfl)))) s₂) fun _ s₃ _ => ?_
  exact (declareNested_covers hself hD (hn.has_slot (.inr (.inr (.inr rfl))))).inLoop n.label s₃

theorem declareForeach_covers {id : NodeId} {n : Node} (hn : n.Formed t) (hid : id ∈ but) :
    Covers t D but [n.a, n.b] (declareForeach self id n) := by
  have setKey (key : SymbolId) : Quiet (modifyResult fun r => { r with keys := r.keys.insert id key }) :=
    Quiet.noteResult fun _ => ⟨rfl, rfl, rfl, rfl⟩
  have hbody := (declareNested_covers hself hD (hn.has_slot (.inr (.inl rfl)))).inLoop n.label
  intro s
  unfold declareForeach
  refine .cons (child_covers hself hD (hn.has_slot (.inl rfl)) s) fun _ s₁ _ => ?_
  refine (Covers.inBlock (fun s => ?_) id s₁).last fun _ => inferInstance
  refine .skip (declareLocal_covers id n.name s) fun sym s₂ _ => .skip (.setDecl hid sym) fun _ s₃ _ => ?_
  refine .ite (fun _ => ?_) fun _ => hbody s₃
  exact .skip (declareLocal_covers id n.bind s₃) fun key s₄ _ => .bind fun _ s₅ _ => hbody s₅

theorem declareBlock_covers {id : NodeId} {n : Node} (hn : n.Formed t) (hid : id ∈ but) :
    Covers t D but n.list (declareBlock self id n) := by
  intro s
  unfold declareBlock
  have hlist := children_covers hself hD fun c hc => hn.has_list hc
  exact (hlist.inBlock id s).leave fun block s₁ => .touch hid rfl (.of_place rfl rfl rfl)

theorem declareNamespace_covers {n : Node} (hn : n.Formed t) : Covers t D but n.list (declareNamespace self n) := by
  have opens (parent : ScopeId) : Quiet (withScopes (·.openNamespace parent n.name n.span)) :=
    Quiet.of_withScopes fun _ h => h.openNamespace _ _ _
  intro s
  unfold declareNamespace
  refine .get_bind (.bind fun ns s₁ _ => ?_)
  exact (children_covers hself hD fun c hc => hn.has_list hc).withScope ns s₁

/-- The function around a return statement has a scope. -/
theorem declareReturn_covers {id : NodeId} {n : Node} (hn : n.Formed t) : Covers t D but [n.a] (declareReturn self id n) := by
  have hvalue := child_covers hself hD (hn.has_slot (.inl rfl))
  have record (fn : SymbolId) (info : FuncInfo) : Quiet (modify fun s => { s with funcs := s.funcs.insert fn info }) :=
    Quiet.note fun _ => ⟨rfl, rfl, rfl⟩
  intro s
  unfold declareReturn
  refine .get_bind (.ite (fun _ => .bind fun _ s₁ _ => hvalue s₁) fun h0 => ?_)
  obtain ⟨sc, hsc, -⟩ := ScopeTable.funcScope_scope? h0
  have hinfo : scopeInfo (s.result.scopes.funcScope s.scope) s = .ok sc s := by
    rw [scopeInfo_apply, hsc]
    rfl
  have : CoversFrom t D but s [] (scopeInfo (s.result.scopes.funcScope s.scope)) :=
    fun hr => ⟨sc, s, hinfo, hr, .refl t but s, fun _ hc => by cases hc⟩
  refine .skip this fun sc s₁ _ => ?_
  dsimp only
  split
  · exact .bind fun _ s₂ _ => hvalue s₂
  · exact hvalue s₁

end Steps

/-! ## Declarations that may be refused -/

section Naming

variable {t : Tree} {D but : List NodeId} {self : NodeId → AnalysisM Unit} {id : NodeId} {n : Node}
  (hself : Visits t D self) (hD : ∀ x ∈ D, x ∈ id :: but) (hn : t.get? id = some n) (ht : t.Formed)
include hself hD hn ht

/-- The name of a variable is bound, and its children are declared unless it is generic. -/
theorem enterLet_covers (hk : n.kind = .letDecl) (s : Analysis) (sym : Symbol) : CoversFrom t D but s [] (do
    match ← bindSymbol sym with
    | .error prev => reportRedeclared n.name n.span prev
    | .ok symId => do
      setDecl id symId
      if n.isGeneric then return
      if (Attrs.ofFlags n.flags).has .static && (← inFunction) then
        modifyResult fun r => { r with statics := r.statics ++ [{ symbol := symId, init := n.b }] }
      self n.a
      self n.b) := by
  have hf := ht.get hn
  have hslots : n.slots = [n.a, n.b] := by
    unfold Node.slots
    rw [hk]
  have defer (symId : SymbolId) :
      Quiet (modifyResult fun r => { r with statics := r.statics ++ [{ symbol := symId, init := n.b }] }) :=
    Quiet.noteResult fun _ => ⟨rfl, rfl, rfl, rfl⟩
  have htype := child_covers hself hD (hf.has_slot (.inl rfl))
  have hinit := child_covers hself hD (hf.has_slot (.inr (.inl rfl)))
  have hparts : Covers t D (id :: but) [n.a, n.b] (do self n.a; self n.b) := fun s => .cons (htype s) fun _ s₁ _ => hinit s₁
  refine bindSymbol_covers (fun symId s => ?_) fun prev s hprev => reportRedeclared_covers hprev
  refine .enter hn (by rw [hk]; decide) (.setDecl (List.mem_cons_self ..) symId) (fun hgen _ s₁ => ?_) fun hgen _ s₁ => ?_
  · exact .ite (fun _ => .pure _) fun h => absurd hgen h
  · rw [hslots]
    refine .ite (fun h => by rw [hgen] at h; cases h) fun _ => .bind fun _ s₂ _ => ?_
    exact .ite (fun _ => .bind fun _ s₃ _ => hparts s₃) fun _ => hparts s₂

theorem declareLet_covers (hk : n.kind = .letDecl) : Covers t D but [] (declareLet self id n) := by
  intro s
  unfold declareLet
  refine .bind fun _ s₁ _ => .ite (fun _ => enterLet_covers hself hD hn ht hk s₁ _) fun _ => ?_
  refine .bind fun _ s₂ _ => .bind fun _ s₃ _ => .ite (fun _ => ?_) fun _ => ?_
  all_goals exact .bind fun _ s₄ _ => enterLet_covers hself hD hn ht hk s₄ _

theorem declareLiteral_covers (hk : n.kind = .func) : Covers t D but [] (declareLiteral self id n) := by
  have add (sym : Symbol) : Quiet (withScopes (·.addSymbol sym)) := Quiet.of_withScopes fun _ h => h.addSymbol sym
  have hmem : id ∈ id :: but := List.mem_cons_self ..
  intro s
  refine CoversFrom.mono (CoversFrom.close hn (l := n.slots) ?_ fun _ _ hc => hc) (by simp)
  unfold declareLiteral
  refine .bind fun _ s₁ _ => .get_bind (.bind fun fn s₂ _ => ?_)
  refine .skip (.touch hmem rfl (.of_func fn fun h => h)) fun _ s₃ _ => ?_
  exact declareFuncBody_covers hself hD fn hn ht hk s₃

theorem enterCandidate_covers (hk : n.kind = .func) (sym : Symbol) : Covers t D but [] (do
      let s ← get
      match s.result.scopes.declareCandidate s.scope sym with
      | .error prev => reportRedeclared n.name n.span prev
      | .ok (symId, scopes) => do
        modifyResult fun r => { r with scopes, funcs := r.funcs.insert id symId }
        if !n.isGeneric then declareFuncBody self id symId) := by
  refine fun s => .get_bind (.of_ready fun hr => ?_)
  split
  · rename_i prev hcand
    exact reportRedeclared_covers (hr.named.declareCandidate_error hcand)
  · rename_i symId scopes hcand
    have htouch : CoversFrom t D (id :: but) s []
        (modifyResult fun r => { r with scopes, funcs := r.funcs.insert id symId }) :=
      .touch (List.mem_cons_self ..) rfl (.of_func symId fun h => h.declareCandidate hcand)
    refine .enter hn (by rw [hk]; decide) htouch (fun hgen _ s₁ => ?_) fun hgen _ s₁ => ?_
    · exact .ite (fun h => by simp [hgen] at h) fun _ => .pure _
    · exact .ite (fun _ => declareFuncBody_covers hself hD symId hn ht hk s₁) fun h => by simp [hgen] at h

theorem declareFunc_covers (hk : n.kind = .func) : Covers t D but [] (declareFunc self id n) := by
  intro s
  unfold declareFunc
  refine .bind fun _ s₁ _ => .ite (fun _ => ?_) fun _ => ?_
  all_goals exact .bind fun _ s₂ _ => enterCandidate_covers hself hD hn ht hk _ s₂

theorem declareTypeDecl_covers (hk : n.kind = .typeDecl) : Covers t D but [] (declareTypeDecl self id n) := by
  have hf := ht.get hn
  have hslots : n.slots = [n.a] := by
    unfold Node.slots
    rw [hk]
  intro s
  unfold declareTypeDecl
  refine .bind fun _ s₁ _ => bindSymbol_covers (fun sym s => ?_) fun prev s hprev => reportRedeclared_covers hprev
  refine .enter hn (by rw [hk]; decide) (.setDecl (List.mem_cons_self ..) sym) (fun hgen _ s₁ => ?_) fun hgen _ s₁ => ?_
  · exact .ite (fun h => by simp [hgen] at h) fun _ => .pure _
  · rw [hslots]
    exact .ite (fun _ => child_covers hself hD (hf.has_slot (.inl rfl)) s₁) fun h => by simp [hgen] at h

omit hn in
theorem declareVariant_covers {union : SymbolId} {ns : ScopeId} {attrs : Attrs} {v : NodeId} {vn : Node} {tag : Nat}
    (hv : t.get? v = some vn) (hk : vn.kind = .variant) :
    Covers t D (id :: but) [v] (declareVariant self union ns attrs v tag) := by
  have hslots : vn.slots = [vn.a] := by
    unfold Node.slots
    rw [hk]
  refine fun s => .part hv ?_
  rw [hslots]
  unfold declareVariant
  refine .node_bind hv fun n' hn' => .get_bind ?_
  obtain ⟨w, c, rfl⟩ := hn'
  refine .cons (.setScope (.inl (List.mem_cons_self ..)) _) fun _ s₁ _ => ?_
  have hpayload := child_covers hself (fun x hx => List.mem_cons_of_mem v (hD x hx)) ((ht.get hv).has_slot (.inl rfl))
  refine .cons (hpayload s₁) fun _ s₂ _ => ?_
  refine .bind fun _ s₃ _ => .bind fun tab s₄ htab => .of_ready fun hr => ?_
  cases htab
  split
  · rename_i r scopes hdecl
    exact .of_rests rfl ⟨fun _ h => h, fun h => h.declare hdecl, rfl, rfl, rfl, rfl⟩
  · rename_i prev hdecl
    exact reportRedeclared_covers (hr.named.declare_error hdecl)

theorem declareUnion_covers (hk : n.kind = .unionDecl) : Covers t D but [] (declareUnion self id n) := by
  have hf := ht.get hn
  have hmem : id ∈ id :: but := List.mem_cons_self ..
  have hslots : n.slots = n.list := by
    unfold Node.slots
    rw [hk]
  have opens (parent : ScopeId) : Quiet (withScopes (·.openNamespace parent n.name n.span)) :=
    Quiet.of_withScopes fun _ h => h.openNamespace _ _ _
  have hvariant (sym : SymbolId) (ns : ScopeId) (attrs : Attrs) (v : NodeId) (hv : v ∈ n.list) (i : Nat) :
      Covers t D (id :: but) [v] (declareVariant self sym ns attrs v i) := by
    obtain ⟨vn, hvn, hvk⟩ := hf.has_part (k := .variant) (by rw [hk]; rfl) hv
    exact declareVariant_covers hself hD ht hvn hvk
  intro s
  unfold declareUnion
  refine .bind fun _ s₁ _ => bindSymbol_covers (fun sym s => ?_) fun prev s hprev => reportRedeclared_covers hprev
  refine CoversFrom.mono (CoversFrom.close hn (l := n.list) ?_ fun _ => by simp [hslots]) (by simp)
  refine .skip (.setDecl hmem sym) fun _ s₁ _ => .get_bind (.bind fun ns s₂ _ => ?_)
  exact (Covers.parts n.list (hvariant sym ns _) s₂).last fun _ => inferInstance

end Naming

/-! ## The whole pass -/

section Pass

variable {t : Tree} {D : List NodeId} {self : NodeId → AnalysisM Unit} {id : NodeId} {n : Node}

theorem finish_covers {but : List NodeId} (hn : t.get? id = some n) (type : TypeId) :
    Covers t D but [] (discard <| finish id type) := by
  have done : Quiet (modify fun s => { s with progress := true }) := Quiet.note fun _ => ⟨rfl, rfl, rfl⟩
  have left : Quiet (modify fun s => { s with pending := s.pending + 1 }) := Quiet.note fun _ => ⟨rfl, rfl, rfl⟩
  have hfinish : Covers t D but [] (finish id type) := fun s => .node_bind hn fun n' _ => Quiet.coversFrom _
  exact fun s => (hfinish s).leave fun _ _ => .pure _

/-- A node that is no declaration is left with all of its children. -/
theorem declareKind_covers (hself : Visits t D self) (ht : t.Formed) (hn : t.get? id = some n) (hid : id ∈ D)
    (hk : n.kind ∉ namingKinds) : Covers t D D n.slots (declareKind self id n) := by
  have hf := ht.get hn
  have hD : ∀ x ∈ D, x ∈ D := fun _ hx => hx
  have slot {c : NodeId} (hc : c = n.a ∨ c = n.b ∨ c = n.c ∨ c = n.d) : Covers t D D [c] (self c) :=
    child_covers hself hD (hf.has_slot hc)
  have nested {c : NodeId} (hc : c = n.a ∨ c = n.b ∨ c = n.c ∨ c = n.d) : Covers t D D [c] (declareNested self c) :=
    declareNested_covers hself hD (hf.has_slot hc)
  have list := children_covers hself hD fun c hc => hf.has_list hc
  have children := children_covers hself hD fun c hc => hf.has_child hc
  have literal (type : TypeId) : Covers t D D [] (discard <| finish id type) := finish_covers hn type
  have parts : Covers t D D [n.a] (n.children.forM self) := fun s => (children s).mono fun c hc h0 => by
    rw [List.mem_singleton.1 hc] at h0 ⊢
    simp [Node.children, h0]
  unfold Node.slots declareKind
  cases hkind : n.kind
  case file => exact list
  case nameSpace => exact declareNamespace_covers hself hD hf
  case importing => exact fun s => Quiet.coversFrom _
  case block => exact declareBlock_covers hself hD hf hid
  case letDecl | func | typeDecl | unionDecl =>
    rw [hkind] at hk
    exact absurd (by decide) hk
  case ifStmt =>
    have hc : Covers t D D [n.c] (declareNested self n.c) := nested (.inr (.inr (.inl rfl)))
    exact fun s => .cons (slot (.inl rfl) s) fun _ s₁ _ => .cons (nested (.inr (.inl rfl)) s₁) fun _ s₂ _ => hc s₂
  case whileLoop => exact fun s => .cons (slot (.inl rfl) s) fun _ s₁ _ => (nested (.inr (.inl rfl))).inLoop n.label s₁
  case forLoop => exact declareFor_covers hself hD hf
  case eachLoop => exact declareForeach_covers hself hD hf hid
  case matchStmt => exact declareMatch_covers hself hD ht hf hkind
  case breakStmt | continueStmt => exact fun s => Quiet.coversFrom _
  case returnStmt => exact declareReturn_covers hself hD hf
  case intLit | realLit | stringLit | boolLit => exact literal _
  case param | variant | matchArm => exact parts
  all_goals exact children

/-- A name may be taken, and then nothing is left open. -/
theorem declareKind_naming {but : List NodeId} (hself : Visits t D self) (hD : ∀ x ∈ D, x ∈ id :: but) (ht : t.Formed)
    (hn : t.get? id = some n) (hk : n.kind ∈ namingKinds) : Covers t D but [] (declareKind self id n) := by
  intro s
  unfold declareKind
  simp only [namingKinds, List.mem_cons, List.not_mem_nil, or_false] at hk
  rcases hk with hk | hk | hk | hk <;> simp only [hk]
  · exact declareLet_covers hself hD hn ht hk s
  · exact .ite (fun _ => declareLiteral_covers hself hD hn ht hk s) fun _ => declareFunc_covers hself hD hn ht hk s
  · exact declareTypeDecl_covers hself hD hn ht hk s
  · exact declareUnion_covers hself hD hn ht hk s

/-- A node is on the stack while it is declared. -/
theorem opened_covers {but l : List NodeId} {m : AnalysisM Unit} (hid : id ∉ D)
    (hb : id ∈ but ∨ ∃ n, t.get? id = some n ∧ n.kind ∈ namingKinds) (hm : Covers t (id :: D) but l m) (s : Analysis) :
    CoversFrom t D but s (id :: l) (do
      modify fun s => { s with declaring := s.declaring.insert id () }
      setScope id (← get).scope
      m
      modify fun s => { s with declaring := s.declaring.erase id }) := by
  intro hr
  obtain ⟨_, s₁, hset, hr₁, hp₁, -⟩ := CoversFrom.setScope (D := D) (s := s) hb s.scope hr
  cases hset
  let s₂ : Analysis :=
    { s with nodeScope := s.nodeScope.insert id s.scope, nodeSeq := s.nodeSeq.insert id (s.seq + 1), seq := s.seq + 1
             declaring := s.declaring.insert id () }
  have hid₂ : s₂.Reached id := (IdMap.contains_insert s.nodeScope id id s.scope).2 (.inl rfl)
  have hr₂ : Ready t (id :: D) s₂ := by
    refine ⟨hr.tree, hr.named, fun x => ?_, List.forall_mem_cons.2 ⟨hid₂, hr₁.reached⟩⟩
    exact (IdMap.contains_insert s.declaring id x ()).trans ((or_congr_right (hr.declaring x)).trans List.mem_cons.symm)
  obtain ⟨_, s₃, hm₃, hr₃, hp₃, hl₃⟩ := hm s₂ hr₂
  refine ⟨⟨⟩, { s₃ with declaring := s₃.declaring.erase id }, (?_ : (m >>= _) s₂ = _), ⟨hr₃.tree, hr₃.named, fun x => ?_,
    fun x hx => hr₃.reached x (List.mem_cons_of_mem _ hx)⟩, ?_, ?_⟩
  · rw [bind_apply hm₃]
    rfl
  · refine (IdMap.contains_erase s₃.declaring id x).trans ((and_congr_right' (hr₃.declaring x)).trans ?_)
    rw [List.mem_cons]
    exact ⟨fun h => h.2.resolve_left h.1, fun h => ⟨fun he => hid (he ▸ h), .inr h⟩⟩
  · exact ⟨fun x hx => hp₃.reached x (hp₁.reached x hx), fun x hx ho => hp₁.opened x hx (hp₃.opened x hx ho)⟩
  · exact List.forall_mem_cons.2 ⟨fun _ => hp₃.reached id hid₂, hl₃⟩

theorem declareStep_visits (ht : t.Formed) (hD : ∀ c n, t.get? c = some n → c ∉ D → Visits t (c :: D) self) :
    Visits t D (declareStep self) := by
  have fresh {c : NodeId} {n : Node} {but l : List NodeId} {s : Analysis} (hc : t.get? c = some n) (hout : c ∉ D)
      (hb : c ∈ but ∨ n.kind ∈ namingKinds) (h : Covers t (c :: D) but l (declareKind self c n)) :
      CoversFrom t D but s (c :: l) (declareStep self c) := by
    unfold declareStep
    refine .get_bind (.of_ready fun hr => .ite (fun hskip => ?_) fun _ => .node_bind hc fun n' hn' => ?_)
    · have h0 : c ≠ 0 := by
        rintro rfl
        cases hc
      have hin : c ∈ D := (hr.declaring c).1 (by simpa [h0] using hskip)
      exact absurd hin hout
    · obtain ⟨v, w, rfl⟩ := hn'
      exact opened_covers hout (hb.imp_right fun hk => ⟨n, hc, hk⟩) h s
  -- a declaration that is refused has none of its children declared, and owes none
  have naming {c : NodeId} {n : Node} (hc : t.get? c = some n) (hout : c ∉ D) (hk : n.kind ∈ namingKinds) :
      Covers t D D [c] (declareStep self c) := fun s =>
    fresh hc hout (.inr hk) (declareKind_naming (hD c n hc hout) (fun _ hx => hx) ht hc hk)
  have plain {c : NodeId} {n : Node} (hc : t.get? c = some n) (hout : c ∉ D) (hk : n.kind ∉ namingKinds) :
      Covers t D D (c :: n.slots) (declareStep self c) := fun s =>
    .close hc (fresh hc hout (.inl (List.mem_cons_self ..))
      (declareKind_covers (hD c n hc hout) ht hc (List.mem_cons_self ..) hk)) fun _ x hx => List.mem_cons_of_mem _ hx
  refine ⟨fun c hc s => ?_, fun c n hc hout hk s => (plain hc hout hk s).mono fun x hx _ => List.mem_cons_of_mem _ hx⟩
  by_cases hin : c = 0 ∨ c ∈ D
  · refine .of_ready fun hr => ?_
    have hskip : (decide (c = 0) || s.declaring.contains c) = true := by
      rcases hin with h | h
      · simp [h]
      · simp [(hr.declaring c).2 h]
    have hstep : declareStep self c s = .ok ⟨⟩ s := by
      unfold declareStep
      change (if _ then _ else _ : AnalysisM Unit) s = _
      rw [if_pos hskip]
      rfl
    refine fun _ => ⟨⟨⟩, s, hstep, hr, .refl t D s, fun x hx h0 => ?_⟩
    obtain rfl := List.mem_singleton.1 hx
    exact hr.reached x (hin.resolve_left h0)
  · obtain ⟨h0, hout⟩ := not_or.1 hin
    obtain ⟨n, hn⟩ := hc.resolve_left h0
    by_cases hk : n.kind ∈ namingKinds
    · exact naming hn hout hk s
    · exact (plain hn hout hk s).mono fun x hx _ => List.mem_singleton.1 hx ▸ List.mem_cons_self ..

end Pass

/-- The fuel that is left and the declarations that are open are more than the nodes of the tree. -/
theorem declareWith_visits {t : Tree} (ht : t.Formed) (fuel : Nat) :
    ∀ D : List NodeId, D.Nodup → (∀ c ∈ D, ∃ n, t.get? c = some n) → t.size < fuel + D.length →
      Visits t D (declareWith fuel) := by
  induction fuel with
  | zero =>
    intro D hnodup hin hlt
    have := Tree.length_le_size hnodup hin
    omega
  | succ fuel ih =>
    intro D hnodup hin hlt
    refine declareStep_visits ht fun c n hn hc => ih (c :: D) (List.nodup_cons.2 ⟨hc, hnodup⟩) ?_ ?_
    · exact List.forall_mem_cons.2 ⟨⟨n, hn⟩, hin⟩
    · simp only [List.length_cons]
      omega

theorem declare_covers {t : Tree} (ht : t.Formed) {id : NodeId} (hid : t.Has id) : Covers t [] [] [id] (declare id) := by
  refine fun s => .of_ready fun hr => ?_
  have hvisits := declareWith_visits ht (t.size + 2) [] List.nodup_nil (List.forall_mem_nil _) (by simp)
  have hdeclare : declare id s = declareWith (t.size + 2) id s := by
    rw [← hr.tree.size]
    rfl
  intro _
  rw [hdeclare]
  exact hvisits.child id hid s hr

/-! ## Analysis -/

/-- The first pass of an analysis. -/
def declarePass : AnalysisM Unit :=
  traced "declare" 0 (fun _ => []) fun _ => do (← tree).roots.forM declare

/-- What comes after the first pass. -/
def resolvePass : AnalysisM Unit := do
  let rec' := resolver (4 * (← tree).size + 4096)
  let budget := (← get).options.maxSweeps
  traced "resolve" 0 (fun s => [("sweeps", toString s.result.sweeps)]) fun span => resolveSweeps rec' span budget

theorem run_eq : run = (do declarePass; resolvePass) := by
  unfold run declarePass resolvePass
  rfl

theorem initial_ready (t : Tree) (options : AnalysisOptions) (tracer : Tracer) : Ready t [] (initial t options tracer) := by
  have hnamed : (declareBuiltins {}).Named := ScopeTable.Named.empty.declareBuiltins
  refine ⟨.refl t, hnamed, fun id => ?_, List.forall_mem_nil _⟩
  simp [initial, IdMap.contains, IdMap.get?]

theorem declarePass_covers {t : Tree} (ht : t.Formed) : Covers t [] [] t.roots declarePass := by
  have hroots : Covers t [] [] t.roots (t.roots.forM declare) := by
    have h := Covers.forM (g := id) t.roots fun r hr =>
      declare_covers ht (.inr (Option.isSome_iff_exists.1 (ht.roots r hr)))
    rwa [List.map_id] at h
  have hpass : Covers t [] [] t.roots (do (← tree).roots.forM declare) := fun s => .of_ready fun hr => by
    have hs := hroots s
    rw [← hr.tree.roots] at hs ⊢
    exact hs
  intro s
  unfold declarePass traced
  refine .skip (.of_rests rfl ⟨fun _ h => h, fun h => h, rfl, rfl, rfl, rfl⟩) fun span s₁ _ => ?_
  exact (hpass s₁).last fun _ => Quiet.note fun _ => ⟨rfl, rfl, rfl⟩

end Analysis

/-- The declaration pass of a formed tree never fails. Every root gets a scope, and so does every child of a node that has
one, unless the node is a generic declaration or a declaration whose name was taken. -/
theorem Tree.analyze_reaches (t : Tree) (options : AnalysisOptions) (tracer : Tracer) (h : t.Formed) :
    ∃ s, Analysis.run (Analysis.initial t options tracer) = Analysis.resolvePass s ∧ (∀ r ∈ t.roots, s.Reached r) ∧
      ∀ id n, t.get? id = some n → s.Reached id → (n.kind ∈ namingKinds → n.isGeneric = false ∧ s.Declared id) →
        ∀ c ∈ n.children, s.Reached c := by
  obtain ⟨u, s, hpass, -, hp, hroots⟩ :=
    Analysis.declarePass_covers h (Analysis.initial t options tracer) (Analysis.initial_ready t options tracer)
  have hpresent {c : NodeId} (hc : (t.get? c).isSome) : c ≠ 0 := by
    rintro rfl
    cases hc
  refine ⟨s, ?_, fun r hr => hroots r hr (hpresent (h.roots r hr)), fun id n hn hid hk c hc => ?_⟩
  · rw [Analysis.run_eq]
    exact Analysis.bind_apply hpass
  · -- nothing was open at the beginning
    have hcovered : Analysis.Covered t s id := by
      by_contra hopen
      have hfirst := (hp.opened id (List.not_mem_nil) ⟨.inl hid, hopen⟩).1
      simp [Analysis.Reached, Analysis.Declared, Analysis.initial, IdMap.contains, IdMap.get?] at hfirst
    obtain ⟨hslot, hsome⟩ := (h.get hn).children c hc
    exact hcovered n hn hk c hslot (hpresent hsome)

/-- A variable is declared again, with a name as its initial value. -/
def redeclared : Tree where
  nodes := #[.intLit 1, .letDecl "a" 0 1, .intLit 2, .letDecl "b" 0 3, .ident ["b"], .letDecl "a" 0 5,
    { kind := .file, list := [2, 4, 6] }]
  roots := [7]

/-- The nodes below the first two declarations have a scope. -/
theorem redeclared_reaches : redeclared.Formed ∧ ∃ s,
    Analysis.run (Analysis.initial redeclared {} {}) = Analysis.resolvePass s ∧ s.Reached 6 ∧ s.Reached 2 := by
  have hformed : redeclared.Formed := by decide
  obtain ⟨s, hrun, hroots, hchildren⟩ := redeclared.analyze_reaches {} {} hformed
  have hfile : ∀ c ∈ [2, 4, 6], s.Reached c :=
    hchildren 7 { kind := .file, list := [2, 4, 6] } rfl (hroots 7 (by decide)) fun hk => absurd hk (by decide)
  exact ⟨hformed, s, hrun, hfile 6 (by decide), hfile 2 (by decide)⟩

/-- The analysis ends with an error at the initial value that was not declared, and not only with a report. -/
theorem redeclared_fails : redeclared.Formed ∧
    (redeclared.analyze {} {}).failure = some (.internal 5 (.neverDeclared "ident")) :=
  ⟨by decide, by decide +kernel⟩

end TreeCompiler
