import TreeCompiler.Analysis.Call
import TreeCompiler.Proofs.Agree.Types

/-!
# Two runs in step: calls

A call is chosen by the types of its arguments, so both runs choose alike. A call through a member asks for the member by its
name as it is written.

* `Agree.castSlot`, `Agree.coerceSlot` : an expression in a slot is exchanged for a conversion of it;
* `resolveCall_agree` : a call.
-/

namespace TreeCompiler.Analysis

variable {g : Pace} {F : List NodeId} {α : Type}

/-! ## Slots -/

/-- What is listed is itself again, or has one spelling. -/
theorem AgreeFrom.setItem {s : Analysis} {v : View} {owner : NodeId} {i : Nat} {value : NodeId}
    (h : ∀ n, s.result.tree.get? owner = some n → value = n.list.getD i 0 ∨ value ∈ F) :
    AgreeFrom g F s v (modifyNode owner fun n => { n with list := n.list.set i value })
      (modifyNode owner fun n => { n with list := n.list.set i value }) := by
  refine .changeNode owner (fun _ _ => rfl) (fun _ => ⟨rfl, rfl, rfl⟩) (fun _ hk => hk) fun n hn c hc => ?_
  unfold Node.written at hc ⊢
  rcases List.mem_append.1 hc with hc | hc
  · exact .inl (List.mem_append_left _ hc)
  · split at hc
    · rename_i hk
      rw [if_pos hk]
      rcases Nat.lt_or_ge i n.list.length with hi | hi
      · rcases List.mem_or_eq_of_mem_set hc with hc | rfl
        · exact .inl (List.mem_append_right _ hc)
        · refine (h n hn).imp_left fun hsame => List.mem_append_right _ ?_
          rw [hsame, List.getD_eq_getElem?_getD, List.getElem?_eq_getElem hi]
          exact List.getElem_mem hi
      · rw [List.set_eq_of_length_le hi] at hc
        exact .inl (List.mem_append_right _ hc)
    · cases hc

namespace Agree

instance (slot : Slot) : Agree g F (slotValue slot) (slotValue slot) := by
  cases slot <;> unfold slotValue <;> infer_instance

theorem setSlot_agree (slot : Slot) {value : NodeId} (hvalue : value ∈ F) :
    Agree g F (setSlot slot value) (setSlot slot value) := by
  cases slot with
  | a owner => exact @editNode g F owner (fun n => { n with a := value }) (fun _ _ => rfl) fun _ => ⟨rfl, rfl⟩
  | b owner => exact @editNode g F owner (fun n => { n with b := value }) (fun _ _ => rfl) fun _ => ⟨rfl, rfl⟩
  | item owner i => exact ⟨fun s v => .setItem fun _ _ => .inr hvalue⟩

instance (slot : Slot) (t : TypeId) : Agree g F (castSlot slot t) (castSlot slot t) := by
  unfold castSlot
  exact ⟨fun s v => .seq fun value _ _ _ => .castNode_bind fun c _ _ _ => (setSlot_agree slot List.mem_cons_self).agrees _ _⟩

instance (slot : Slot) (want : TypeId) (code : Code) :
    Agree g F (coerceSlot slot want code) (coerceSlot slot want code) := by
  unfold coerceSlot
  refine ⟨fun s v => .seq fun value s₁ v₁ hvalue => .coerce_bind fun ok c G s₂ v₂ hext hc => ?_⟩
  cases slot with
  | a owner => exact (@editNode g _ owner (fun n => { n with a := c }) (fun _ _ => rfl) fun _ => ⟨rfl, rfl⟩).agrees _ _
  | b owner => exact (@editNode g _ owner (fun n => { n with b := c }) (fun _ _ => rfl) fun _ => ⟨rfl, rfl⟩).agrees _ _
  | item owner i =>
    obtain ⟨n, s₃, hn, hrest⟩ := bind_ok hvalue
    obtain ⟨rfl, hn⟩ := node_ok hn
    cases hrest
    refine .setItem fun m hm => ?_
    obtain rfl : n = m := Option.some.inj ((hext owner n hn).symm.trans hm)
    exact hc.imp_right (List.mem_append_left F)

instance (acts : List Actual) (params : List TypeId) (casts : List Nat) :
    Agree g F (castActuals acts params casts) (castActuals acts params casts) := by
  unfold castActuals
  refine forM casts fun i _ => ?_
  split <;> infer_instance

section Resolver

variable {rec : Resolver} [Agrees g rec]

/-! ## Candidates -/

instance (gen : SymbolId) (tpl : Template) (explicit : Option (List TypeId)) (acts : List Actual) :
    Agree g F (instanceFor rec gen tpl explicit acts) (instanceFor rec gen tpl explicit acts) := by
  unfold instanceFor
  have hargs (args : Option (List TypeId)) : Agree g F (do
      let some args := args | return .error .derivation
      let inst ← instantiate rec gen args
      if (← symbol inst).rejected then return .error .whereClause
      return (.ok inst : Except Rejection SymbolId)) (do
      let some args := args | return .error .derivation
      let inst ← instantiate rec gen args
      if (← symbol inst).rejected then return .error .whereClause
      return (.ok inst : Except Rejection SymbolId)) := by
    split <;> infer_instance
  split
  · exact bind hargs
  · exact bind hargs

instance (q : Query) (explicit : Option (List TypeId)) (acts : List Actual) (spread : Bool) (tally : Tally) (c : SymbolId) :
    Agree g F (weigh rec q explicit acts spread tally c) (weigh rec q explicit acts spread tally c) := by
  unfold weigh
  have hfn (sym : Symbol) (fn : Except Rejection SymbolId) : Agree g F (do
      match fn with
      | .error r => return tally.reject c r
      | .ok fn =>
        if !(← paramTypes rec fn) then return { tally with pending := true }
        let info ← funcInfo fn
        match (← types).classify info.params info.variadic acts spread with
        | .error r => return tally.reject fn r
        | .ok (cls, casts) =>
          return { tally with ranked := tally.ranked ++ [(⟨cls, sym.isGeneric⟩, { fn, casts })] }) (do
      match fn with
      | .error r => return tally.reject c r
      | .ok fn =>
        if !(← paramTypes rec fn) then return { tally with pending := true }
        let info ← funcInfo fn
        match (← types).classify info.params info.variadic acts spread with
        | .error r => return tally.reject fn r
        | .ok (cls, casts) =>
          return { tally with ranked := tally.ranked ++ [(⟨cls, sym.isGeneric⟩, { fn, casts })] }) := by
    split
    · infer_instance
    · refine bind fun _ => ite inferInstance (bind fun info => bind fun ts => ?_)
      split <;> infer_instance
  refine scopes_bind fun t t' ht => ?_
  rw [ht.accessible]
  refine ite inferInstance (bind fun sym => ?_)
  split
  · exact bind (hfn sym)
  · exact bind (hfn sym)

instance (q : Query) (cands : List SymbolId) (explicit : Option (List TypeId)) (acts : List Actual) (spread : Bool) :
    Agree g F (selectOverload rec q cands explicit acts spread) (selectOverload rec q cands explicit acts spread) := by
  unfold selectOverload
  infer_instance

end Resolver

/-! ## Reports of a selection -/

instance (fn : SymbolId) : Agree g F (signatureText fn) (signatureText fn) := by
  unfold signatureText
  infer_instance

instance (fns : List SymbolId) : Agree g F (candidateNotes fns) (candidateNotes fns) := by
  unfold candidateNotes
  infer_instance

theorem reportRejected_agree (span : Span) (name name' : String) (rejected : List (SymbolId × Rejection))
    (acts : List Actual) : Agree g F (reportRejected span name rejected acts) (reportRejected span name' rejected acts) := by
  unfold reportRejected
  refine bind fun args => ite (reportAs (by rfl) _) (ite (reportAs (by rfl) _) (ite (reportAs (by rfl) _)
    (ite (reportAs (by rfl) _) (bind fun notes => reportWithAs (by rfl) _ _ _))))

/-- A report about a name in two spellings. -/
theorem reportSelection_agree (id : NodeId) (name name' : String) (sel : Selection) (acts : List Actual) :
    Agree g F (reportSelection id name sel acts) (reportSelection id name' sel acts) := by
  unfold reportSelection
  refine bind fun span => ?_
  split
  · exact bind fun notes => reportWithAs (by rfl) _ _ _
  · exact reportRejected_agree span name name' _ acts
  · exact reportRejected_agree span name name' _ acts
  · exact reportRejected_agree span name name' _ acts

/-! ## Arguments -/

instance (id : NodeId) (n : Node) (w : Spelling) (inner : TypeId) :
    Agree g F (expand id n inner) (expand id (n.spelled w) inner) := by
  unfold expand
  refine bind fun t => ?_
  dsimp only
  split <;> infer_instance

section Resolver

variable {rec : Resolver} [Agrees g rec]

instance (call : NodeId) (args : CallArgs) (i : Nat) :
    Agree g F (addActual rec call args i) (addActual rec call args i) := by
  unfold addActual
  refine node_bind fun n w _ => node_bind fun an aw _ => ite ?_ ?_
  · exact bind fun t => bind fun ready => node_bind fun _ _ _ => inferInstance
  · refine bind fun inner => bind fun ready => ite inferInstance (node_bind fun m mw _ => bind fun r => ?_)
    split <;> infer_instance

instance (call : NodeId) : Agree g F (callActuals rec call) (callActuals rec call) := by
  unfold callActuals
  infer_instance

omit [Agrees g rec] in
instance (id : NodeId) (state : ArgState) : Agree g F (waitForArgs id state) (waitForArgs id state) := by
  unfold waitForArgs
  infer_instance

instance (list : List NodeId) : Agree g F (touchArgs rec list) (touchArgs rec list) := by
  unfold touchArgs
  infer_instance

/-! ## Calls -/

omit [Agrees g rec] in
instance (id : NodeId) (sym : SymbolId) : Agree g F (bindNode id sym) (bindNode id sym) := noteResult fun _ _ _ => rfl

omit [Agrees g rec] in
instance (id : NodeId) (info : CallInfo) : Agree g F (setCall id info) (setCall id info) := noteResult fun _ _ _ => rfl

instance (id callee : NodeId) (c : Candidate) (acts : List Actual) (method : Bool) :
    Agree g F (finishCall rec id callee c acts method) (finishCall rec id callee c acts method) := by
  unfold finishCall
  exact bind fun ft => bind fun _ => ite inferInstance (bind fun info => bind fun _ => bind fun sym => inferInstance)

instance (id : NodeId) (cands : List SymbolId) : Agree g F (callOverloads rec id cands) (callOverloads rec id cands) := by
  unfold callOverloads
  refine bind fun args => ite inferInstance (node_bind fun n w _ => node_bind fun cn cw _ => ?_)
  have hselect (explicit : Option (List TypeId)) : Agree g F (do
      match ← selectOverload rec (← query id) cands explicit args.acts args.spread with
      | .pending => pendingOrFail id
      | .chosen c _ => finishCall rec id n.a c args.acts false
      | sel =>
        reportSelection id cn.qualifiedName sel args.acts
        discard <| fail n.a
        fail id) (do
      match ← selectOverload rec (← query id) cands explicit args.acts args.spread with
      | .pending => pendingOrFail id
      | .chosen c _ => finishCall rec id n.a c args.acts false
      | sel =>
        reportSelection id (cn.spelled cw).qualifiedName sel args.acts
        discard <| fail n.a
        fail id) := by
    refine bind fun q => bind fun sel => ?_
    split
    · infer_instance
    · infer_instance
    · exact seq (reportSelection_agree ..) fun _ => inferInstance
  exact ite (bind fun r => hselect r) (bind fun r => inferInstance)

omit [Agrees g rec] in
instance (id : NodeId) (ft : TypeId) (args : CallArgs) : Agree g F (callTyped id ft args) (callTyped id ft args) := by
  unfold callTyped
  refine node_bind fun n w _ => bind fun t => ?_
  split
  · refine bind fun ts => ?_
    split <;> infer_instance
  · infer_instance
  · infer_instance

instance (id : NodeId) : Agree g F (callValue rec id) (callValue rec id) := by
  unfold callValue
  exact node_bind fun n w _ => bind fun ft => bind fun args => ite inferInstance (bind fun _ => inferInstance)

instance (id : NodeId) (variant : SymbolId) : Agree g F (callVariant rec id variant) (callVariant rec id variant) := by
  unfold callVariant
  refine bind fun (payload, union) => node_bind fun _ _ _ => bind fun _ => bind fun _ => ite inferInstance ?_
  refine node_bind fun n w _ => ?_
  have hdone : Agree g F (do
      setCall id { kind := .variant, target := variant }
      bindNode n.a variant
      discard <| finish n.a (← symbol variant).type
      finish id union) (do
      setCall id { kind := .variant, target := variant }
      bindNode n.a variant
      discard <| finish n.a (← symbol variant).type
      finish id union) := inferInstance
  dsimp only
  split
  · exact ite hdone inferInstance
  · refine ite inferInstance (node_bind fun an aw _ => ite inferInstance ?_)
    exact bind fun _ => ite inferInstance (bind fun _ => hdone)

instance (id : NodeId) : Agree g F (abandonCall rec id) (abandonCall rec id) := by
  unfold abandonCall
  exact node_bind fun n w _ => inferInstance

instance (id : NodeId) : Agree g F (callNamed rec id) (callNamed rec id) := by
  unfold callNamed
  refine node_bind fun n w _ => node_bind fun cn cw _ => bind fun ready => ite inferInstance (bind fun r => ?_)
  split
  · refine bind fun sym => ?_
    split
    · infer_instance
    · infer_instance
    · exact seq (reportAs (by rfl) _) fun _ => inferInstance
    · infer_instance
  · infer_instance

/-! ## Calls through a member -/

omit [Agrees g rec] in
instance (typeSym : SymbolId) (name : String) : Agree g F (methodSet? typeSym name) (methodSet? typeSym name) := by
  unfold methodSet?
  refine scopes_bind fun t t' ht => ?_
  have hns : (do
      let ts ← t'.symbol? typeSym
      (← t'.scope? ts.scope).nameSpace? ts.name) = (do
      let ts ← t.symbol? typeSym
      (← t.scope? ts.scope).nameSpace? ts.name) := by
    rw [ht.symbol?]
    exact Option.bind_congr fun ts _ => ht.nameSpace? ts.scope ts.name
  dsimp only
  rw [hns]
  split
  · infer_instance
  · simp only [ht.symbol?, ht.boundIn?]
    infer_instance

instance (id : NodeId) (args : CallArgs) : Agree g F (callField rec id args) (callField rec id args) := by
  unfold callField
  exact node_bind fun n w _ => inferInstance

theorem callMember_agree {s : Analysis} {v : View} {id : NodeId} {n : Node} (hn : s.result.tree.get? id = some n)
    (hcallee : n.a ∈ F) : AgreeFrom g F s v (callMember rec id) (callMember rec id) := by
  unfold callMember
  refine .node_bind fun m _ hm _ => ?_
  obtain rfl : n = m := Option.some.inj (hn.symm.trans hm)
  suffices hcall : Agree g F _ _ from hcall.agrees s v
  refine node_bind fun _ _ _ => bind fun recv => bind fun args => ite inferInstance ?_
  refine bind fun _ => ite inferInstance (bind fun rt => ?_)
  refine node_bind_named fun cn ⟨name, path, as⟩ _ hname => ?_
  obtain rfl : name = cn.name := hname hcallee
  dsimp only
  refine ite inferInstance (bind fun set? => ?_)
  split
  · infer_instance
  · refine bind fun (found, sel) => ?_
    dsimp only
    split
    · infer_instance
    · infer_instance
    · infer_instance
    · exact bind fun text => seq (reportSelection_agree ..) fun _ => inferInstance

theorem resolveCall_agree (id : NodeId) : Agree g F (resolveCall rec id) (resolveCall rec id) := by
  unfold resolveCall
  refine ⟨fun s v => .node_bind fun n w hn _ => .node_bind_written fun cn _ _ _ => ?_⟩
  dsimp only
  split
  · exact .inst
  · rename_i hk
    exact callMember_agree hn (List.mem_append_left _ (Node.mem_written_member hk))
  · exact .inst

end Resolver

end Agree

end TreeCompiler.Analysis
