import TreeCompiler.Analysis.Call
import TreeCompiler.Proofs.Analysis.Instance

/-!
# Overloads and calls

An expression in a slot may be exchanged for a cast of it. Of the nodes with lists only calls exchange their items, so the
steps of a call walk from states in which its node is one.
-/

namespace TreeCompiler.Analysis

variable {α β : Type}

/-- The kind of a node is one of several. -/
def OfKinds (kinds : List NodeKind) (id : NodeId) (s : Analysis) : Prop :=
  ∃ n, s.result.tree.get? id = some n ∧ n.kind ∈ kinds

/-- A list of kinds that an operator does not leave when it becomes a call. -/
theorem ofKinds_lasting {kinds : List NodeKind} (h : .binary ∈ kinds ∨ .unary ∈ kinds → .call ∈ kinds) (id : NodeId) :
    Lasting (OfKinds kinds id) := by
  rintro s s' - hsteps ⟨n, hn, hk⟩
  obtain ⟨n', hn', g⟩ := hsteps.trees id n hn
  refine ⟨n', hn', ?_⟩
  rcases g.kind with e | ⟨e, hc⟩
  · rw [e]
    exact hk
  · rw [hc]
    rcases e with e | e
    · exact h (.inl (e ▸ hk))
    · exact h (.inr (e ▸ hk))

theorem call_lasting (id : NodeId) : Lasting (OfKinds [.call] id) := ofKinds_lasting (by decide) id

/-! ## Slots -/

/-- The expression in the slot may be exchanged. -/
def Exchanges (slot : Slot) (s : Analysis) : Prop := ∀ owner i, slot = .item owner i → OfKinds [.call] owner s

instance (s : Slot) : Walks (slotValue s) := by
  unfold slotValue
  split <;> infer_instance

/-- The expression in a slot is exchanged for itself or for a cast of it. -/
theorem setSlot_from {s s₁ s₂ : Analysis} {slot : Slot} {v w : NodeId} (hslot : Exchanges slot s)
    (hv : slotValue slot s = .ok v s₁) (h : Recast s₁.result.tree s₂.result.tree w v) : WalksFrom s₂ (setSlot slot w) := by
  cases slot with
  | a owner =>
    obtain ⟨n, s', hn, hr⟩ := bind_ok hv
    obtain ⟨rfl, hn⟩ := node_ok hn
    cases hr
    exact h.walks hn (.of_same rfl rfl rfl rfl rfl) (.inr ⟨rfl, rfl⟩) (.inl rfl)
  | b owner =>
    obtain ⟨n, s', hn, hr⟩ := bind_ok hv
    obtain ⟨rfl, hn⟩ := node_ok hn
    cases hr
    exact h.walks hn (.of_same rfl rfl rfl rfl rfl) (.inl rfl) (.inr ⟨rfl, rfl⟩)
  | item owner i =>
    obtain ⟨n, s', hn, hr⟩ := bind_ok hv
    obtain ⟨rfl, hn⟩ := node_ok hn
    cases hr
    obtain ⟨m, hm, hk⟩ := hslot owner i rfl
    cases hn.symm.trans hm
    have hop : n.kind ∈ operationKinds := by
      rw [List.mem_singleton.1 hk]
      decide
    exact h.walks hn ⟨.inl rfl, rfl, rfl, .inl rfl, fun hno => absurd hop hno⟩ (.inl rfl) (.inl rfl)

theorem castSlot_from {s : Analysis} {slot : Slot} (h : Exchanges slot s) (t : TypeId) : WalksFrom s (castSlot slot t) := by
  unfold castSlot
  exact .bind .inst fun v s₁ hv _ => .bind .inst fun c s₂ hc _ => setSlot_from h hv (castNode_ok hc)

theorem coerceSlot_from {s : Analysis} {slot : Slot} (h : Exchanges slot s) (want : TypeId) (code : Code) :
    WalksFrom s (coerceSlot slot want code) := by
  unfold coerceSlot
  exact .bind .inst fun v s₁ hv _ => .bind .inst fun c s₂ hc _ => setSlot_from h hv (coerce_ok hc)

section

variable (id : NodeId) (t : TypeId) (code : Code)

instance : Walks (castSlot (.a id) t) := ⟨fun _ => castSlot_from (fun _ _ h => by cases h) t⟩

instance : Walks (castSlot (.b id) t) := ⟨fun _ => castSlot_from (fun _ _ h => by cases h) t⟩

instance : Walks (coerceSlot (.a id) t code) := ⟨fun _ => coerceSlot_from (fun _ _ h => by cases h) t code⟩

instance : Walks (coerceSlot (.b id) t code) := ⟨fun _ => coerceSlot_from (fun _ _ h => by cases h) t code⟩

end

/-- The items among the arguments are items of the node `call`. -/
def ActualsOf (call : NodeId) (acts : List Actual) : Prop :=
  ∀ act ∈ acts, ∀ owner i, act.slot = some (.item owner i) → owner = call

theorem castActuals_under {call : NodeId} {acts : List Actual} (h : ActualsOf call acts) (params : List TypeId)
    (casts : List Nat) : WalksUnder (OfKinds [.call] call) (castActuals acts params casts) := by
  unfold castActuals
  induction casts with
  | nil => exact fun s _ => .pure _
  | cons c casts ih =>
    refine .seq (call_lasting call) ?_ fun _ => ih
    dsimp only
    split
    · rename_i slot t hslot _
      obtain ⟨act, hact, hs⟩ := Option.bind_eq_some_iff.1 hslot
      refine fun s hs' => castSlot_from (fun owner i he => ?_) t
      rw [h act (List.mem_of_getElem? hact) owner i (hs.trans (congrArg some he))]
      exact hs'
    · exact .of_walks

/-! ## Overloads -/

namespace Walks

section

variable (rec : Resolver) [ResolverWalks rec]

instance (gen : SymbolId) (tpl : Template) (explicit : Option (List TypeId)) (acts : List Actual) :
    Walks (instanceFor rec gen tpl explicit acts) := by
  have found (args : Option (List TypeId)) : Walks (do
      let some args := args | return .error .derivation
      let inst ← instantiate rec gen args
      if (← symbol inst).rejected then return .error .whereClause
      return .ok inst : AnalysisM (Except Rejection SymbolId)) := by
    split <;> infer_instance
  unfold instanceFor
  dsimp only
  split <;> exact bind found

instance (q : Query) (explicit : Option (List TypeId)) (acts : List Actual) (spread : Bool) (tally : Tally)
    (c : SymbolId) : Walks (weigh rec q explicit acts spread tally c) := by
  have weighed (sym : Symbol) (fn : Except Rejection SymbolId) : Walks (match fn with
      | .error r => pure (tally.reject c r)
      | .ok fn => do
        if !(← paramTypes rec fn) then return { tally with pending := true }
        let info ← funcInfo fn
        match (← types).classify info.params info.variadic acts spread with
        | .error r => return tally.reject fn r
        | .ok (cls, casts) =>
          return { tally with ranked := tally.ranked ++ [(⟨cls, sym.isGeneric⟩, { fn, casts })] } : AnalysisM Tally) := by
    split
    · infer_instance
    · refine bind fun ready => ite inferInstance (bind fun info => bind fun t => ?_)
      split <;> infer_instance
  unfold weigh
  refine bind fun tab => ite inferInstance (bind fun sym => ?_)
  dsimp only
  split <;> exact bind (weighed sym)

instance (q : Query) (cands : List SymbolId) (explicit : Option (List TypeId)) (acts : List Actual) (spread : Bool) :
    Walks (selectOverload rec q cands explicit acts spread) := by
  unfold selectOverload; infer_instance

end

instance (fn : SymbolId) : Walks (signatureText fn) := by unfold signatureText; infer_instance

instance (fns : List SymbolId) : Walks (candidateNotes fns) := by unfold candidateNotes; infer_instance

instance (span : Span) (name : String) (rejected : List (SymbolId × Rejection)) (acts : List Actual) :
    Walks (reportRejected span name rejected acts) := by
  unfold reportRejected
  dsimp only
  infer_instance

instance (id : NodeId) (name : String) (sel : Selection) (acts : List Actual) :
    Walks (reportSelection id name sel acts) := by
  unfold reportSelection
  refine bind fun span => ?_
  split <;> infer_instance

/-! ## Calls -/

instance (id : NodeId) (n : Node) (inner : TypeId) : Walks (expand id n inner) := by
  unfold expand
  refine bind fun t => ?_
  dsimp only
  split <;> infer_instance

section

variable (rec : Resolver) [ResolverWalks rec]

instance (call : NodeId) (args : CallArgs) (i : Nat) : Walks (addActual rec call args i) := by
  unfold addActual
  refine bind fun n => bind fun an => ite ?_ (bind fun inner => bind fun r => ite inferInstance ?_)
  · infer_instance
  · refine bind fun n => bind fun found => ?_
    split <;> infer_instance

instance (call : NodeId) : Walks (callActuals rec call) := by unfold callActuals; infer_instance

omit [ResolverWalks rec] in
instance (id : NodeId) (state : ArgState) : Walks (waitForArgs id state) := by unfold waitForArgs; infer_instance

instance (list : List NodeId) : Walks (touchArgs rec list) := by unfold touchArgs; infer_instance

omit [ResolverWalks rec] in
instance (id : NodeId) (sym : SymbolId) : Walks (bindNode id sym) := noteResult fun _ => ⟨rfl, rfl, rfl, rfl, rfl⟩

omit [ResolverWalks rec] in
instance (id : NodeId) (info : CallInfo) : Walks (setCall id info) := noteResult fun _ => ⟨rfl, rfl, rfl, rfl, rfl⟩

instance (id : NodeId) : Walks (abandonCall rec id) := by unfold abandonCall; infer_instance

omit [ResolverWalks rec] in
instance (typeSym : SymbolId) (name : String) : Walks (methodSet? typeSym name) := by
  unfold methodSet?
  refine bind fun tab => ?_
  dsimp only
  split <;> infer_instance

end

end Walks

section

variable (rec : Resolver) [ResolverWalks rec]

theorem addActual_ensures {s : Analysis} {call : NodeId} {args : CallArgs} (h : ActualsOf call args.acts) (i : Nat) :
    Ensures s (addActual rec call args i) fun args' _ => ActualsOf call args'.acts := by
  unfold addActual
  refine .bind fun n s₁ _ _ => .bind fun an s₂ _ _ => .ite (fun _ => ?_) fun _ => ?_
  · refine .bind fun t s₃ _ _ => .bind fun ready s₄ _ _ => .bind fun m s₅ _ _ => .pure ?_
    refine List.forall_mem_append.2 ⟨h, ?_⟩
    simp only [List.mem_singleton, forall_eq, Option.some.injEq, Slot.item.injEq]
    rintro owner j ⟨rfl, -⟩
    rfl
  · refine .bind fun inner s₃ _ _ => .bind fun r s₄ _ _ => .ite (fun _ => .pure h) fun _ => .bind fun m s₅ _ _ => ?_
    refine .bind fun found s₆ _ _ => ?_
    split
    · exact .pure h
    · refine .pure (List.forall_mem_append.2 ⟨h, ?_⟩)
      simp only [List.mem_map]
      rintro act ⟨t, -, rfl⟩ owner j hslot
      cases hslot

theorem addActuals_ensures {s : Analysis} {call : NodeId} {args : CallArgs} (h : ActualsOf call args.acts)
    (items : List Nat) : Ensures s (items.foldlM (addActual rec call) args) fun args' _ => ActualsOf call args'.acts := by
  induction items generalizing args s with
  | nil => exact .pure h
  | cons i items ih =>
    rw [List.foldlM_cons]
    intro hs
    exact Ensures.bind (fun args' s₁ h₁ _ => ih (addActual_ensures rec h i hs args' s₁ h₁)) hs

theorem callActuals_ensures (call : NodeId) (s : Analysis) :
    Ensures s (callActuals rec call) fun args _ => ActualsOf call args.acts := by
  unfold callActuals
  exact .bind fun n s₁ _ _ => addActuals_ensures rec (fun act hact => by cases hact) _

variable (id : NodeId)

theorem finishCall_under (callee : NodeId) (c : Candidate) {acts : List Actual} (h : ActualsOf id acts) (method : Bool) :
    WalksUnder (OfKinds [.call] id) (finishCall rec id callee c acts method) := by
  have hJ := call_lasting id
  unfold finishCall
  refine .bind hJ fun ft => .bind hJ fun r => .ite (fun _ => .of_walks) fun _ => .bind hJ fun info => ?_
  exact .seq hJ (castActuals_under h _ _) fun _ => .of_walks

/-- What a call does with the selected candidate. -/
theorem callSelected_under (cands : List SymbolId) (callee : NodeId) (cn : Node) {args : CallArgs}
    (hargs : ActualsOf id args.acts) (explicit : Option (List TypeId)) : WalksUnder (OfKinds [.call] id) (do
      match ← selectOverload rec (← query id) cands explicit args.acts args.spread with
      | .pending => pendingOrFail id
      | .chosen c _ => finishCall rec id callee c args.acts false
      | sel =>
        reportSelection id cn.qualifiedName sel args.acts
        discard <| fail callee
        fail id : AnalysisM TypeId) := by
  have hJ := call_lasting id
  refine .bind hJ fun q => .bind hJ fun sel => ?_
  split
  · exact .of_walks
  · exact finishCall_under rec id callee _ hargs false
  · exact .of_walks

theorem callOverloads_under (cands : List SymbolId) : WalksUnder (OfKinds [.call] id) (callOverloads rec id cands) := by
  have hJ := call_lasting id
  unfold callOverloads
  refine .bind_ensures hJ (callActuals_ensures rec id) fun args hargs => ?_
  refine .ite (fun _ => .of_walks) fun _ => .bind hJ fun n => .bind hJ fun cn => ?_
  have chosen := callSelected_under rec id cands n.a cn hargs
  exact .ite (fun _ => .bind hJ chosen) fun _ => .bind hJ fun found => .bind hJ chosen

omit [ResolverWalks rec] in
theorem callTyped_under (ft : TypeId) {args : CallArgs} (hargs : ActualsOf id args.acts) :
    WalksUnder (OfKinds [.call] id) (callTyped id ft args) := by
  have hJ := call_lasting id
  unfold callTyped
  refine .bind hJ fun n => .bind hJ fun t => ?_
  split
  · refine .bind hJ fun tys => ?_
    split
    · exact .of_walks
    · exact .of_walks
    · exact .seq hJ (castActuals_under hargs _ _) fun _ => .of_walks
  · exact .of_walks
  · exact .of_walks

theorem callValue_under : WalksUnder (OfKinds [.call] id) (callValue rec id) := by
  have hJ := call_lasting id
  unfold callValue
  refine .bind hJ fun n => .bind hJ fun ft => .bind_ensures hJ (callActuals_ensures rec id) fun args hargs => ?_
  refine .ite (fun _ => .of_walks) fun _ => .bind hJ fun r => .ite (fun _ => .of_walks) fun _ => ?_
  exact callTyped_under id ft hargs

theorem callVariant_under (variant : SymbolId) : WalksUnder (OfKinds [.call] id) (callVariant rec id variant) := by
  have hJ := call_lasting id
  unfold callVariant
  refine .bind hJ fun found => .bind hJ fun n => .bind hJ fun _ => .bind hJ fun r => ?_
  refine .ite (fun _ => .of_walks) fun _ => .bind hJ fun n => ?_
  dsimp only
  split
  · exact .of_walks
  · refine .ite (fun _ => .of_walks) fun _ => .bind hJ fun an => .ite (fun _ => .of_walks) fun _ => ?_
    refine .bind hJ fun r => .ite (fun _ => .of_walks) fun _ => .seq hJ (fun s hs => ?_) fun _ => .of_walks
    refine coerceSlot_from (fun owner i he => ?_) _ _
    cases he
    exact hs

theorem callNamed_under : WalksUnder (OfKinds [.call] id) (callNamed rec id) := by
  have hJ := call_lasting id
  unfold callNamed
  refine .bind hJ fun n => .bind hJ fun cn => .bind hJ fun ready => .ite (fun _ => .of_walks) fun _ => ?_
  refine .bind hJ fun found => ?_
  split
  · refine .bind hJ fun sym => ?_
    split
    · exact callOverloads_under rec id _
    · exact callVariant_under rec id _
    · exact .of_walks
    · exact callValue_under rec id
  · exact .of_walks

theorem callField_under {args : CallArgs} (hargs : ActualsOf id args.acts) :
    WalksUnder (OfKinds [.call] id) (callField rec id args) := by
  have hJ := call_lasting id
  unfold callField
  refine .bind hJ fun n => .bind hJ fun ft => .bind hJ fun r => .ite (fun _ => .of_walks) fun _ => ?_
  exact callTyped_under id ft hargs

theorem callMember_under : WalksUnder (OfKinds [.call] id) (callMember rec id) := by
  have hJ := call_lasting id
  unfold callMember
  refine .bind hJ fun n => .bind hJ fun cn => .bind hJ fun recv => ?_
  refine .bind_ensures hJ (callActuals_ensures rec id) fun args hargs => ?_
  -- the receiver is no item of a list
  have hall : ActualsOf id ({ slot := some (.a n.a), type := recv } :: args.acts) := by
    refine List.forall_mem_cons.2 ⟨fun owner i he => ?_, hargs⟩
    cases he
  refine .ite (fun _ => .of_walks) fun _ => .bind hJ fun r => .ite (fun _ => .of_walks) fun _ => ?_
  refine .bind hJ fun rt => .bind hJ fun cn => .ite (fun _ => callField_under rec id hargs) fun _ => .bind hJ fun set => ?_
  split
  · exact callField_under rec id hargs
  · refine .bind hJ fun found => ?_
    split
    split
    · exact .of_walks
    · exact finishCall_under rec id _ _ hall true
    · exact callField_under rec id hargs
    · exact .of_walks

theorem resolveCall_under : WalksUnder (OfKinds [.call] id) (resolveCall rec id) := by
  have hJ := call_lasting id
  unfold resolveCall
  refine .bind hJ fun n => .bind hJ fun cn => ?_
  split
  · exact callNamed_under rec id
  · exact callMember_under rec id
  · exact callValue_under rec id

end

end TreeCompiler.Analysis
