import TreeCompiler.Proofs.Analysis.Slots
import TreeCompiler.Proofs.Analysis.Coverage

/-!
# Visible variables have different slots

The declaration pass hands out the slots of a function's frame, and takes them back at the end of each block. A later variable
may get a slot that an earlier one had, but no node sees both.

* `declareKind_lays`, `declareWith_lays` : one node, and the whole pass by induction on its depth;
* `OpensBlock` : what the pass does in a block;
* `Tree.declarePass_slots` : after the pass.
-/

namespace TreeCompiler

namespace Analysis

open ScopeTable (Adds Allotted Apart Bare Builds Seen Spaces)

variable {t : Tree} {s s' s₁ s₂ : Analysis} {b k k₁ : Nat}

/-! ## The node of a block -/

/-- When a block ends, it becomes the scope of its node. -/
theorem Lays.of_block {id : NodeId} {s₃ : Analysis} (hs : Slotted t s) (hc : Current b s id) (he : Enters t s s₁)
    (h : Lays t (s.seq + 1) k₁ s₁ s₂) (hl : Leaves s s₂ s₃) :
    Lays t b k s { s₃ with nodeScope := s₃.nodeScope.insert id s₁.scope } := by
  have l : Lays t (s.seq + 1) k s s₃ := h.of_child hs he hl
  have hs₁ := he.slotted hs
  have hs₂ := h.slotted
  have hin₂ : s₁.scope ≤ s₂.result.scopes.scopes.size :=
    Nat.le_trans hs₁.scope (ScopeTable.grows_size h.builds.grows)
  have hchain₁ : s₃.result.scopes.chain s₁.scope = s₁.result.scopes.chain s₁.scope :=
    (hl.builds.chain hs₂.ordered hin₂).trans (h.builds.chain hs₁.ordered hs₁.scope)
  have hchain : s₃.result.scopes.chain s₁.scope = s₁.scope :: s₃.result.scopes.chain s.scope := by
    rw [hchain₁, he.chain hs, l.builds.chain hs.ordered hs.scope]
  -- either the node has kept its place, and sees nothing of the block, or it was come to again inside
  have hnode : ∃ q, s₃.nodeSeq.get? id = some q ∧ b ≤ q ∧ q ≤ s₃.seq ∧ s₃.result.scopes.Apart s₁.scope q := by
    rcases h.nodes id with ⟨-, hq⟩ | ⟨sc, q, hx, hq, hle, hsub⟩
    · rw [← hl.nodeSeq, he.nodeSeq, hc.seq] at hq
      refine ⟨s.seq, hq, hc.le, l.seq, (l.slotted.apart s.seq).mono fun off v sym hv => ?_⟩
      refine ⟨hv.here, hv.frame, ?_, hv.early⟩
      rcases l.added v sym off hv.here hv.frame with ⟨old, hold⟩ | ⟨hlate, -⟩
      · have hst := (l.builds.places v old sym hold hv.here).1 ▸ hv.frame
        have hin := hv.around
        rw [hchain₁, (l.builds.symbol hold hv.here).scope] at hin
        rw [l.scope, l.builds.chain hs.ordered hs.scope, (l.builds.symbol hold hv.here).scope]
        exact he.around hs hold hst hin
      · exact absurd hv.early (Nat.not_le_of_lt hlate)
    · obtain ⟨-, q', hq', hqs, hap⟩ := l.slotted.nodes id sc (hl.nodeScope ▸ hx)
      cases (hl.nodeSeq ▸ hq).symm.trans hq'
      have hle' : b ≤ q := Nat.le_trans hc.le (Nat.le_of_succ_le hle)
      refine ⟨q, hq', hle', hqs, hap.mono fun off v sym hv => ⟨hv.here, hv.frame, ?_, hv.early⟩⟩
      have hin := hv.around
      rw [hl.builds.chain hs₂.ordered hin₂] at hin
      rw [hl.builds.chain hs₂.ordered (hs₂.nodes id sc hx).1]
      exact hsub hin
  obtain ⟨q, hq, hbq, hqs, hap⟩ := hnode
  have lb := l.weaken (Nat.le_succ_of_le hc.le)
  refine ⟨⟨lb.slotted.tree, lb.slotted.ordered, lb.slotted.spaces, lb.slotted.scope, fun x sc hx => ?_, lb.slotted.frames,
    lb.slotted.params, lb.slotted.tops, lb.slotted.apart, lb.slotted.args⟩, lb.scope, lb.seq, lb.builds, lb.added, fun x => ?_⟩
  · rw [IdMap.get?_insert] at hx
    split at hx
    · rename_i hxid
      cases hx
      exact ⟨Nat.le_trans hin₂ (ScopeTable.grows_size hl.builds.grows), q, hxid ▸ hq, hqs, hap⟩
    · exact lb.slotted.nodes x sc hx
  · dsimp only
    rw [IdMap.get?_insert]
    split
    · rename_i hxid
      refine .inr ⟨s₁.scope, q, rfl, hxid ▸ hq, hbq, ?_⟩
      rw [hchain]
      exact List.subset_cons_self ..
    · exact lb.nodes x

/-! ## One node -/

theorem LaysFrom.of_plain {α : Type} {m : AnalysisM α} (h : Slotted t s → ∀ a s', m s = .ok a s' → Plain t s s') :
    LaysFrom t b k s m :=
  fun hs _ a s' hm => (h hs a s' hm).lays hs

theorem LaysFrom.inLoop {step : AnalysisM Unit} (h : ∀ s, LaysFrom t b k s step) (label : String) :
    LaysFrom t b k s (inLoop label step) := by
  have enter : RunsPlain t (modify fun s => { s with loops := label :: s.loops }) :=
    RunsPlain.note fun _ => ⟨rfl, rfl, rfl, rfl, rfl, rfl⟩
  have leave : RunsPlain t (modify fun s => { s with loops := s.loops.tail }) :=
    RunsPlain.note fun _ => ⟨rfl, rfl, rfl, rfl, rfl, rfl⟩
  unfold Analysis.inLoop
  exact .bind fun _ s₁ _ _ => .seq (Nat.le_refl _) (h s₁) fun _ s₂ _ _ => .plain _

theorem LaysFrom.forIn {α : Type} {f : α → PUnit → AnalysisM (ForInStep PUnit)} (xs : List α)
    (h : ∀ x ∈ xs, ∃ m : AnalysisM Unit, f x ⟨⟩ = (m >>= fun _ => pure (.yield ⟨⟩)) ∧ ∀ s, LaysFrom t b k s m) :
    ∀ s, LaysFrom t b k s (forIn xs ⟨⟩ f) := by
  induction xs with
  | nil =>
    intro s
    rw [List.forIn_nil]
    exact .plain _
  | cons x xs ih =>
    obtain ⟨m, hm, hl⟩ := h x (List.mem_cons_self ..)
    intro s
    rw [List.forIn_cons, hm, bind_assoc]
    exact .seq (Nat.le_refl _) (hl s) fun _ s₁ _ _ => ih (fun y hy => h y (List.mem_cons_of_mem _ hy)) s₁

section Nodes

variable {self : NodeId → AnalysisM Unit} (hself : ∀ c s b, LaysFrom t b 0 s (self c))
include hself

theorem declareNested_lays (c : NodeId) (s : Analysis) : LaysFrom t b 0 s (declareNested self c) := by
  unfold declareNested
  refine .ite (fun _ => .plain _) fun _ => .bind fun tree s₁ _ _ => .ite (fun _ => hself c s₁ b) fun _ => ?_
  exact .seq (Nat.le_refl _) (.inBlock fun _ span => hself c _ b) fun _ s₂ _ _ => .plain _

/-- What is declared in the block of a loop over a collection. -/
def eachStep (self : NodeId → AnalysisM Unit) (id : NodeId) (n : Node) : AnalysisM Unit := do
  setDecl id (← declareLocal id n.name)
  if n.bind ≠ "" then
    let key ← declareLocal id n.bind
    modifyResult fun r => { r with keys := r.keys.insert id key }
  inLoop n.label (declareNested self n.b)

theorem eachStep_lays {id : NodeId} (hk : t.kind id ≠ .param) (hc : Counted b s id) (hu : Unseen s) (n : Node) :
    LaysFrom t b 0 s (eachStep self id n) := by
  have note (key : SymbolId) : RunsPlain t (modifyResult fun r => { r with keys := r.keys.insert id key }) :=
    RunsPlain.noteResult fun _ => ⟨rfl, rfl⟩
  have hbody (s : Analysis) : LaysFrom t b 0 s (inLoop n.label (declareNested self n.b)) :=
    .inLoop (declareNested_lays hself n.b) n.label
  unfold eachStep
  refine .of_start fun hs _ => .seq (Nat.le_refl _) (declareLocal_lays hk hc hu n.name) fun sym s₁ h₁ l₁ => ?_
  have hc₁ := l₁.counted hc
  have hu₁ := hu.of_builds hs l₁.builds l₁.scope (declareLocal_nodeScope h₁)
  refine .bind fun _ s₂ _ p₂ => ?_
  have hc₂ : Counted b s₂ id := (p₂.lays (b := b) (k := 0) l₁.slotted).counted hc₁
  have hu₂ := hu₁.of_builds l₁.slotted p₂.table.builds p₂.scope p₂.nodeScope
  refine .ite (fun _ => ?_) fun _ => hbody s₂
  exact .seq (Nat.le_refl _) (declareLocal_lays hk hc₂ hu₂ n.bind) fun key s₃ _ _ => .bind fun _ s₄ _ _ => hbody s₄

/-- What is declared in the block of an arm. -/
def armStep (self : NodeId → AnalysisM Unit) (id : NodeId) (n : Node) : AnalysisM Unit := do
  if n.bind ≠ "" then setDecl id (← declareLocal id n.bind)
  declareNested self n.a

theorem armStep_lays {id : NodeId} (hk : t.kind id ≠ .param) (hc : Counted b s id) (hu : Unseen s) (n : Node) :
    LaysFrom t b 0 s (armStep self id n) := by
  unfold armStep
  refine .ite (fun _ => ?_) fun _ => declareNested_lays hself n.a s
  exact .seq (Nat.le_refl _) (declareLocal_lays hk hc hu n.bind) fun sym s₁ _ _ => .bind fun _ s₂ _ _ =>
    declareNested_lays hself n.a s₂

/-- What is declared in the block of a loop that counts. -/
def loopStep (self : NodeId → AnalysisM Unit) (n : Node) : AnalysisM Unit := do
  self n.a
  self n.b
  self n.c
  inLoop n.label (declareNested self n.d)

theorem loopStep_lays (n : Node) (s : Analysis) : LaysFrom t b 0 s (loopStep self n) := by
  unfold loopStep
  refine .seq (Nat.le_refl _) (hself n.a s b) fun _ s₁ _ _ => .seq (Nat.le_refl _) (hself n.b s₁ b) fun _ s₂ _ _ => ?_
  exact .seq (Nat.le_refl _) (hself n.c s₂ b) fun _ s₃ _ _ => .inLoop (declareNested_lays hself n.d) n.label

theorem declareArm_lays {id : NodeId} (hk : t.kind id ≠ .param) (s : Analysis) : LaysFrom t b 0 s (declareArm self id) := by
  unfold declareArm
  refine .of_start fun _ hb => .bind fun n s₁ _ p₁ => .get_bind ?_
  refine .seq (Nat.le_refl _) (.setScope id rfl) fun _ s₂ hset _ => ?_
  have hc₂ : Counted b s₂ id := counted_setScope (by rw [p₁.seq]; exact hb) hset
  have hc (span : Span) : Counted b (opened s₂ span) id := hc₂
  exact .seq (Nat.le_refl _) (.inBlock fun hs span => armStep_lays hself hk (hc span) (unseen_opened hs span) n)
    fun _ s₃ _ _ => .plain _

theorem declareMatch_lays {id : NodeId} {n : Node} (hk : ∀ c ∈ n.list, t.kind c ≠ .param) (s : Analysis) :
    LaysFrom t b 0 s (declareMatch self id n) := by
  have mark (c : NodeId) : RunsPlain t (modify fun s => { s with matchOf := s.matchOf.insert c id }) :=
    RunsPlain.note fun _ => ⟨rfl, rfl, rfl, rfl, rfl, rfl⟩
  have harm (c : NodeId) (hc : c ∈ n.list) (s : Analysis) : LaysFrom t b 0 s (do
      discard <| node c
      modify fun s => { s with matchOf := s.matchOf.insert c id }
      declareArm self c) :=
    .bind fun _ s₁ _ _ => .bind fun _ s₂ _ _ => declareArm_lays hself (hk c hc) s₂
  unfold declareMatch
  refine .seq (Nat.le_refl _) (hself n.a s b) fun _ s₁ _ _ => .seq (Nat.le_refl _) (.forIn n.list (fun c hc => ?_) s₁)
    fun _ s₂ _ _ => .plain _
  exact ⟨_, by simp only [bind_assoc], harm c hc⟩

theorem declareForeach_lays {id : NodeId} (hk : t.kind id ≠ .param) (hc : Current b s id) (n : Node) :
    LaysFrom t b 0 s (declareForeach self id n) := by
  unfold declareForeach
  refine .seq (Nat.le_refl _) (hself n.a s b) fun _ s₁ _ l₁ => ?_
  have hc₁ (span : Span) : Counted b (opened s₁ span) id := l₁.counted hc.counted
  exact .seq (Nat.le_refl _) (.inBlock fun hs span => eachStep_lays hself hk (hc₁ span) (unseen_opened hs span) n)
    fun _ s₂ _ _ => .plain _

theorem declareFor_lays (id : NodeId) (n : Node) (s : Analysis) : LaysFrom t b 0 s (declareFor self id n) := by
  unfold declareFor
  exact .seq (Nat.le_refl _) (.inBlock fun _ span => loopStep_lays hself n _) fun _ s₁ _ _ => .plain _

/-! ### Blocks and namespaces -/

theorem declareBlock_lays {id : NodeId} (hc : Current b s id) (n : Node) : LaysFrom t b k s (declareBlock self id n) := by
  intro hs _ u s' h
  unfold declareBlock at h
  obtain ⟨block, s₁, h₁, h⟩ := bind_ok h
  cases h
  obtain ⟨rfl, span, s₂, hrun, rfl⟩ := inBlock_ok hs h₁
  have he := enters_opened hs span
  have hl : Lays t (s.seq + 1) 0 (opened s span) s₂ :=
    children_lays hself n.list _ (he.slotted hs) (Nat.le_refl _) ⟨⟩ s₂ hrun
  exact hl.of_block hs hc he (leaves_block hs hl)

theorem declareNamespace_lays (n : Node) (s : Analysis) : LaysFrom t b k s (declareNamespace self n) := by
  intro hs hb u s' h
  unfold declareNamespace at h
  obtain ⟨parent, s₀, h₀, h⟩ := bind_ok h
  cases h₀
  obtain ⟨ns, s₁, h₁, h⟩ := bind_ok h
  obtain ⟨sc, hsc, hkind, hparent⟩ := ScopeTable.openNamespace_scope? hs.spaces hs.scope n.name n.span
  cases h₁
  obtain ⟨s₂, hrun, rfl⟩ := withScope_ok h
  have he := (⟨fun h => h, .openNamespace hs.scope n.name n.span, rfl, rfl, rfl, sc, hsc, hparent, .inr hkind⟩ : Enters t s
    { s with
      result := { s.result with scopes := (s.result.scopes.openNamespace s.scope n.name n.span).2 }
      scope := (s.result.scopes.openNamespace s.scope n.name n.span).1 })
  have hl := children_lays hself (b := b) n.list _ (he.slotted hs) hb ⟨⟩ s₂ hrun
  refine hl.of_child hs he (he.leaves hl (.inl ?_) s₂.loops)
  rw [ScopeTable.funcScope_eq (he.slotted hs).ordered hsc, hkind]
  rfl

/-! ### Declarations -/

/-- The name of a variable is bound, and its children are declared unless it is generic. -/
theorem enterLet_lays {id : NodeId} {n : Node} {sym : Symbol} (h : LaysFrom t b 0 s (bindSymbol sym)) :
    LaysFrom t b 0 s (do
      match ← bindSymbol sym with
      | .error prev => reportRedeclared n.name n.span prev
      | .ok symId => do
        setDecl id symId
        if n.isGeneric then return
        if (Attrs.ofFlags n.flags).has .static && (← inFunction) then
          modifyResult fun r => { r with statics := r.statics ++ [{ symbol := symId, init := n.b }] }
        self n.a
        self n.b) := by
  have defer (symId : SymbolId) :
      RunsPlain t (modifyResult fun r => { r with statics := r.statics ++ [{ symbol := symId, init := n.b }] }) :=
    RunsPlain.noteResult fun _ => ⟨rfl, rfl⟩
  have parts (s : Analysis) : LaysFrom t b 0 s (do self n.a; self n.b) :=
    .seq (Nat.le_refl _) (hself n.a s b) fun _ s₁ _ _ => hself n.b s₁ b
  refine .seq (Nat.le_refl _) h fun r s₁ _ _ => ?_
  cases r with
  | error prev => exact .plain _
  | ok symId =>
    refine .bind fun _ s₂ _ _ => .ite (fun _ => .plain _) fun _ => .bind fun inside s₃ _ _ => ?_
    exact .ite (fun _ => .bind fun _ s₄ _ _ => parts s₄) fun _ => parts s₃

theorem declareLet_lays {id : NodeId} (hk : t.kind id ≠ .param) (hc : Current b s id) (n : Node) :
    LaysFrom t b 0 s (declareLet self id n) := by
  have bare {sym : Symbol} (hst : ∀ off, sym.storage ≠ .frame off) (hdecl : sym.decl = id) (s : Analysis) :
      LaysFrom t b 0 s (bindSymbol sym) := bindBare_lays ⟨hst, hdecl ▸ hk⟩
  unfold declareLet
  refine .of_start fun hs _ => .bind fun name s₁ _ p₁ => .ite (fun _ => ?_) fun _ => ?_
  · exact enterLet_lays hself (bare (fun _ => Storage.noConfusion) rfl s₁)
  have hc₁ := p₁.current hs hc
  refine .newStorage (fun s₂ slot _ => .bind fun inside s₃ _ _ => ?_) fun s₂ off hstatic hs₁ hfree hs₂ => ?_
  · refine .ite (fun _ => .bind fun seq s₄ _ _ => ?_) fun _ => .bind fun seq s₄ _ _ => ?_
    all_goals exact enterLet_lays hself (bare (fun _ => Storage.noConfusion) rfl s₄)
  · -- the slot is that of a variable whose node has come last
    refine .bind fun inside s₃ h _ => ?_
    obtain ⟨rfl, rfl⟩ := inFunction_ok h
    refine .ite (fun _ => .bind fun seq s₄ hseq _ => ?_) fun hnot => ?_
    · cases hseq
      have hbuilds : Builds (s₁.result.scopes.funcScope s₁.scope) s₁.result.scopes s₃.result.scopes := by
        rw [hs₂]
        exact withSlot_builds
      have hlate : Late s₃ s₁.seq := hc₁.late.of_builds hs₁ hbuilds (by rw [hs₂]) (by rw [hs₂]) (by rw [hs₂])
      have hplace : (s₃.nodeSeq.get? id).getD 0 = s₁.seq := by
        rw [hs₂]
        exact congrArg (·.getD 0) hc₁.seq
      refine enterLet_lays hself ((takes_slot hfree rfl rfl rfl hk ?_).bindsHere ?_ (hfree.lt_argOffset 0))
      · dsimp only
        rw [hplace]
        exact hlate
      · dsimp only
        rw [hplace]
        exact hc₁.le
    · refine absurd ?_ hnot
      rw [hstatic, decide_eq_true hfree.inFunction]
      rfl

theorem enterCandidate_lays (ht : t.Formed) {id : NodeId} {n : Node} (hn : t.get? id = some n) (hk : n.kind = .func)
    {sym : Symbol} (hst : ∀ off, sym.storage ≠ .frame off) (hdecl : sym.decl = id) (s : Analysis) : LaysFrom t b 0 s (do
      let s ← get
      match s.result.scopes.declareCandidate s.scope sym with
      | .error prev => reportRedeclared n.name n.span prev
      | .ok (symId, scopes) => do
        modifyResult fun r => { r with scopes, funcs := r.funcs.insert id symId }
        if !n.isGeneric then declareFuncBody self id symId) := by
  have hbare : Bare t sym := ⟨hst, by simp [hdecl, Tree.kind, hn, hk]⟩
  refine .get_bind ?_
  split
  · exact .plain _
  · rename_i symId scopes hcand
    refine .seq (Nat.le_refl _) (.of_plain fun _ a s₁ h₁ => ?_) fun _ s₁ h₁ _ => .ite (fun _ => ?_) fun _ => .plain _
    · cases h₁
      exact ⟨fun h => h, .declareCandidate hcand hbare, rfl, rfl, rfl, rfl⟩
    · cases h₁
      obtain ⟨-, f, hf, -, hd⟩ := ScopeTable.symbol?_declareCandidate hcand
      exact declareFuncBody_lays hself ht hn hk ⟨f, hf, hd.trans hdecl⟩

theorem declareFunc_lays (ht : t.Formed) {id : NodeId} {n : Node} (hn : t.get? id = some n) (hk : n.kind = .func)
    (s : Analysis) : LaysFrom t b 0 s (declareFunc self id n) := by
  unfold declareFunc
  refine .bind fun _ s₁ _ _ => .ite (fun _ => .bind fun _ s₂ _ _ => ?_) fun _ => .bind fun _ s₂ _ _ => ?_
  all_goals exact enterCandidate_lays hself ht hn hk (fun _ => Storage.noConfusion) rfl s₂

theorem declareLiteral_lays (ht : t.Formed) {id : NodeId} {n : Node} (hn : t.get? id = some n) (hk : n.kind = .func)
    (s : Analysis) : LaysFrom t b 0 s (declareLiteral self id n) := by
  have note (fn : SymbolId) : RunsPlain t (modifyResult fun r => { r with funcs := r.funcs.insert id fn }) :=
    RunsPlain.noteResult fun _ => ⟨rfl, rfl⟩
  have hparam : t.kind id ≠ .param := by simp [Tree.kind, hn, hk]
  unfold declareLiteral
  refine .bind fun name s₁ _ _ => .get_bind (.seq (Nat.le_refl _) (.of_plain fun _ fn s₂ h₂ => ?_) fun fn s₂ h₂ _ => ?_)
  · cases h₂
    exact ⟨fun h => h, .addSymbol ⟨fun _ => Storage.noConfusion, hparam⟩, rfl, rfl, rfl, rfl⟩
  · cases h₂
    refine .bind fun _ s₃ h₃ _ => ?_
    cases h₃
    exact declareFuncBody_lays hself ht hn hk ⟨_, ScopeTable.symbol?_addSymbol_self .., rfl⟩

theorem declareReturn_lays (id : NodeId) (n : Node) (s : Analysis) : LaysFrom t b 0 s (declareReturn self id n) := by
  have record (fn : SymbolId) (info : FuncInfo) : RunsPlain t (modify fun s => { s with funcs := s.funcs.insert fn info }) :=
    RunsPlain.note fun _ => ⟨rfl, rfl, rfl, rfl, rfl, rfl⟩
  unfold declareReturn
  refine .get_bind (.ite (fun _ => .bind fun _ s₁ _ _ => hself n.a s₁ b) fun _ => .bind fun sc s₁ _ _ => ?_)
  dsimp only
  split
  · exact .bind fun _ s₂ _ _ => hself n.a s₂ b
  · exact hself n.a s₁ b

theorem declareTypeDecl_lays {id : NodeId} (hk : t.kind id ≠ .param) (n : Node) (s : Analysis) :
    LaysFrom t b 0 s (declareTypeDecl self id n) := by
  unfold declareTypeDecl
  refine .bind fun _ s₁ _ _ => .seq (Nat.le_refl _) (bindBare_lays ⟨fun _ => Storage.noConfusion, hk⟩) fun r s₂ _ _ => ?_
  cases r with
  | error prev => exact .plain _
  | ok sym => exact .bind fun _ s₃ _ _ => .ite (fun _ => hself n.a s₃ b) fun _ => .plain _

theorem declareVariant_lays {v : NodeId} (hk : t.kind v ≠ .param) (union : SymbolId) (ns : ScopeId) (attrs : Attrs)
    (tag : Nat) (s : Analysis) : LaysFrom t b 0 s (declareVariant self union ns attrs v tag) := by
  unfold declareVariant
  refine .bind fun vn s₁ _ _ => .get_bind (.seq (Nat.le_refl _) (.setScope v rfl) fun _ s₂ _ _ => ?_)
  refine .seq (Nat.le_refl _) (hself vn.a s₂ b) fun _ s₃ _ _ => .bind fun name s₄ _ _ => .bind fun tab s₅ htab _ => ?_
  cases htab
  split
  · rename_i r scopes hdecl
    refine .of_plain fun _ a s₆ h₆ => ?_
    cases h₆
    exact ⟨fun h => h, .declare hdecl ⟨fun _ => Storage.noConfusion, hk⟩, rfl, rfl, rfl, rfl⟩
  · exact .plain _

theorem declareUnion_lays {id : NodeId} (hk : t.kind id ≠ .param) {n : Node} (hv : ∀ v ∈ n.list, t.kind v ≠ .param)
    (s : Analysis) : LaysFrom t b 0 s (declareUnion self id n) := by
  unfold declareUnion
  refine .bind fun _ s₁ _ _ => .seq (Nat.le_refl _) (bindBare_lays ⟨fun _ => Storage.noConfusion, hk⟩) fun r s₂ _ _ => ?_
  cases r with
  | error prev => exact .plain _
  | ok sym =>
    refine .bind fun _ s₃ _ _ => .get_bind (.seq (Nat.le_refl _) (.of_plain fun hs a s₄ h₄ => ?_) fun ns s₄ _ _ => ?_)
    · cases h₄
      exact ⟨fun h => h, .openNamespace hs.scope n.name n.span, rfl, rfl, rfl, rfl⟩
    · refine .seq (Nat.le_refl _) (.forIn n.list.zipIdx (fun x hx => ?_) s₄) fun _ s₅ _ _ => .plain _
      have hx := hv x.1 (List.fst_mem_of_mem_zipIdx hx)
      exact ⟨declareVariant self sym ns (Attrs.ofFlags n.flags) x.1 x.2, rfl, declareVariant_lays hself hx sym ns _ x.2⟩

/-! ### Every kind -/

theorem declareKind_lays (ht : t.Formed) {id : NodeId} {n : Node} (hn : t.get? id = some n) (hc : Current b s id) :
    LaysFrom t b 0 s (declareKind self id n) := by
  have hkind : t.kind id = n.kind := by simp [Tree.kind, hn]
  have kind {k : NodeKind} (hk : n.kind = k) (hne : k ≠ .param) : t.kind id ≠ .param := by
    rw [hkind, hk]
    exact hne
  have part {k : NodeKind} (hk : n.kind.part? = some k) (hne : k ≠ .param) (c : NodeId) (hc : c ∈ n.list) :
      t.kind c ≠ .param := by
    obtain ⟨m, hm, hmk⟩ := (ht.get hn).has_part hk hc
    simpa [Tree.kind, hm, hmk] using hne
  have nested (c : NodeId) (s : Analysis) : LaysFrom t b 0 s (declareNested self c) := declareNested_lays hself c s
  unfold declareKind
  cases hk : n.kind
  case file => exact children_lays hself n.list s
  case nameSpace => exact declareNamespace_lays hself n s
  case importing => exact .plain _
  case block => exact declareBlock_lays hself hc n
  case letDecl => exact declareLet_lays hself (kind hk (by decide)) hc n
  case func => exact .ite (fun _ => declareLiteral_lays hself ht hn hk s) fun _ => declareFunc_lays hself ht hn hk s
  case typeDecl => exact declareTypeDecl_lays hself (kind hk (by decide)) n s
  case unionDecl =>
    exact declareUnion_lays hself (kind hk (by decide)) (part (k := .variant) (by rw [hk]; rfl) (by decide)) s
  case ifStmt =>
    refine .seq (Nat.le_refl _) (hself n.a s b) fun _ s₁ _ _ => .seq (Nat.le_refl _) (nested n.b s₁) fun _ s₂ _ _ => ?_
    exact nested n.c s₂
  case whileLoop => exact .seq (Nat.le_refl _) (hself n.a s b) fun _ s₁ _ _ => .inLoop (nested n.b) n.label
  case forLoop => exact declareFor_lays hself id n s
  case eachLoop => exact declareForeach_lays hself (kind hk (by decide)) hc n
  case matchStmt => exact declareMatch_lays hself (part (k := .matchArm) (by rw [hk]; rfl) (by decide)) s
  case breakStmt | continueStmt => exact .plain _
  case returnStmt => exact declareReturn_lays hself id n s
  case intLit | realLit | stringLit | boolLit => exact .plain _
  all_goals exact children_lays hself n.children s

/-! ## The whole pass -/

theorem declareStep_lays (ht : t.Formed) (id : NodeId) (s : Analysis) : LaysFrom t b 0 s (declareStep self id) := by
  have enter : RunsPlain t (modify fun s => { s with declaring := s.declaring.insert id () }) :=
    RunsPlain.note fun _ => ⟨rfl, rfl, rfl, rfl, rfl, rfl⟩
  have leave : RunsPlain t (modify fun s => { s with declaring := s.declaring.erase id }) :=
    RunsPlain.note fun _ => ⟨rfl, rfl, rfl, rfl, rfl, rfl⟩
  unfold declareStep
  refine .get_bind (.ite (fun _ => .plain _) fun _ => .of_start fun hs hb => .bind fun n' s₁ h₁ p₁ => ?_)
  obtain ⟨n, hn, v, c, rfl⟩ : ∃ n, t.get? id = some n ∧ n.Retyped n' := by
    rw [node_apply] at h₁
    cases hn' : s.result.tree.get? id with
    | none =>
      rw [hn'] at h₁
      cases h₁
    | some m =>
      rw [hn'] at h₁
      cases h₁
      exact hs.tree.original hn'
  refine .bind fun _ s₂ h₂ p₂ => .get_bind (.seq (Nat.le_refl _) (.setScope id rfl) fun _ s₃ h₃ l₃ => ?_)
  have hs₂ := p₂.slotted (p₁.slotted hs)
  have hc : Current b s₃ id := by
    cases h₃
    refine ⟨?_, ?_, ?_, late_setScope hs₂ id⟩
    · exact (IdMap.get?_insert ..).trans (if_pos rfl)
    · exact (IdMap.get?_insert ..).trans (if_pos rfl)
    · dsimp only
      rw [p₂.seq, p₁.seq]
      exact hb
  have hkind : LaysFrom t b 0 s₃ (declareKind self id n) := declareKind_lays hself ht hn hc
  exact .seq (Nat.le_refl _) hkind fun _ s₄ _ _ => .plain _

end Nodes

theorem declareWith_lays (ht : t.Formed) (fuel : Nat) : ∀ id s b, LaysFrom t b 0 s (declareWith fuel id) := by
  induction fuel with
  | zero =>
    intro id s b _ _ a s' h
    cases h
  | succ fuel ih => exact fun id s b => declareStep_lays ih ht id s

theorem declare_lays (ht : t.Formed) (id : NodeId) (s : Analysis) : LaysFrom t b 0 s (declare id) := by
  unfold declare
  exact .bind fun tree s₁ _ _ => declareWith_lays ht (tree.size + 2) id s₁ b

theorem declarePass_lays (ht : t.Formed) (s : Analysis) : LaysFrom t b 0 s declarePass := by
  unfold declarePass traced
  have start : RunsPlain t (modifyGet fun s : Analysis =>
      ((s.tracer.start 2 "declare" 0).1, { s with tracer := (s.tracer.start 2 "declare" 0).2 })) :=
    RunsPlain.of_modifyGet fun _ _ => ⟨fun h => h, .refl _ _, rfl, rfl, rfl, rfl⟩
  have stop (f : Analysis → Tracer) : RunsPlain t (modify fun s => { s with tracer := f s }) :=
    RunsPlain.note fun _ => ⟨rfl, rfl, rfl, rfl, rfl, rfl⟩
  refine .bind fun span s₁ _ _ => .seq (Nat.le_refl _) (.bind fun tree s₂ _ _ => ?_) fun _ s₃ _ _ => .plain _
  exact .forM tree.roots (fun id _ s b => declare_lays ht id s) s₂

/-! ## The beginning -/

theorem declareBuiltins_plain (t : Tree) : ScopeTable.Plain t {} (declareBuiltins {}) := by
  have hroot : t.kind 0 ≠ .param := by simp [Tree.kind, Tree.get?]
  unfold declareBuiltins
  refine List.foldlRecOn _ _ (.refl ..) fun tab h p _ => ?_
  have hi := h.trans (.intern p.1)
  dsimp only
  split
  · rename_i id tab' hdecl
    exact hi.trans (.declare hdecl ⟨fun _ => Storage.noConfusion, hroot⟩)
  · exact hi

theorem initial_slotted (t : Tree) (options : AnalysisOptions) (tracer : Tracer) : Slotted t (initial t options tracer) := by
  have h := declareBuiltins_plain t
  have root {id : Nat} {sc : Scope} (hsc : ({} : ScopeTable).scope? id = some sc) : id = 1 ∧ sc = { kind := .nameSpace } := by
    obtain ⟨h0, hle⟩ := ScopeTable.scope?_lt hsc
    obtain rfl : id = 1 := Nat.le_antisymm hle h0
    cases hsc
    exact ⟨rfl, rfl⟩
  have ordered : ({} : ScopeTable).Ordered := by
    intro id sc hsc
    obtain ⟨rfl, rfl⟩ := root hsc
    exact Nat.zero_lt_one
  have spaces : ({} : ScopeTable).Spaces := by
    intro id sc hsc p hp
    obtain ⟨-, rfl⟩ := root hsc
    cases hp
  -- the only symbols are the types that are built in
  have bare {v : SymbolId} {sym : Symbol} (hv : (initial t options tracer).result.scopes.symbol? v = some sym) :
      Bare t sym := by
    refine (h.fresh v sym hv).resolve_left ?_
    rintro ⟨old, hold⟩
    have hlt := (ScopeTable.symbol?_lt hold).2
    have hpos := (ScopeTable.symbol?_lt hold).1
    exact absurd (Nat.lt_of_lt_of_le hpos hlt) (Nat.lt_irrefl 0)
  refine ⟨.refl t, h.ordered ordered, h.spaces spaces, ScopeTable.grows_size h.builds.grows, fun x sc hx => ?_,
    fun v sym off hv hst => absurd hst ((bare hv).1 off), fun v sym hv hk => absurd hk (bare hv).2,
    fun v sym off fn hv hst => absurd hst ((bare hv).1 off), fun q off v w a b' hv => absurd hv.frame ((bare hv.here).1 off),
    fun v w a b' off _ ha _ hst => absurd hst ((bare ha).1 off)⟩
  cases hx

/-! ## Blocks -/

/-- What the pass declares in a block: the statements of a block, a statement that is no block, and the parts of loops and of
arms. -/
inductive OpensBlock (t : Tree) (self : NodeId → AnalysisM Unit) : AnalysisM Unit → Prop
  | statements (list : List NodeId) : OpensBlock t self (list.forM self)
  | nested (id : NodeId) : OpensBlock t self (self id)
  | counting (n : Node) : OpensBlock t self (loopStep self n)
  | each {id : NodeId} (hk : t.kind id ≠ .param) (n : Node) : OpensBlock t self (eachStep self id n)
  | arm {id : NodeId} (hk : t.kind id ≠ .param) (n : Node) : OpensBlock t self (armStep self id n)

theorem OpensBlock.lays {self : NodeId → AnalysisM Unit} (hself : ∀ c s b, LaysFrom t b 0 s (self c)) {step : AnalysisM Unit}
    (h : OpensBlock t self step) (hs : Slotted t s) (span : Span) : LaysFrom t 0 0 (opened s span) step := by
  cases h with
  | statements list => exact children_lays hself list _
  | nested id => exact hself id _ 0
  | counting n => exact loopStep_lays hself n _
  | each hk n => exact eachStep_lays hself hk (Nat.zero_le _) (unseen_opened hs span) n
  | arm hk n => exact armStep_lays hself hk (Nat.zero_le _) (unseen_opened hs span) n

end Analysis

/-! ## After the pass -/

/-- The query sees the variable of a frame: it lies in a scope around, and is visible. -/
structure ScopeTable.Sees (tab : ScopeTable) (q : Query) (off : Int) (v : SymbolId) (sym : Symbol) : Prop where
  here : tab.symbol? v = some sym
  frame : sym.storage = .frame off
  around : sym.scope ∈ tab.chain q.origin
  visible : tab.visible q v = true

open Analysis in
/-- The declaration pass of a formed tree ends. Then, of the variables that a visited node sees, no two of one function have
the same offset. The offset of a variable that is no parameter is one of the `maxStack` offsets from 0 down, and a parameter
has the offset of its position. The pass keeps `Slotted`, and each block that it opens leaves every frame with the height from
before. -/
theorem Tree.declarePass_slots {t : Tree} (ht : t.Formed) (options : AnalysisOptions) (tracer : Tracer) :
    (∃ s, declarePass (initial t options tracer) = .ok ⟨⟩ s ∧
      (∀ x scope seq file, s.nodeScope.get? x = some scope → s.nodeSeq.get? x = some seq → ∀ off v w a b,
        s.result.scopes.Sees { origin := scope, file, seq } off v a →
          s.result.scopes.Sees { origin := scope, file, seq } off w b →
            s.result.scopes.funcScope a.scope = s.result.scopes.funcScope b.scope → v = w) ∧
      (∀ v sym off, s.result.scopes.symbol? v = some sym → sym.storage = .frame off → t.kind sym.decl ≠ .param →
        ∃ fn, s.result.scopes.scope? (s.result.scopes.funcScope sym.scope) = some fn ∧
          -((fn.maxStack : Int) - 1) ≤ off ∧ off ≤ 0) ∧
      ∀ v sym, s.result.scopes.symbol? v = some sym → t.kind sym.decl = .param →
        ∃ sc fn n, ∃ i : Nat, s.result.scopes.scope? (s.result.scopes.funcScope sym.scope) = some sc ∧
          s.result.scopes.symbol? sc.func = some fn ∧ t.get? fn.decl = some n ∧ n.list[i]? = some sym.decl ∧
            sym.storage = .frame (2 + i)) ∧
    Slotted t (initial t options tracer) ∧
    ∀ s, Slotted t s → ∀ fuel : Nat, (∀ id s', declareWith fuel id s = .ok ⟨⟩ s' → Slotted t s') ∧
      ∀ id step block s', OpensBlock t (declareWith fuel) step → inBlock id step s = .ok block s' →
        ∀ f sc, s.result.scopes.scope? f = some sc →
          ∃ sc', s'.result.scopes.scope? f = some sc' ∧ sc'.stackTop = sc.stackTop := by
  have hinitial := initial_slotted t options tracer
  refine ⟨?_, hinitial, fun s hs fuel => ⟨fun id s' h => ?_, fun id step block s' hstep h => ?_⟩⟩
  · obtain ⟨u, s, hrun, -⟩ := declarePass_covers ht (initial t options tracer) (initial_ready t options tracer)
    have hl : Lays t 1 0 (initial t options tracer) s :=
      declarePass_lays ht _ hinitial (Nat.le_refl _) u s hrun
    have hs := hl.slotted
    refine ⟨s, hrun, fun x scope seq file hx hq off v w a b hv hw => ?_, fun v sym off hv hst hk => ?_, fun v sym hv hk => ?_⟩
    · obtain ⟨-, q, hq', -, hap⟩ := hs.nodes x scope hx
      cases hq.symm.trans hq'
      -- every node that is come to has a place after 0
      have hpos : 1 ≤ seq := by
        rcases hl.nodes x with ⟨h, -⟩ | ⟨sc, q, -, hq', hle, -⟩
        · cases h.symm.trans hx
        · cases hq.symm.trans hq'
          exact hle
      have seen {v : SymbolId} {sym : Symbol} (hv : s.result.scopes.Sees { origin := scope, file, seq } off v sym) :
          ScopeTable.Seen s.result.scopes scope seq off v sym := by
        refine ⟨hv.here, hv.frame, hv.around, ?_⟩
        have hkind := (hs.frames v sym off hv.here hv.frame).1
        have hvisible := hv.visible
        simp only [ScopeTable.visible, hv.here, hkind, Bool.or_eq_true, decide_eq_true_eq, ne_eq, not_true_eq_false,
          or_false] at hvisible
        omega
      exact hap off v w a b (seen hv) (seen hw)
    · cases (hs.frames v sym off hv hst).2 with
      | slot _ hfn hle hlt => exact ⟨_, hfn, by omega, hle⟩
      | arg hparam _ _ _ _ _ => exact absurd hparam hk
    · obtain ⟨off, hst⟩ := hs.params v sym hv hk
      cases (hs.frames v sym off hv hst).2 with
      | slot hparam _ _ _ => exact absurd hk hparam
      | arg _ hsc hfunction hfn hn hi => exact ⟨_, _, _, _, by rwa [ScopeTable.funcScope_self hsc hfunction], hfn, hn, hi, hst⟩
  · exact (declareWith_lays ht fuel id s 0 hs (Nat.zero_le _) ⟨⟩ s' h).slotted
  · exact inBlock_tops hs (fun span => hstep.lays (declareWith_lays ht fuel) hs span) h

/-- A function with a parameter and two blocks: `a` in the first one, `b` and `c` in the second one. -/
def reusedSlot : Tree where
  nodes := #[.intLit 1, .letDecl "a" 0 1, .block [2], .intLit 2, .letDecl "b" 0 4, .intLit 3, .letDecl "c" 0 6,
    .ident ["c"], .block [5, 7, 8], .param "p" 0, .block [3, 9], .func "f" [10] 0 11, { kind := .file, list := [12] }]
  roots := [13]

open Analysis in
theorem reusedSlot_end : ∃ s, s = after declarePass (initial reusedSlot {} {}) ∧
    (s.nodeScope.get? 8 = some 4 ∧ s.nodeSeq.get? 8 = some 13 ∧ s.result.scopes.funcScope 4 = 2) ∧
    [11, 12, 13].map (fun v => (s.result.scopes.symbol? v).map fun sym => (sym.decl, sym.storage, sym.scope)) =
      [some (2, .frame 0, 3), some (5, .frame 0, 4), some (7, .frame (-1), 4)] ∧
    4 ∈ s.result.scopes.chain 4 ∧ s.result.scopes.visible { origin := 4, seq := 13 } 12 :=
  ⟨_, rfl, by decide +kernel⟩

open Analysis in
/-- The first variable of the second block gets the slot of the first block, and no other variable that is seen at the end of
the block has it. -/
theorem reusedSlot_slots : reusedSlot.Formed ∧ ∃ s, declarePass (initial reusedSlot {} {}) = .ok ⟨⟩ s ∧
    (∃ a, s.result.scopes.symbol? 11 = some a ∧ a.storage = .frame 0) ∧
    (∃ b, s.result.scopes.Sees { origin := 4, seq := 13 } 0 12 b) ∧
    ∀ v sym, s.result.scopes.Sees { origin := 4, seq := 13 } 0 v sym → s.result.scopes.funcScope sym.scope = 2 → v = 12 := by
  have hformed : reusedSlot.Formed := by decide
  obtain ⟨⟨s, hrun, hapart, -⟩, -⟩ := Tree.declarePass_slots hformed {} {}
  have hs : s = after declarePass (initial reusedSlot {} {}) := by
    unfold after
    rw [hrun]
  obtain ⟨s', hs', ⟨hscope, hseq, hfn⟩, hsymbols, hin, hvisible⟩ := reusedSlot_end
  obtain rfl := hs.trans hs'.symm
  simp only [List.map_cons, List.map_nil, List.cons.injEq, Option.map_eq_some_iff, Prod.mk.injEq] at hsymbols
  obtain ⟨⟨a, ha, -, hsta, -⟩, ⟨b, hb, -, hstb, hscb⟩, -⟩ := hsymbols
  have hsees : s.result.scopes.Sees { origin := 4, seq := 13 } 0 12 b := ⟨hb, hstb, hscb.symm ▸ hin, hvisible⟩
  refine ⟨hformed, s, hrun, ⟨a, ha, hsta⟩, ⟨b, hsees⟩, fun v sym hv hfunc => ?_⟩
  exact hapart 8 4 13 0 hscope hseq 0 v 12 sym b hv hsees (by rw [hfunc, hscb, hfn])

end TreeCompiler
