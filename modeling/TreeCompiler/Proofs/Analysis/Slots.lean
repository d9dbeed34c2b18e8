import TreeCompiler.Proofs.Analysis.Frames

/-!
# Blocks, bodies and variables of loops

What the declaration pass does in a scope inside, and the variables that it binds.

* `LaysFrom.inBlock` : a block; `inBlock_tops` : when it ends, every frame has the height from before;
* `declareFuncBody_lays` : a function, with its parameters at their places;
* `declareLocal_lays` : a variable that a loop or an arm introduces in its block.
-/

namespace TreeCompiler

namespace Analysis

open ScopeTable (Adds Allotted Apart Bare Builds Seen Spaces)

variable {t : Tree} {s s' s₁ s₂ : Analysis} {b k k₁ : Nat}

/-! ## Scopes inside -/

/-- What is done in a namespace or a function leaves the frames outside alone. -/
theorem Enters.leaves (he : Enters t s s₁) (h : Lays t b k₁ s₁ s₂)
    (hfn : s₁.result.scopes.funcScope s₁.scope = 0 ∨ s.result.scopes.scopes.size < s₁.result.scopes.funcScope s₁.scope)
    (loops : List String) : Leaves s s₂ { s₂ with scope := s.scope, loops } := by
  refine ⟨rfl, rfl, rfl, rfl, rfl, fun h => h, fun h => h, .refl _ _, fun _ => rfl, fun id sc sc' hsc hsc' => ?_⟩
  obtain ⟨sc₁, hsc₁, -⟩ := he.table.builds.grows.scopes id sc hsc
  obtain ⟨hpos, hle⟩ := ScopeTable.scope?_lt hsc
  have hne : id ≠ s₁.result.scopes.funcScope s₁.scope := by
    rintro rfl
    rcases hfn with h0 | hlt
    · exact absurd h0 (Nat.ne_of_gt hpos)
    · exact Nat.lt_irrefl _ (Nat.lt_of_lt_of_le hlt hle)
  exact ((h.builds.tops id sc₁ sc' hsc₁ hsc').2 hne).trans
    ((he.table.builds.tops id sc sc₁ hsc hsc₁).2 (Nat.ne_of_gt hpos))

theorem withScope_ok {scope : ScopeId} {step : AnalysisM Unit} {u : Unit} (h : withScope scope step s = .ok u s') :
    ∃ s₂, step { s with scope } = .ok ⟨⟩ s₂ ∧ s' = { s₂ with scope := s.scope } := by
  unfold withScope at h
  obtain ⟨saved, s₀, h₀, h⟩ := bind_ok h
  cases h₀
  obtain ⟨u₁, s₁, h₁, h⟩ := bind_ok h
  cases h₁
  obtain ⟨u₂, s₂, h₂, h⟩ := bind_ok h
  cases h
  exact ⟨s₂, h₂, rfl⟩

theorem outsideLoops_ok {step : AnalysisM Unit} {u : Unit} (h : outsideLoops step s = .ok u s') :
    ∃ s₂, step { s with loops := [] } = .ok ⟨⟩ s₂ ∧ s' = { s₂ with loops := s.loops } := by
  unfold outsideLoops at h
  obtain ⟨saved, s₀, h₀, h⟩ := bind_ok h
  cases h₀
  obtain ⟨u₁, s₁, h₁, h⟩ := bind_ok h
  cases h₁
  obtain ⟨u₂, s₂, h₂, h⟩ := bind_ok h
  cases h
  exact ⟨s₂, h₂, rfl⟩

/-! ### Blocks -/

/-- A new block becomes the current scope. -/
def opened (s : Analysis) (span : Span) : Analysis :=
  { s with
    result := { s.result with
      scopes := (s.result.scopes.addScope
        { kind := .block, parent := s.scope, span, stackBase := s.result.scopes.height s.scope }).2 }
    scope := s.result.scopes.scopes.size + 1 }

theorem opened_scope? (s : Analysis) (span : Span) : (opened s span).result.scopes.scope? (opened s span).scope =
    some { kind := .block, parent := s.scope, span, stackBase := s.result.scopes.height s.scope } :=
  (ScopeTable.scope?_addScope ..).trans (if_pos rfl)

theorem enters_opened (hs : Slotted t s) (span : Span) : Enters t s (opened s span) :=
  ⟨fun h => h, .addScope hs.scope rfl, rfl, rfl, rfl, _, opened_scope? s span, rfl, .inl (Nat.lt_succ_self _)⟩

/-- No node has come to the current scope. -/
def Unseen (s : Analysis) : Prop := ∀ x sc, s.nodeScope.get? x = some sc → s.scope ∉ s.result.scopes.chain sc

theorem Unseen.late (h : Unseen s) (q : Nat) : Late s q := fun x sc _ hx _ hin _ => absurd hin (h x sc hx)

theorem unseen_opened (hs : Slotted t s) (span : Span) : Unseen (opened s span) := by
  intro x sc hx hin
  have hle := (hs.nodes x sc hx).1
  rw [(enters_opened hs span).table.builds.chain hs.ordered hle] at hin
  exact Nat.lt_irrefl _ (Nat.lt_of_lt_of_le (Nat.lt_succ_of_le hle) (ScopeTable.le_of_mem_chain hs.ordered hin))

theorem inBlock_ok (hs : Slotted t s) {id : NodeId} {step : AnalysisM Unit} {block : ScopeId}
    (h : inBlock id step s = .ok block s') : block = s.result.scopes.scopes.size + 1 ∧ ∃ span s₂,
      step (opened s span) = .ok ⟨⟩ s₂ ∧
        s' = { s₂ with result := { s₂.result with scopes := s₂.result.scopes.leaveBlock block }, scope := s.scope } := by
  unfold inBlock at h
  obtain ⟨span, s₀, h₀, h⟩ := bind_ok h
  cases h₀
  obtain ⟨s₁, s₁', h₁, h⟩ := bind_ok h
  cases h₁
  obtain ⟨block', s₂, h₂, h⟩ := bind_ok h
  cases h₂
  obtain ⟨u, s₃, h₃, h⟩ := bind_ok h
  cases h₃
  obtain ⟨u', s₄, h₄, h⟩ := bind_ok h
  obtain ⟨s₅, h₅, rfl⟩ := withScope_ok h₄
  obtain ⟨u'', s₆, h₆, h⟩ := bind_ok h
  cases h₆
  cases h
  have hopened : opened s (s.result.tree.span id) = { s with
      result := { s.result with
        scopes := (s.result.scopes.addScope { kind := .block, parent := s.scope, span := s.result.tree.span id }).2.enterBlock
          (s.result.scopes.scopes.size + 1) }
      scope := s.result.scopes.scopes.size + 1 } := by
    rw [ScopeTable.enterBlock_addScope hs.ordered rfl rfl hs.scope]
    rfl
  refine ⟨rfl, s.result.tree.span id, s₅, ?_, rfl⟩
  rw [hopened]
  exact h₅

/-- When a block ends, every frame has the height that it had when the block began. -/
theorem leaves_block (hs : Slotted t s) {span : Span} (h : Lays t b k₁ (opened s span) s₂) :
    Leaves s s₂ { s₂ with
      result := { s₂.result with scopes := s₂.result.scopes.leaveBlock (s.result.scopes.scopes.size + 1) }
      scope := s.scope } := by
  have he := enters_opened hs span
  have hs₁ := he.slotted hs
  have hblock := opened_scope? s span
  obtain ⟨sc₂, hsc₂, -⟩ := h.builds.grows.scopes _ _ hblock
  have hbase := (h.builds.tops _ _ sc₂ hblock hsc₂).1
  have hfn₁ : (opened s span).result.scopes.funcScope (opened s span).scope = s.result.scopes.funcScope s.scope := by
    rw [ScopeTable.funcScope_eq hs₁.ordered hblock]
    exact he.table.builds.funcScope hs.ordered hs.scope
  have hfn : s₂.result.scopes.funcScope (s.result.scopes.scopes.size + 1) = s.result.scopes.funcScope s.scope :=
    (h.builds.funcScope hs₁.ordered hs₁.scope).trans hfn₁
  have hleave : s₂.result.scopes.leaveBlock (s.result.scopes.scopes.size + 1) =
      s₂.result.scopes.modifyScope (s.result.scopes.funcScope s.scope) fun fn =>
        { fn with stackTop := s.result.scopes.height s.scope } := by
    unfold ScopeTable.leaveBlock
    rw [hfn, show s₂.result.scopes.scope? (s.result.scopes.scopes.size + 1) = some sc₂ from hsc₂]
    rw [Option.map_some, Option.getD_some, hbase]
  refine ⟨rfl, rfl, rfl, rfl, rfl, ?_, ?_, ?_, ?_, fun id sc sc' hsc hsc' => ?_⟩
  · rw [hleave]
    exact fun ho => ho.modifyScope _ fun _ => rfl
  · rw [hleave]
    exact fun hsp => hsp.modifyScope (fun _ => ⟨rfl, rfl⟩) fun _ p hp => .inl hp
  · rw [hleave]
    exact .modifyFrame fun _ => ⟨⟨rfl, rfl, rfl, Nat.le_refl _, Nat.le_refl _⟩, rfl⟩
  · rw [hleave]
    exact fun v => ScopeTable.symbol?_modifyScope ..
  · dsimp only at hsc'
    rw [hleave, ScopeTable.scope?_modifyScope] at hsc'
    obtain ⟨sc₁, hsc₁, -⟩ := he.table.builds.grows.scopes id sc hsc
    split at hsc'
    · rename_i hid
      obtain ⟨sc₂, -, rfl⟩ := Option.map_eq_some_iff.1 hsc'
      unfold ScopeTable.height
      rw [← hid, hsc]
      rfl
    · rename_i hne
      rw [← hfn₁] at hne
      exact ((h.builds.tops id sc₁ sc' hsc₁ hsc').2 hne).trans
        ((he.table.builds.tops id sc sc₁ hsc hsc₁).2 (Nat.ne_of_gt (ScopeTable.scope?_lt hsc).1))

theorem LaysFrom.inBlock {id : NodeId} {step : AnalysisM Unit}
    (hstep : Slotted t s → ∀ span, LaysFrom t b k₁ (opened s span) step) : LaysFrom t b k s (inBlock id step) := by
  intro hs hb block s' h
  obtain ⟨rfl, span, s₂, hrun, rfl⟩ := inBlock_ok hs h
  have he := enters_opened hs span
  have hl := hstep hs span (he.slotted hs) hb ⟨⟩ s₂ hrun
  exact hl.of_child hs he (leaves_block hs hl)

theorem inBlock_tops {id : NodeId} {step : AnalysisM Unit} {block : ScopeId} (hs : Slotted t s)
    (hstep : ∀ span, LaysFrom t 0 k₁ (opened s span) step) (h : inBlock id step s = .ok block s') (f : ScopeId) (sc : Scope)
    (hsc : s.result.scopes.scope? f = some sc) :
    ∃ sc', s'.result.scopes.scope? f = some sc' ∧ sc'.stackTop = sc.stackTop := by
  obtain ⟨rfl, span, s₂, hrun, rfl⟩ := inBlock_ok hs h
  have he := enters_opened hs span
  have hl := hstep span (he.slotted hs) (Nat.zero_le _) ⟨⟩ s₂ hrun
  have hleaves := leaves_block hs hl
  obtain ⟨sc', hsc', -⟩ := (hl.of_child (k := 0) hs he hleaves).builds.grows.scopes f sc hsc
  exact ⟨sc', hsc', hleaves.tops f sc sc' hsc hsc'⟩

/-! ## What is known while a node is declared -/

/-- The node was given a place of `b` at least in the order. -/
def Counted (b : Nat) (s : Analysis) (p : NodeId) : Prop := b ≤ (s.nodeSeq.get? p).getD 0

theorem Lays.counted {p : NodeId} (h : Lays t b k s s') (hc : Counted b s p) : Counted b s' p := by
  unfold Counted
  rcases h.nodes p with ⟨-, hq⟩ | ⟨sc, q, -, hq, hb, -⟩
  · rw [hq]
    exact hc
  · rw [hq]
    exact hb

theorem counted_setScope {p : NodeId} {scope : ScopeId} {u : Unit} (hb : b ≤ s.seq + 1)
    (h : setScope p scope s = .ok u s') : Counted b s' p := by
  cases h
  unfold Counted
  dsimp only
  rw [IdMap.get?_insert, if_pos rfl]
  exact hb

/-- The node was the last to be given a place, in the current scope. -/
structure Current (b : Nat) (s : Analysis) (id : NodeId) : Prop where
  scope : s.nodeScope.get? id = some s.scope
  seq : s.nodeSeq.get? id = some s.seq
  le : b ≤ s.seq
  late : Late s s.seq

theorem Current.counted {id : NodeId} (h : Current b s id) : Counted b s id := by
  unfold Counted
  rw [h.seq]
  exact h.le

theorem Plain.current {id : NodeId} (h : Plain t s s') (hs : Slotted t s) (hc : Current b s id) : Current b s' id := by
  refine ⟨?_, ?_, ?_, ?_⟩
  · rw [h.nodeScope, h.scope]
    exact hc.scope
  · rw [h.nodeSeq, h.seq]
    exact hc.seq
  · rw [h.seq]
    exact hc.le
  · rw [h.seq]
    exact h.late hs hc.late

/-! ## Parameters and bodies -/

/-- The current scope is that of the function whose node is `n`. -/
def Heads (t : Tree) (n : Node) (s : Analysis) : Prop :=
  ∃ sc fn, s.result.scopes.scope? s.scope = some sc ∧ sc.kind = .function ∧ s.result.scopes.symbol? sc.func = some fn ∧
    t.get? fn.decl = some n

theorem Lays.heads {n : Node} (h : Lays t b k s s') (hh : Heads t n s) : Heads t n s' := by
  obtain ⟨sc, fn, hsc, hkind, hfn, hn⟩ := hh
  obtain ⟨sc', hsc', g⟩ := h.builds.grows.scopes _ sc hsc
  obtain ⟨fn', hfn', gf⟩ := h.builds.grows.symbols _ fn hfn
  exact ⟨sc', fn', by rw [h.scope]; exact hsc', g.kind.trans hkind, g.func ▸ hfn', gf.decl ▸ hn⟩

/-- The variables of the current scope itself lie below its argument `i`. -/
def Below (i : Nat) (s : Analysis) : Prop :=
  ∀ v sym off, s.result.scopes.symbol? v = some sym → sym.storage = .frame off → sym.scope = s.scope →
    off < Storage.argOffset i

theorem Below.mono {i j : Nat} (h : Below i s) (hij : i ≤ j) : Below j s := by
  intro v sym off hv hst hin
  have hlt := h v sym off hv hst hin
  unfold Storage.argOffset at hlt ⊢
  omega

theorem Lays.below {i : Nat} (hs : Slotted t s) (h : Lays t b i s s') (hb : Below i s) : Below i s' := by
  intro v sym off hv hst hin
  rw [h.scope] at hin
  rcases h.added v sym off hv hst with ⟨old, hold⟩ | ⟨-, ⟨-, -, hlt⟩ | hlt⟩
  · exact hb v old off hold ((h.builds.places v old sym hold hv).1 ▸ hst) ((h.builds.symbol hold hv).scope ▸ hin)
  · exact hlt
  · rw [hin] at hlt
    exact absurd (Nat.lt_of_lt_of_le hlt hs.scope) (Nat.lt_irrefl _)

theorem takes_argument {n : Node} {i : Nat} {p : NodeId} {sym : Symbol} (hs : Slotted t s) (hh : Heads t n s)
    (hb : Below i s) (hi : n.list[i]? = some p) (hp : t.kind p = .param) (hst : sym.storage = .frame (Storage.argOffset i))
    (hscope : sym.scope = s.scope) (hkind : sym.kind = .var) (hdecl : sym.decl = p) :
    Takes t s sym (Storage.argOffset i) := by
  obtain ⟨sc, fn, hsc, hfunction, hfn, hn⟩ := hh
  have hpos : 0 < Storage.argOffset i := by
    unfold Storage.argOffset
    omega
  refine ⟨hst, hscope, hkind, ?_, fun fn _ => by omega, fun w c hw hstc _ heq => ?_, .inl hpos⟩
  · exact .arg (hdecl ▸ hp) (hscope ▸ hsc) hfunction hfn hn (hdecl ▸ hi)
  · rw [(hs.frames w c _ hw hstc).2.of_pos hpos, ScopeTable.funcScope_self hsc hfunction] at heq
    exact absurd (hb w c _ hw hstc heq) (Int.lt_irrefl _)

section Steps

variable {self : NodeId → AnalysisM Unit} (hself : ∀ c s b, LaysFrom t b 0 s (self c))
include hself

theorem children_lays (cs : List NodeId) (s : Analysis) : LaysFrom t b 0 s (cs.forM self) :=
  LaysFrom.forM cs (fun c _ s b => hself c s b) s

theorem declareParam_lays {n : Node} {i : Nat} {p : NodeId} {fs : ScopeId} (hfs : fs = s.scope) (hh : Heads t n s)
    (hbelow : Below i s) (hi : n.list[i]? = some p) (hp : t.kind p = .param) :
    LaysFrom t b (i + 1) s (declareParam self fs p i) := by
  unfold declareParam
  refine .of_start fun hs hb => .bind fun pn s₁ _ p₁ => ?_
  have l₁ : Lays t b i s s₁ := p₁.lays hs
  have hb₁ : b ≤ s₁.seq + 1 := by
    rw [p₁.seq]
    exact hb
  refine .seq (Nat.le_succ i) (.setScope p (hfs.trans p₁.scope.symm)) fun u s₂ hset l₂ => ?_
  have hcounted := counted_setScope hb₁ hset
  refine .seq (Nat.le_succ i) ((hself pn.a s₂ b).mono (Nat.zero_le i)) fun _ s₃ _ l₃ => .bind fun name s₄ _ p₄ => ?_
  have l₄ : Lays t b i s₃ s₄ := p₄.lays l₃.slotted
  have l : Lays t b i s s₄ := ((l₁.trans hs l₂).trans hs l₃).trans hs l₄
  have hcounted := l₄.counted (l₃.counted hcounted)
  refine .bind fun seq s₅ hseq _ => ?_
  cases hseq
  have htakes {sym : Symbol} (hst : sym.storage = .frame (Storage.argOffset i)) (hscope : sym.scope = fs)
      (hkind : sym.kind = .var) (hdecl : sym.decl = p) : Takes t s₄ sym (Storage.argOffset i) :=
    takes_argument l.slotted (l.heads hh) (l.below hs hbelow) hi hp hst (hscope.trans (hfs.trans l.scope.symm)) hkind hdecl
  have hlt : Storage.argOffset (i : Int) < Storage.argOffset ((i + 1 : Nat) : Int) := by
    unfold Storage.argOffset
    omega
  refine .seq (Nat.le_refl _) ((htakes rfl rfl rfl rfl).binds hcounted hlt) fun r s₅ _ _ => ?_
  cases r
  · exact .plain _
  · exact .plain _

/-- The parameters from the position `j` on. -/
theorem params_lays {n : Node} {fs : ScopeId} (ps : List NodeId) (hp : ∀ p ∈ ps, t.kind p = .param) {j : Nat}
    (hps : ∀ i p, ps[i]? = some p → n.list[j + i]? = some p) : ∀ s, fs = s.scope → Heads t n s → Below j s →
      LaysFrom t b (j + ps.length) s (forIn (ps.zipIdx j) PUnit.unit fun x _ => do
        declareParam self fs x.1 x.2
        pure (ForInStep.yield PUnit.unit)) := by
  induction ps generalizing j with
  | nil =>
    intro s _ _ _
    rw [List.zipIdx_nil, List.forIn_nil]
    exact .plain _
  | cons p ps ih =>
    intro s hfs hh hbelow
    rw [List.zipIdx_cons, List.forIn_cons, bind_assoc]
    have hfirst := declareParam_lays hself (b := b) hfs hh hbelow (hps 0 p rfl) (hp p (List.mem_cons_self ..))
    refine .of_start fun hs _ => .seq (by simp) hfirst fun _ s₁ _ l₁ => ?_
    have hrest := ih (fun q hq => hp q (List.mem_cons_of_mem _ hq)) (j := j + 1)
      (fun i q hq => by rw [Nat.add_assoc, Nat.add_comm 1]; exact hps (i + 1) q hq) s₁ (hfs.trans l₁.scope.symm)
      (l₁.heads hh) (l₁.below hs (hbelow.mono (Nat.le_succ j)))
    have hlength : j + 1 + ps.length = j + (p :: ps).length := by
      rw [List.length_cons]
      omega
    rw [hlength] at hrest
    exact hrest

/-- What is declared in the scope of a function. -/
def funcStep (self : NodeId → AnalysisM Unit) (fs : ScopeId) (n : Node) : AnalysisM Unit := do
  for (p, i) in n.list.zipIdx do declareParam self fs p i
  self n.a
  self n.c
  if n.b ≠ 0 then
    let body ← node n.b
    setScope n.b fs
    if body.kind = .block then body.list.forM self else self n.b

theorem funcStep_lays {n : Node} {fs : ScopeId} (hfs : fs = s.scope) (hh : Heads t n s) (hbelow : Below 0 s)
    (hp : ∀ p ∈ n.list, t.kind p = .param) : LaysFrom t b n.list.length s (funcStep self fs n) := by
  unfold funcStep
  have hparams := params_lays hself (b := b) n.list hp (j := 0) (fun i p h => by rw [Nat.zero_add]; exact h) s hfs hh hbelow
  rw [Nat.zero_add] at hparams
  have visit (c : NodeId) (s : Analysis) : LaysFrom t b n.list.length s (self c) := (hself c s b).mono (Nat.zero_le _)
  refine .seq (Nat.le_refl _) hparams fun _ s₁ _ l₁ => ?_
  refine .seq (Nat.le_refl _) (visit n.a s₁) fun _ s₂ _ l₂ => .seq (Nat.le_refl _) (visit n.c s₂) fun _ s₃ _ l₃ => ?_
  refine .ite (fun _ => .bind fun body s₄ _ p₄ => ?_) fun _ => .plain _
  have hscope : fs = s₄.scope := by rw [p₄.scope, l₃.scope, l₂.scope, l₁.scope, hfs]
  refine .seq (Nat.le_refl _) (.setScope n.b hscope) fun _ s₅ _ _ => .ite (fun _ => ?_) fun _ => visit n.b s₅
  exact (children_lays hself body.list s₅).mono (Nat.zero_le _)

end Steps

/-- The scope of a new function becomes the current one. -/
def headed (s : Analysis) (id : NodeId) (n : Node) (fn : SymbolId) : Analysis :=
  { s with
    result := { s.result with
      scopes := (s.result.scopes.addScope
        { kind := .function, parent := s.scope, span := n.span, func := fn, anonymous := n.name = "" }).2.modifySymbol fn
          fun f => { f with body := s.result.scopes.scopes.size + 1 } }
    funcs := s.funcs.insert fn { node := id }
    bodies := s.bodies.push fn
    loops := []
    scope := s.result.scopes.scopes.size + 1 }

theorem headed_scope? (s : Analysis) (id : NodeId) (n : Node) (fn : SymbolId) :
    (headed s id n fn).result.scopes.scope? (headed s id n fn).scope =
      some { kind := .function, parent := s.scope, span := n.span, func := fn, anonymous := n.name = "" } :=
  (ScopeTable.scope?_modifySymbol ..).trans ((ScopeTable.scope?_addScope ..).trans (if_pos rfl))

theorem enters_headed (hs : Slotted t s) (id : NodeId) (n : Node) (fn : SymbolId) : Enters t s (headed s id n fn) := by
  refine ⟨fun h => h, ?_, rfl, rfl, rfl, _, headed_scope? s id n fn, rfl, .inl (Nat.lt_succ_self _)⟩
  exact (Adds.addScope hs.scope rfl).trans (.modifySymbol fun _ => ⟨⟨rfl, rfl, rfl, rfl, rfl, fun _ => rfl⟩, rfl, rfl⟩)

theorem declareFuncBody_ok {self : NodeId → AnalysisM Unit} {id : NodeId} {fn : SymbolId} {u : Unit}
    (h : declareFuncBody self id fn s = .ok u s') : ∃ n s₂, s.result.tree.get? id = some n ∧
      funcStep self (s.result.scopes.scopes.size + 1) n (headed s id n fn) = .ok ⟨⟩ s₂ ∧
        s' = { s₂ with scope := s.scope, loops := s.loops } := by
  unfold declareFuncBody at h
  obtain ⟨n, s₀, h₀, h⟩ := bind_ok h
  rw [node_apply] at h₀
  cases hn : s.result.tree.get? id with
  | none =>
    rw [hn] at h₀
    cases h₀
  | some n' =>
    rw [hn] at h₀
    cases h₀
    obtain ⟨s₁, s₁', h₁, h⟩ := bind_ok h
    cases h₁
    obtain ⟨fs, s₂, h₂, h⟩ := bind_ok h
    cases h₂
    obtain ⟨u₃, s₃, h₃, h⟩ := bind_ok h
    cases h₃
    obtain ⟨u₄, s₄, h₄, h⟩ := bind_ok h
    cases h₄
    obtain ⟨s₅, h₅, rfl⟩ := outsideLoops_ok h
    obtain ⟨s₆, h₆, rfl⟩ := withScope_ok h₅
    exact ⟨n, s₆, rfl, h₆, rfl⟩

theorem declareFuncBody_lays {self : NodeId → AnalysisM Unit} (hself : ∀ c s b, LaysFrom t b 0 s (self c)) (ht : t.Formed)
    {id : NodeId} {n : Node} {fn : SymbolId} (hn : t.get? id = some n) (hk : n.kind = .func)
    (hfn : ∃ f, s.result.scopes.symbol? fn = some f ∧ f.decl = id) : LaysFrom t b k s (declareFuncBody self id fn) := by
  intro hs hb u s' h
  obtain ⟨n', s₂, hn', hrun, rfl⟩ := declareFuncBody_ok h
  obtain ⟨n₁, hn₁, v, c, rfl⟩ := hs.tree.nodes id n hn
  cases hn'.symm.trans hn₁
  have he := enters_headed hs id { n with valueType := v, completed := c } fn
  have hscope := headed_scope? s id { n with valueType := v, completed := c } fn
  have hheads : Heads t n (headed s id { n with valueType := v, completed := c } fn) := by
    obtain ⟨f, hf, hdecl⟩ := hfn
    obtain ⟨f', hf', g⟩ := he.table.builds.grows.symbols fn f hf
    exact ⟨_, f', hscope, rfl, hf', (g.decl.trans hdecl) ▸ hn⟩
  have hbelow : Below 0 (headed s id { n with valueType := v, completed := c } fn) := by
    intro w sym off hw hst hin
    obtain ⟨old, hold⟩ := (he.table.fresh w sym hw).resolve_right fun hbare => hbare.1 off hst
    have hplace := (hs.frames w old off hold ((he.table.builds.places w old sym hold hw).1 ▸ hst)).2.place
    rw [← (he.table.builds.symbol hold hw).scope, hin] at hplace
    exact absurd hplace (Nat.not_succ_le_self _)
  have hp : ∀ p ∈ n.list, t.kind p = .param := by
    intro p hp
    obtain ⟨m, hm, hmk⟩ := (ht.get hn).has_part (k := .param) (by rw [hk]; rfl) hp
    simp [Tree.kind, hm, hmk]
  have hl : Lays t b n.list.length _ s₂ :=
    funcStep_lays hself (b := b) rfl hheads hbelow hp (he.slotted hs) hb ⟨⟩ s₂ hrun
  refine hl.of_child hs he (he.leaves hl (.inr ?_) s.loops)
  rw [ScopeTable.funcScope_self hscope rfl]
  exact Nat.lt_succ_self _

/-! ## Variables -/

theorem takes_slot {sym : Symbol} {off : Int} (hf : Free s off) (hst : sym.storage = .frame off) (hscope : sym.scope = s.scope)
    (hkind : sym.kind = .var) (hdecl : t.kind sym.decl ≠ .param) (hl : Late s sym.seq) : Takes t s sym off := by
  obtain ⟨fn, hfn, htop, hmax⟩ := hf.room
  refine ⟨hst, hscope, hkind, .slot hdecl (hscope ▸ hfn) hf.le hmax, fun fn' hfn' => ?_, fun w c hw hstc hor => ?_, .inr hl⟩
  · cases hfn.symm.trans hfn'
    exact htop
  · exact hf.apart w c hw hstc (hor.resolve_right (Int.not_lt.2 hf.le))

theorem inFunction_ok {inside : Bool} (h : inFunction s = .ok inside s') :
    s' = s ∧ inside = decide (s.result.scopes.funcScope s.scope ≠ 0) := by
  cases h
  exact ⟨rfl, rfl⟩

theorem Unseen.of_builds {fn : ScopeId} (h : Unseen s) (hs : Slotted t s) (hb : Builds fn s.result.scopes s'.result.scopes)
    (scope : s'.scope = s.scope) (nodeScope : s'.nodeScope = s.nodeScope) : Unseen s' := by
  intro x sc hx hin
  rw [nodeScope] at hx
  rw [scope, hb.chain hs.ordered (hs.nodes x sc hx).1] at hin
  exact h x sc hx hin

theorem Takes.bindsHere {sym : Symbol} {off : Int} (h : Takes t s { sym with scope := s.scope } off) (hb : b ≤ sym.seq)
    (hk : off < Storage.argOffset k) : LaysFrom t b k s (bindSymbol sym) := .get_bind (h.binds hb hk)

theorem bindBare_lays {sym : Symbol} (h : Bare t sym) : LaysFrom t b k s (bindSymbol sym) := by
  have := bindSymbol_bare h
  exact .plain _

theorem Free.lt_argOffset {off : Int} (h : Free s off) (k : Nat) : off < Storage.argOffset k := by
  have hle := h.le
  unfold Storage.argOffset
  omega

theorem reported_lays {sym : Symbol} {name : String} {span : Span} (h : LaysFrom t b k s (bindSymbol sym)) :
    LaysFrom t b k s (do
      match ← bindSymbol sym with
      | .ok id => return id
      | .error prev =>
        reportRedeclared name span prev
        return prev) := by
  refine .seq (Nat.le_refl _) h fun r s₁ _ _ => ?_
  cases r
  · exact .plain _
  · exact .plain _

/-- A variable that a loop or an arm introduces in its block. -/
theorem declareLocal_lays {owner : NodeId} (hk : t.kind owner ≠ .param) (hc : Counted b s owner) (hu : Unseen s)
    (name : String) : LaysFrom t b k s (declareLocal owner name) := by
  unfold declareLocal
  refine .of_start fun hs _ => .bind fun nameId s₁ _ p₁ => .bind fun span s₂ _ p₂ => ?_
  have hs₁ := p₁.slotted hs
  have hu₂ := (hu.of_builds hs p₁.table.builds p₁.scope p₁.nodeScope).of_builds hs₁ p₂.table.builds p₂.scope p₂.nodeScope
  have hc₂ : Counted b s₂ owner := by
    unfold Counted
    rw [p₂.nodeSeq, p₁.nodeSeq]
    exact hc
  refine .newStorage (fun s₃ slot _ => .bind fun _ s₄ _ _ => ?_) fun s₃ off _ hs₂ hfree hs₃ => .bind fun inside s₄ h _ => ?_
  · refine .ite (fun _ => .bind fun seq s₅ _ _ => ?_) fun _ => .bind fun seq s₅ _ _ => ?_
    all_goals exact reported_lays (bindBare_lays ⟨fun _ => Storage.noConfusion, hk⟩)
  · obtain ⟨rfl, rfl⟩ := inFunction_ok h
    refine .ite (fun _ => .bind fun seq s₅ hseq _ => ?_) fun hnot => absurd (decide_eq_true hfree.inFunction) hnot
    cases hseq
    have hbuilds : Builds (s₂.result.scopes.funcScope s₂.scope) s₂.result.scopes s₄.result.scopes := by
      rw [hs₃]
      exact withSlot_builds
    have hu₃ : Unseen s₄ := hu₂.of_builds hs₂ hbuilds (by rw [hs₃]) (by rw [hs₃])
    refine reported_lays ((takes_slot hfree rfl rfl rfl hk (hu₃.late _)).bindsHere ?_ (hfree.lt_argOffset k))
    rw [hs₃]
    exact hc₂

theorem reportRedeclared_nodeScope {name : String} {span : Span} {prev : SymbolId} {u : Unit}
    (h : reportRedeclared name span prev s = .ok u s') : s'.nodeScope = s.nodeScope := by
  unfold reportRedeclared at h
  obtain ⟨p, s₁, h₁, h⟩ := bind_ok h
  rw [symbol_apply] at h₁
  cases hp : s.result.scopes.symbol? prev with
  | none =>
    rw [hp] at h₁
    cases h₁
  | some sym =>
    rw [hp] at h₁
    cases h₁
    cases h
    rfl

theorem bindSymbol_nodeScope {sym : Symbol} {r : Except SymbolId SymbolId} (h : bindSymbol sym s = .ok r s') :
    s'.nodeScope = s.nodeScope := by
  have h : bindIn s.scope sym s = .ok r s' := h
  rw [bindIn_apply] at h
  cases hdecl : s.result.scopes.declare s.scope sym with
  | error prev =>
    rw [hdecl] at h
    cases h
    rfl
  | ok r =>
    rw [hdecl] at h
    cases h
    rfl

theorem newStorage_nodeScope {static : Bool} {st : Storage} (h : newStorage static s = .ok st s') :
    s'.nodeScope = s.nodeScope := by
  rcases newStorage_ok h with ⟨-, rfl⟩ | ⟨fn, -, -, -, rfl⟩
  · rfl
  · rfl

theorem reported_nodeScope {sym : Symbol} {name : String} {span : Span} {v : SymbolId} (h : (do
      match ← bindSymbol sym with
      | .ok id => return id
      | .error prev =>
        reportRedeclared name span prev
        return prev : AnalysisM SymbolId) s = .ok v s') : s'.nodeScope = s.nodeScope := by
  obtain ⟨r, s₁, h₁, h⟩ := bind_ok h
  have hbind := bindSymbol_nodeScope h₁
  cases r with
  | ok id =>
    cases h
    exact hbind
  | error prev =>
    obtain ⟨u, s₂, h₂, h⟩ := bind_ok h
    cases h
    exact (reportRedeclared_nodeScope h₂).trans hbind

/-- No node is come to. -/
theorem declareLocal_nodeScope {owner : NodeId} {name : String} {v : SymbolId} (h : declareLocal owner name s = .ok v s') :
    s'.nodeScope = s.nodeScope := by
  unfold declareLocal at h
  obtain ⟨nameId, s₁, h₁, h⟩ := bind_ok h
  have hintern : s₁.nodeScope = s.nodeScope := by
    cases h₁
    rfl
  obtain ⟨span, s₂, h₂, h⟩ := bind_ok h
  cases h₂
  obtain ⟨st, s₃, h₃, h⟩ := bind_ok h
  refine Eq.trans ?_ ((newStorage_nodeScope h₃).trans hintern)
  obtain ⟨inside, s₄, h₄, h⟩ := bind_ok h
  cases h₄
  dsimp only at h
  split at h
  · obtain ⟨seq, s₅, h₅, h⟩ := bind_ok h
    cases h₅
    exact reported_nodeScope h
  · obtain ⟨seq, s₅, h₅, h⟩ := bind_ok h
    cases h₅
    exact reported_nodeScope h

end Analysis

end TreeCompiler
