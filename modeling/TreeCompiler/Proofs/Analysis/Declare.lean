import TreeCompiler.Analysis.Declare
import TreeCompiler.Proofs.Analysis.Step

/-!
# The declaration pass

Every step of the declaration pass walks. Two places need more than that: a variable is entered with storage that was
taken in the scope it is entered in, and a parameter with the offset of its position, which the function's declaration
has.

* `Declares fn id` : the function `fn` is declared by the function node `id`;
* `Frames fs k` : `fs` is the scope of a function with `k` parameters.
-/

namespace TreeCompiler.Analysis

open ScopeTable (Fits Deferred)

variable {α β : Type}

/-! ## Scopes and loops -/

theorem withScope_from {s : Analysis} {scope : ScopeId} {step : AnalysisM Unit}
    (h : scope ≤ s.result.scopes.scopes.size) (hstep : ∀ s', Steps s s' → s'.result = s.result → s'.funcs = s.funcs → WalksFrom s' step) :
    WalksFrom s (withScope scope step) := by
  intro hs
  have hsaved := hs.scope
  unfold withScope
  refine WalksFrom.get_bind ?_ hs
  refine .bind (.modify fun _ => .single (.enter s scope h)) fun _ s₁ he h₁ => ?_
  have hresult : s₁.result = s.result ∧ s₁.funcs = s.funcs := by
    cases he
    exact ⟨rfl, rfl⟩
  refine .bind (hstep s₁ h₁ hresult.1 hresult.2) fun _ s₂ _ h₂ => .modify fun _ => .single (.enter s₂ s.scope ?_)
  exact Nat.le_trans hsaved (ScopeTable.grows_size (h₁.trans h₂).tables)

theorem outsideLoops_from {s : Analysis} {step : AnalysisM Unit}
    (hstep : ∀ s', Steps s s' → s'.result = s.result → s'.funcs = s.funcs → WalksFrom s' step) : WalksFrom s (outsideLoops step) := by
  unfold outsideLoops
  refine .get_bind (.bind (.modify fun _ => steps_note rfl rfl rfl rfl ⟨rfl, rfl, rfl, rfl⟩) fun _ s₁ he h₁ => ?_)
  have hresult : s₁.result = s.result ∧ s₁.funcs = s.funcs := by
    cases he
    exact ⟨rfl, rfl⟩
  exact .bind (hstep s₁ h₁ hresult.1 hresult.2) fun _ s₂ _ _ => .modify fun _ => steps_note rfl rfl rfl rfl ⟨rfl, rfl, rfl, rfl⟩

namespace Walks

instance (label : String) (step : AnalysisM Unit) [Walks step] : Walks (inLoop label step) := by
  unfold inLoop
  exact seq (note fun _ => ⟨rfl, rfl, rfl, rfl⟩) fun _ => bind fun _ => note fun _ => ⟨rfl, rfl, rfl, rfl⟩

instance (step : AnalysisM Unit) [hstep : Walks step] : Walks (outsideLoops step) :=
  ⟨fun _ => outsideLoops_from fun s' _ _ _ => hstep.walks s'⟩

instance (id : NodeId) (step : AnalysisM Unit) [hstep : Walks step] : Walks (inBlock id step) := by
  refine ⟨fun s hs => ?_⟩
  have hscope := hs.scope
  unfold inBlock
  refine WalksFrom.bind .inst (fun span s₁ hspan _ => ?_) hs
  cases hspan
  refine .get_bind (.bind (.modifyGet fun _ => .single (.arrange rfl rfl rfl ⟨rfl, rfl, rfl, rfl⟩ ?_)) fun block s₂ hblock _ => ?_)
  · exact ScopeTable.keeps_addScope rfl (fun _ => hscope) fun _ h => by cases h
  · cases hblock
    refine .bind ((modifyScopes fun _ _ => ScopeTable.keeps_enterBlock _).walks _) fun _ s₃ _ h₃ => ?_
    refine .bind (withScope_from ?_ fun s' _ _ _ => hstep.walks s') fun _ s₄ _ _ => ?_
    · refine Nat.le_trans ?_ (ScopeTable.grows_size h₃.tables)
      simp
    · exact .bind ((modifyScopes fun _ _ => ScopeTable.keeps_leaveBlock _).walks _) fun _ s₅ _ _ => .pure _

/-! ## Binding -/

instance (name : String) (span : Span) (prev : SymbolId) : Walks (reportRedeclared name span prev) := by
  unfold reportRedeclared; infer_instance

instance : Walks inFunction := by unfold inFunction; infer_instance

instance (id : NodeId) (sym : SymbolId) : Walks (setDecl id sym) := noteResult fun _ => ⟨rfl, rfl, rfl, rfl, rfl⟩

instance (n : Node) : Walks (loadNative n) := by
  unfold loadNative
  refine bind fun s => ?_
  split
  · infer_instance
  · infer_instance
  · split <;> infer_instance

instance (n : Node) : Walks (checkLoopControl n) := by unfold checkLoopControl; infer_instance

end Walks

/-- The new storage fits the scope it was taken in, and a static variable gets a global slot. -/
theorem newStorage_bind {s : Analysis} {static : Bool} {f : Storage → AnalysisM β}
    (h : ∀ st s', Steps s s' → s'.scope = s.scope → s'.result.tree = s.result.tree →
      (static = true → ∃ slot, st = .global slot) → Fits s'.result.tree s'.result.scopes s'.scope st →
      WalksFrom s' (f st)) : WalksFrom s (newStorage static >>= f) := by
  intro hs
  unfold newStorage
  rw [bind_assoc]
  refine WalksFrom.get_bind ?_ hs
  have hglobal : WalksFrom s (withScopes (·.allocGlobal) >>= f) :=
    .bind (.modifyGet fun _ => .single (.arrange rfl rfl rfl ⟨rfl, rfl, rfl, rfl⟩ ScopeTable.keeps_allocGlobal))
      fun st s' hst hstep => by
        cases hst
        exact h _ _ hstep rfl rfl (fun _ => ⟨_, rfl⟩) (.global (Nat.lt_succ_self _))
  split
  · rename_i storage tab halloc
    have hlocal : static = false ∧ s.result.scopes.allocLocal? s.scope = some (storage, tab) := by
      split at halloc
      · cases halloc
      · exact ⟨Bool.eq_false_iff.2 ‹_›, halloc⟩
    refine WalksFrom.bind (.bind (.modify fun _ => .single (.arrange rfl rfl rfl ⟨rfl, rfl, rfl, rfl⟩
      (ScopeTable.keeps_allocLocal hlocal.2))) fun _ s₁ h₁ _ => .pure _) fun st s' hst hstep => ?_
    cases hst
    refine h _ _ hstep rfl rfl (fun hstatic => ?_) (ScopeTable.fits_allocLocal hs.laid.ordered hlocal.2)
    rw [hlocal.1] at hstatic
    cases hstatic
  · exact hglobal

theorem bindIn_from {s : Analysis} {scope : ScopeId} {sym : Symbol} (hb : sym.body = 0) (hk : sym.kind ≠ .function)
    (hp : Sound s → scope ≤ s.result.scopes.scopes.size)
    (hf : Sound s → Fits s.result.tree s.result.scopes scope sym.storage)
    (hq : ¬Deferred s.result.scopes { sym with scope }) : WalksFrom s (bindIn scope sym) := by
  intro hs
  unfold bindIn
  refine WalksFrom.bind .inst (fun tab s₁ htab _ => ?_) hs
  cases htab
  split
  · rename_i id tab hdecl
    refine .bind (.modify fun _ => .single (.arrange rfl rfl rfl ⟨rfl, rfl, rfl, rfl⟩ ?_)) fun _ s' _ _ => .pure _
    exact ScopeTable.keeps_declare hdecl hb (fun _ => hp hs) (fun _ h => absurd h hk) (fun _ => hf hs) hq
  · exact .pure _

/-- A symbol without storage. -/
theorem bindSymbol_plain {sym : Symbol} (hb : sym.body = 0) (hk : sym.kind ≠ .function) (hst : sym.storage = .none) :
    Walks (bindSymbol sym) :=
  ⟨fun _ => .get_bind (bindIn_from hb hk (fun hs => hs.scope) (fun _ => by rw [hst]; exact .none)
    (ScopeTable.not_deferred_of_storage hst))⟩

/-- A variable whose storage was taken in the current scope. -/
theorem bindSymbol_from {s : Analysis} {sym : Symbol} (hb : sym.body = 0) (hk : sym.kind ≠ .function)
    (hf : Fits s.result.tree s.result.scopes s.scope sym.storage)
    (hq : ¬Deferred s.result.scopes { sym with scope := s.scope }) : WalksFrom s (bindSymbol sym) :=
  .get_bind (bindIn_from hb hk (fun hs => hs.scope) (fun _ => hf) hq)

namespace Walks

instance (owner : NodeId) (name : String) : Walks (declareLocal owner name) := by
  refine ⟨fun s => ?_⟩
  unfold declareLocal
  refine .bind .inst fun nameId s₁ _ _ => .bind .inst fun span s₂ _ _ => ?_
  refine newStorage_bind fun storage s₃ _ _ _ _ hfit => ?_
  refine .bind .inst fun b s₄ hb _ => ?_
  cases hb
  refine .ite (fun _ => .bind .inst fun seq s₅ hseq _ => ?_) fun _ => .bind .inst fun seq s₅ hseq _ => ?_
  all_goals
    cases hseq
    refine .bind (bindSymbol_from rfl nofun hfit (ScopeTable.not_deferred_of_attrs rfl rfl)) fun r s₆ _ _ => ?_
    split <;> exact .inst

end Walks

/-! ## Functions -/

/-- The scope of a function with at least `k` parameters. -/
def Frames (fs k : Nat) (s : Analysis) : Prop :=
  ∃ sc, s.result.scopes.scope? fs = some sc ∧ sc.kind = .function ∧
    k ≤ s.result.scopes.paramCount s.result.tree sc.func

theorem frames_lasting (fs k : Nat) : Lasting (Frames fs k) := by
  rintro s s' hs hsteps ⟨sc, hsc, hk, hle⟩
  obtain ⟨sc', hsc', g⟩ := hsteps.tables.scopes fs sc hsc
  refine ⟨sc', hsc', g.kind.trans hk, ?_⟩
  rw [g.func, ScopeTable.paramCount_grows hs.laid hsteps.trees hsteps.tables hsc hk]
  exact hle

/-- A node that is a function stays one. -/
def IsFunc (id : NodeId) (s : Analysis) : Prop := ∃ n, s.result.tree.get? id = some n ∧ n.kind = .func

theorem isFunc_lasting (id : NodeId) : Lasting (IsFunc id) := by
  rintro s s' _ hsteps ⟨n, hn, hk⟩
  obtain ⟨n', hn', g⟩ := hsteps.trees id n hn
  exact ⟨n', hn', g.func hk⟩

section Steps

variable (self : NodeId → AnalysisM Unit) [hself : ∀ id, Walks (self id)]

theorem declareParam_under (fs p i : Nat) : WalksUnder (Frames fs (i + 1)) (declareParam self fs p i) := by
  have hJ := frames_lasting fs (i + 1)
  unfold declareParam
  refine .bind hJ fun pn => .bind hJ fun _ => .seq hJ .of_walks fun _ => .bind hJ fun name => .bind hJ fun seq => ?_
  refine .seq hJ (fun s hfr => ?_) fun r => ?_
  · obtain ⟨sc, hsc, hk, hle⟩ := hfr
    refine bindIn_from rfl nofun (fun _ => (ScopeTable.scope?_lt hsc).2) (fun _ => ?_)
      (ScopeTable.not_deferred_of_attrs rfl rfl)
    exact @ScopeTable.Fits.arg _ _ _ _ sc (by rw [ScopeTable.funcScope_self hsc hk]; exact hsc) hle
  · split <;> exact .of_walks

instance (id : NodeId) : Walks (declareNested self id) := by unfold declareNested; infer_instance

theorem declareFuncBody_from {s : Analysis} {id fn : Nat} (hd : Declares fn id s) (hnew : s.funcs.get? fn = none) :
    WalksFrom s (declareFuncBody self id fn) := by
  intro hs
  obtain ⟨sym, hsym, hfn, rfl⟩ := hd.elim fun sym h => (⟨sym, h⟩ : Declares fn id s)
  unfold declareFuncBody
  refine WalksFrom.node_bind (fun n hn => ?_) hs
  refine .get_bind (.bind (.modifyGet fun _ => .single (.arrange rfl rfl rfl ⟨rfl, rfl, rfl, rfl⟩ ?_)) fun fs s₁ hfs h₁ => ?_)
  · exact ScopeTable.keeps_addScope rfl (fun _ => hs.scope) fun _ _ => ⟨sym, hsym, hfn⟩
  · have hscope : s₁.result.scopes.scope? fs = some
        { kind := .function, parent := s.scope, span := n.span, func := fn, anonymous := n.name = "" } := by
      cases hfs
      exact (ScopeTable.scope?_addScope ..).trans (if_pos rfl)
    have hframe : Frames fs n.list.length s₁ := by
      refine ⟨_, hscope, rfl, ?_⟩
      cases hfs
      change n.list.length ≤ s.result.scopes.paramCount s.result.tree fn
      simp [ScopeTable.paramCount, hsym, hn]
    have hnew₁ : s₁.funcs.get? fn = none := by
      cases hfs
      exact hnew
    refine .bind (.modify fun _ => .single (.arrange rfl rfl rfl ⟨rfl, rfl, rfl, rfl⟩ (ScopeTable.keeps_setBody hscope rfl rfl)))
      fun _ s₂ e₂ h₂ => ?_
    have hnew₂ : s₂.funcs.get? fn = none := by
      cases e₂
      exact hnew₁
    have hd₂ : Declares fn sym.decl s₂ := hd.mono (h₁.trans h₂).tables
    refine .bind (.modify fun _ => .single (.learn fn _ rfl rfl rfl rfl (.body hd₂ hnew₂))) fun _ s₃ _ h₃ => ?_
    have hfs₃ : Steps s₁ s₃ := h₂.trans h₃
    have hframe₃ := frames_lasting _ _ _ _ (h₁.sound hs) hfs₃ hframe
    refine outsideLoops_from fun s₄ h₄ _ _ => withScope_from ?_ fun s₅ h₅ _ _ => ?_
    · exact Nat.le_trans (ScopeTable.scope?_lt hscope).2 (ScopeTable.grows_size (hfs₃.trans h₄).tables)
    · have hJ := frames_lasting fs n.list.length
      have hframe₅ := hJ _ _ ((h₁.trans hfs₃).sound hs) (h₄.trans h₅) hframe₃
      refine WalksUnder.seq hJ (.forIn hJ _ _ fun x hx r => .seq hJ (fun s' hs' => ?_) fun _ => .of_walks) (fun _ => ?_) s₅ hframe₅
      · obtain ⟨sc, hsc, hk, hle⟩ := hs'
        have hi : x.2 < n.list.length := by
          have := List.snd_lt_of_mem_zipIdx hx
          simpa using this
        exact declareParam_under self fs x.1 x.2 s' ⟨sc, hsc, hk, Nat.le_trans hi hle⟩
      · exact .of_walks

/-- A variable is entered in the scope. A static variable of a function is noted for early initialization at once. -/
theorem enterLet_from {s : Analysis} {id : NodeId} {n : Node} {sym : Symbol} (hn : s.result.tree.get? id = some n)
    (hb : sym.body = 0) (hk : sym.kind = .var) (hd : sym.decl = id) (ho : sym.origin = 0)
    (ha : sym.attrs = Attrs.ofFlags n.flags) (hgen : n.isGeneric = true → sym.storage = .none)
    (hst : n.isGeneric = false → (Attrs.ofFlags n.flags).has .static = true → ∃ slot, sym.storage = .global slot)
    (hf : Fits s.result.tree s.result.scopes s.scope sym.storage) : WalksFrom s (do
      match ← bindSymbol sym with
      | .error prev => reportRedeclared n.name n.span prev
      | .ok symId => do
        setDecl id symId
        if n.isGeneric then return
        if (Attrs.ofFlags n.flags).has .static && (← inFunction) then
          modifyResult fun r => { r with statics := r.statics ++ [{ symbol := symId, init := n.b }] }
        self n.a
        self n.b) := by
  unfold bindSymbol bindIn
  rw [bind_assoc]
  refine .get_bind ?_
  rw [bind_assoc]
  refine .bind .inst fun tab s₁ htab _ => ?_
  cases htab
  split
  · rename_i symId tab hdecl
    have hbut (hs : Sound s) : ScopeTable.KeepsBut symId s.result.tree s.result.scopes tab :=
      ScopeTable.keepsBut_declare hdecl hb (fun _ => hs.scope) (fun _ h => by rw [hk] at h; cases h) fun _ => hf
    obtain ⟨hnew, hfresh⟩ := ScopeTable.symbol?_declare hdecl
    by_cases hdef : Deferred tab { sym with scope := s.scope }
    · have hstatic : (Attrs.ofFlags n.flags).has .static = true ∧ tab.funcScope s.scope ≠ 0 := by
        obtain ⟨-, -, h | h⟩ := hdef
        · exact absurd ho h
        · exact ⟨ha ▸ h.1, h.2⟩
      have hgeneric : ¬n.isGeneric = true := fun h => hdef.storage_ne (hgen h)
      -- nothing is a step before the variable is noted
      refine (?_ : WalksVia s s _)
      refine .bind rfl (.bind rfl ?_)
      rw [if_neg hgeneric]
      refine .bind rfl ?_
      rw [if_pos (by simp [hstatic.1, hstatic.2])]
      refine .bind rfl (.land (fun hs => ?_) .inst)
      exact .defer ⟨symId, n.b⟩ rfl rfl rfl rfl rfl rfl rfl (hbut hs) (fun sym' h => by rw [hfresh] at h; cases h)
        ⟨_, n, hnew, hdef, hd ▸ hn, rfl⟩
    · refine .bind (.bind (.modify fun hs => .single (.arrange rfl rfl rfl ⟨rfl, rfl, rfl, rfl⟩ ?_)) fun _ s' _ _ => .pure _)
        fun r s₁ hr _ => ?_
      · refine (hbut hs).keeps fun _ sym' h => ?_
        rw [hnew] at h
        cases h
        exact hdef
      · cases hr
        dsimp only
        refine .bind .inst fun _ s₂ h₂ _ => ?_
        cases h₂
        refine .ite (fun _ => .inst) fun hgeneric => .bind .inst fun b s₃ h₃ _ => ?_
        cases h₃
        refine .ite (fun hboth => absurd ?_ hdef) fun _ => .inst
        simp only [Bool.and_eq_true, decide_eq_true_eq] at hboth
        exact ⟨hk, hst (Bool.eq_false_iff.2 hgeneric) hboth.1, .inr ⟨ha ▸ hboth.1, hboth.2⟩⟩
  · refine .bind (.pure _) fun r s₁ hr _ => ?_
    cases hr
    exact .inst

theorem declareLet_from {s : Analysis} {id : NodeId} {n : Node} (hn : s.result.tree.get? id = some n) :
    WalksFrom s (declareLet self id n) := by
  unfold declareLet
  refine .bind .inst fun name s₁ h₁ _ => ?_
  cases h₁
  refine .ite (fun hgen => ?_) fun hgen => ?_
  · exact enterLet_from self hn rfl rfl rfl rfl rfl (fun _ => rfl) (fun h => by rw [hgen] at h; cases h) .none
  · refine newStorage_bind fun storage s₂ _ _ htree hst hfit => ?_
    refine .bind .inst fun b s₃ hb _ => ?_
    cases hb
    refine .ite (fun _ => .bind .inst fun seq s₄ hseq _ => ?_) fun _ => .bind .inst fun seq s₄ hseq _ => ?_
    all_goals
      cases hseq
      exact enterLet_from self (htree ▸ hn) rfl rfl rfl rfl rfl (fun h => absurd h hgen) (fun _ => hst) hfit

/-- A candidate is entered in the scope, and its body is declared unless it is a template. -/
theorem enterCandidate_under (id : NodeId) (n : Node) (sym : Symbol) (hb : sym.body = 0) (hst : sym.storage = .none)
    (hd : sym.decl = id) (hk : sym.kind = .function) : WalksUnder (IsFunc id) (do
      let s ← get
      match s.result.scopes.declareCandidate s.scope sym with
      | .error prev => reportRedeclared n.name n.span prev
      | .ok (symId, scopes) => do
        modifyResult fun r => { r with scopes, funcs := r.funcs.insert id symId }
        if !n.isGeneric then declareFuncBody self id symId) := by
  rintro s ⟨m, hm, hmk⟩ hs
  refine WalksFrom.get_bind ?_ hs
  split
  · exact .inst
  · rename_i fn tab hcand
    refine .bind (.modify fun _ => .single (.arrange rfl rfl rfl ⟨rfl, rfl, rfl, rfl⟩ ?_)) fun _ s₁ h₁ _ => ?_
    · exact ScopeTable.keeps_declareCandidate hcand hb hst hs.scope fun _ => ⟨m, hd ▸ hm, hmk⟩
    · cases h₁
      obtain ⟨hfresh, sym', hsym', hk', hd'⟩ := ScopeTable.symbol?_declareCandidate hcand
      refine .ite (fun _ => declareFuncBody_from self ?_ (hs.unknown hfresh)) fun _ => .inst
      exact ⟨sym', hsym', hk'.trans hk, hd'.trans hd⟩

theorem declareFunc_under (id : NodeId) (n : Node) : WalksUnder (IsFunc id) (declareFunc self id n) := by
  have hJ := isFunc_lasting id
  unfold declareFunc
  refine .bind hJ fun name => .ite (fun _ => .bind hJ fun handle => ?_) fun _ => .bind hJ fun handle => ?_
  · exact enterCandidate_under self id n _ rfl rfl rfl rfl
  · exact enterCandidate_under self id n _ rfl rfl rfl rfl

theorem declareLiteral_under (id : NodeId) (n : Node) : WalksUnder (IsFunc id) (declareLiteral self id n) := by
  have hJ := isFunc_lasting id
  unfold declareLiteral
  refine .bind hJ fun name s hfunc hs => ?_
  obtain ⟨m, hm, hmk⟩ := hfunc
  refine WalksFrom.get_bind (.bind (.modifyGet fun _ => .single (.arrange rfl rfl rfl ⟨rfl, rfl, rfl, rfl⟩ ?_)) fun fn s₁ h₁ _ => ?_) hs
  · exact ScopeTable.keeps_addSymbol rfl (fun _ => hs.scope) (fun _ _ => ⟨m, hm, hmk⟩) (fun _ => .none)
      (ScopeTable.not_deferred_of_storage rfl)
  · refine .bind (.modify fun _ => steps_note rfl rfl rfl rfl ⟨rfl, rfl, rfl, rfl⟩) fun _ s₂ h₂ _ => ?_
    cases h₁
    cases h₂
    refine declareFuncBody_from self ?_ (hs.unknown (ScopeTable.symbol?_fresh s.result.scopes default))
    exact ⟨_, (ScopeTable.symbol?_addSymbol ..).trans (if_pos rfl), rfl, rfl⟩

/-! ## The other declarations -/

/-- A return statement is recorded for the function around it. -/
theorem declareReturn_from {s : Analysis} {id : NodeId} {n : Node} (hn : s.result.tree.get? id = some n)
    (hk : n.kind = .returnStmt) : WalksFrom s (declareReturn self id n) := by
  unfold declareReturn
  refine .get_bind (.ite (fun _ => .inst) fun _ => .bind .inst fun fs s₁ h₁ _ => ?_)
  obtain rfl := scopeInfo_ok h₁
  dsimp only
  split
  · rename_i info hinfo
    refine .bind (.modify fun _ => .single (.learn fs.func _ rfl rfl rfl rfl (.returns hinfo hn hk))) fun _ _ _ _ => .inst
  · exact .inst

instance (id : NodeId) (n : Node) : Walks (declareTypeDecl self id n) := by
  unfold declareTypeDecl
  refine Walks.bind fun name => Walks.seq (bindSymbol_plain rfl nofun rfl) fun r => ?_
  split <;> infer_instance

/-- A scope that the table has. -/
def Placed (scope : Nat) (s : Analysis) : Prop := scope ≤ s.result.scopes.scopes.size

theorem placed_lasting (scope : Nat) : Lasting (Placed scope) :=
  fun _ _ _ hsteps h => Nat.le_trans h (ScopeTable.grows_size hsteps.tables)

theorem declareVariant_under (union : SymbolId) (ns : ScopeId) (attrs : Attrs) (v : NodeId) (tag : Nat) :
    WalksUnder (Placed ns) (declareVariant self union ns attrs v tag) := by
  have hJ := placed_lasting ns
  unfold declareVariant
  refine .bind hJ fun vn => .bind hJ fun s => .bind hJ fun _ => .seq hJ .of_walks fun _ => .bind hJ fun name => ?_
  intro s hns
  refine .bind .inst fun tab s₁ htab _ => ?_
  cases htab
  split
  · rename_i id tab hdecl
    refine .modify fun _ => .single (.arrange rfl rfl rfl ⟨rfl, rfl, rfl, rfl⟩ ?_)
    exact ScopeTable.keeps_declare hdecl rfl (fun _ => hns) (fun _ h => by cases h) (fun _ => .none)
      (ScopeTable.not_deferred_of_storage rfl)
  · exact .inst

instance (id : NodeId) (n : Node) : Walks (declareUnion self id n) := by
  unfold declareUnion
  refine Walks.bind fun name => Walks.seq (bindSymbol_plain rfl nofun rfl) fun r => ?_
  split
  · infer_instance
  · refine Walks.bind fun _ => ⟨fun s hs => ?_⟩
    refine WalksFrom.get_bind (.bind (.modifyGet fun _ => .single (.arrange rfl rfl rfl ⟨rfl, rfl, rfl, rfl⟩ ?_)) fun ns s₁ h₁ _ => ?_) hs
    · exact ScopeTable.keeps_openNamespace hs.scope n.name n.span
    · have hns : Placed ns s₁ := by
        cases h₁
        exact ScopeTable.openNamespace_le hs.laid n.name n.span
      have hJ := placed_lasting ns
      refine WalksUnder.seq hJ (.forIn hJ _ _ fun x _ r => ?_) (fun _ => .of_walks) s₁ hns
      exact .seq hJ (declareVariant_under self _ ns _ x.1 x.2) fun _ => .of_walks

instance (id : NodeId) : Walks (declareArm self id) := by unfold declareArm; infer_instance

instance (id : NodeId) (n : Node) : Walks (declareMatch self id n) := by
  unfold declareMatch
  refine Walks.bind fun _ => Walks.seq (Walks.forIn _ _ fun c r => Walks.bind fun _ => ?_) fun _ => inferInstance
  exact Walks.seq (Walks.note fun _ => ⟨rfl, rfl, rfl, rfl⟩) fun _ => inferInstance

instance (id : NodeId) (n : Node) : Walks (declareFor self id n) := by unfold declareFor; infer_instance

instance (id : NodeId) (n : Node) : Walks (declareForeach self id n) := by
  have (key : SymbolId) : Walks (modifyResult fun r => { r with keys := r.keys.insert id key }) :=
    Walks.noteResult fun _ => ⟨rfl, rfl, rfl, rfl, rfl⟩
  unfold declareForeach
  infer_instance

instance (id : NodeId) (n : Node) : Walks (declareBlock self id n) := by
  unfold declareBlock
  exact Walks.bind fun block => Walks.note fun _ => ⟨rfl, rfl, rfl, rfl⟩

instance (n : Node) : Walks (declareNamespace self n) := by
  refine ⟨fun s hs => ?_⟩
  unfold declareNamespace
  refine WalksFrom.get_bind (.bind (.modifyGet fun _ => .single (.arrange rfl rfl rfl ⟨rfl, rfl, rfl, rfl⟩ ?_)) fun ns s₁ h₁ _ => ?_) hs
  · exact ScopeTable.keeps_openNamespace hs.scope n.name n.span
  · refine withScope_from ?_ fun s₂ _ _ _ => .inst
    cases h₁
    exact ScopeTable.openNamespace_le hs.laid n.name n.span

omit hself in
instance (n : Node) : Walks (declareImport n) := by
  unfold declareImport
  refine Walks.bind fun s => Walks.modifyScopes fun _ _ => ?_
  exact ScopeTable.keeps_modifyScope fun _ => ⟨⟨rfl, rfl, rfl, Nat.le_refl _, Nat.le_refl _⟩, rfl⟩

/-- The node that is declared is at hand, so that a function is known to be one. -/
theorem declareKind_from {s : Analysis} {id : NodeId} {n : Node} (hn : s.result.tree.get? id = some n) :
    WalksFrom s (declareKind self id n) := by
  unfold declareKind
  split
  case h_5 => exact declareLet_from self hn
  case h_6 hk =>
    refine .ite (fun _ => declareLiteral_under self id n s ⟨n, hn, hk⟩) fun _ => ?_
    exact declareFunc_under self id n s ⟨n, hn, hk⟩
  case h_16 hk => exact declareReturn_from self hn hk
  all_goals exact .inst

instance (id : NodeId) : Walks (declareStep self id) := by
  refine ⟨fun s => ?_⟩
  unfold declareStep
  refine .get_bind (.ite (fun _ => .inst) fun _ => .node_bind fun n hn => ?_)
  refine .bind (.modify fun _ => steps_note rfl rfl rfl rfl ⟨rfl, rfl, rfl, rfl⟩) fun _ s₁ h₁ _ => .get_bind ?_
  refine .bind .inst fun _ s₂ h₂ _ => ?_
  cases h₁
  cases h₂
  refine .bind (declareKind_from self hn) fun _ s₃ _ _ => ?_
  exact .modify fun _ => steps_note rfl rfl rfl rfl ⟨rfl, rfl, rfl, rfl⟩

end Steps

theorem declareWith_walks (fuel : Nat) : ∀ id, Walks (declareWith fuel id) := by
  induction fuel with
  | zero => exact fun id => inferInstanceAs (Walks (throw _))
  | succ fuel ih => exact fun id => inferInstanceAs (Walks (declareStep (declareWith fuel) id))

instance (id : NodeId) : Walks (declare id) := by
  unfold declare
  exact Walks.bind fun t => declareWith_walks _ id

end TreeCompiler.Analysis
