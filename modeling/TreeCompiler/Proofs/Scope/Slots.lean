import TreeCompiler.Proofs.Scope.Layout
import TreeCompiler.Proofs.Tree.Formed

/-!
# Frame slots that are taken and given back

A frame has a height, and a new variable takes the slot at this height. A block gives the slots of its variables back, so two
variables of a function may have one slot. What follows is about the variables that are seen from one place.

* `Seen` : a variable with a frame slot, in a scope around a place and declared before a point of the order;
* `Apart` : the variables of one function that are seen have different slots;
* `Allotted` : the two kinds of places in a frame, for arguments and for other variables;
* `Builds fn` : a change that moves nothing, apart from the height of the frame of `fn`; `Adds P` : one of no frame, with new
  symbols of which `P` holds; `Plain` : one by which no variable gets a slot;
* `enterBlock_addScope` : a new block notes the height of the frame.
-/

namespace TreeCompiler

namespace ScopeTable

variable {tab tab' : ScopeTable}

/-! ## Chains -/

theorem chain_eq (ho : tab.Ordered) {id : Nat} {sc : Scope} (h : tab.scope? id = some sc) :
    tab.chain id = id :: tab.chain sc.parent := by
  have hlt := ho id sc h
  have hle := (scope?_lt h).2
  have hfuel : tab.chainAux tab.scopes.size sc.parent = tab.chainAux (tab.scopes.size + 1) sc.parent :=
    chainAux_grows ho (.refl tab) sc.parent (by omega) _ _ (by omega) (by omega)
  rw [chain, chainAux, h]
  exact congrArg (id :: ·) hfuel

theorem le_of_mem_chainAux (ho : tab.Ordered) {fuel id k : Nat} (h : k ∈ tab.chainAux fuel id) : k ≤ id := by
  induction fuel generalizing id with
  | zero => cases h
  | succ fuel ih =>
    unfold chainAux at h
    split at h
    · cases h
    · rename_i sc hsc
      have hlt := ho id sc hsc
      rcases List.mem_cons.1 h with rfl | h
      · exact Nat.le_refl _
      · have hk : k ≤ sc.parent := ih h
        omega

/-- A scope is no older than those around it. -/
theorem le_of_mem_chain (ho : tab.Ordered) {id k : Nat} (h : k ∈ tab.chain id) : k ≤ id := le_of_mem_chainAux ho h

theorem chain_grows (ho : tab.Ordered) (hg : tab.Grows tab') {id : Nat} (h : id ≤ tab.scopes.size) :
    tab'.chain id = tab.chain id := by
  have hs := grows_size hg
  exact chainAux_grows ho hg id h _ _ (by omega) (by omega)

/-- The function around a scope, read off from the scope and the one around it. -/
theorem funcScope_eq (ho : tab.Ordered) {id : Nat} {sc : Scope} (h : tab.scope? id = some sc) :
    tab.funcScope id = if sc.kind = .function then id else if sc.kind = .nameSpace then 0 else tab.funcScope sc.parent := by
  have hkind : tab.scopeKind id = sc.kind := by simp [scopeKind, h]
  rw [funcScope, chain_eq ho h, List.find?_cons]
  by_cases hf : sc.kind = .function
  · simp [hkind, hf]
  · by_cases hn : sc.kind = .nameSpace
    · simp [hkind, hn]
    · simp only [hkind, hf, hn, decide_false, Bool.or_false, if_false]
      rfl

/-- Namespaces are noted in the scope around them. -/
def Spaces (tab : ScopeTable) : Prop :=
  ∀ (id : Nat) sc, tab.scope? id = some sc → ∀ p ∈ sc.namespaces,
    ∃ ns, tab.scope? p.2 = some ns ∧ ns.kind = .nameSpace ∧ ns.parent = id

/-- A change of one scope that leaves it where it is. -/
theorem Ordered.modifyScope (ho : tab.Ordered) (id : ScopeId) {f : Scope → Scope} (hf : ∀ s : Scope, (f s).parent = s.parent) :
    (tab.modifyScope id f).Ordered := by
  intro k sc' h
  rw [scope?_modifyScope] at h
  split at h
  · obtain ⟨sc, hsc, rfl⟩ := Option.map_eq_some_iff.1 h
    rw [hf sc]
    exact ho k sc hsc
  · exact ho k sc' h

/-- A change of one scope; the namespaces that it notes may become more. -/
theorem Spaces.modifyScope (hsp : tab.Spaces) {id : ScopeId} {f : Scope → Scope}
    (hf : ∀ s : Scope, (f s).kind = s.kind ∧ (f s).parent = s.parent)
    (hn : ∀ s : Scope, ∀ p ∈ (f s).namespaces, p ∈ s.namespaces ∨
      ∃ ns, tab.scope? p.2 = some ns ∧ ns.kind = .nameSpace ∧ ns.parent = id) : (tab.modifyScope id f).Spaces := by
  have keep {k ns : Nat} {s : Scope} (hs : tab.scope? ns = some s) (hk : s.kind = .nameSpace) (hp : s.parent = k) :
      ∃ s', (tab.modifyScope id f).scope? ns = some s' ∧ s'.kind = .nameSpace ∧ s'.parent = k := by
    rw [scope?_modifyScope, hs]
    split
    · exact ⟨f s, rfl, (hf s).1.trans hk, (hf s).2.trans hp⟩
    · exact ⟨s, rfl, hk, hp⟩
  have old {k : Nat} {sc : Scope} (hsc : tab.scope? k = some sc) {p : NameId × ScopeId} (hp : p ∈ sc.namespaces) :
      ∃ s', (tab.modifyScope id f).scope? p.2 = some s' ∧ s'.kind = .nameSpace ∧ s'.parent = k := by
    obtain ⟨s, hs, hkind, hparent⟩ := hsp k sc hsc p hp
    exact keep hs hkind hparent
  intro k sc' h p hp
  rw [scope?_modifyScope] at h
  split at h
  · rename_i hk
    subst hk
    obtain ⟨sc, hsc, rfl⟩ := Option.map_eq_some_iff.1 h
    rcases hn sc p hp with hp | ⟨s, hs, hkind, hparent⟩
    · exact old hsc hp
    · exact keep hs hkind hparent
  · exact old h hp

/-! ## Variables that are seen from a place -/

structure Seen (tab : ScopeTable) (origin : ScopeId) (seq : Nat) (off : Int) (v : SymbolId) (sym : Symbol) : Prop where
  here : tab.symbol? v = some sym
  frame : sym.storage = .frame off
  around : sym.scope ∈ tab.chain origin
  early : sym.seq ≤ seq

/-- Of one function, no two variables that are seen have the same place in the frame. -/
def Apart (tab : ScopeTable) (origin : ScopeId) (seq : Nat) : Prop :=
  ∀ off v w a b, Seen tab origin seq off v a → Seen tab origin seq off w b →
    tab.funcScope a.scope = tab.funcScope b.scope → v = w

/-- From further out, or earlier, less is seen. -/
theorem Apart.mono {origin origin' : ScopeId} {seq seq' : Nat} (h : Apart tab origin seq)
    (hsub : ∀ off v sym, Seen tab origin' seq' off v sym → Seen tab origin seq off v sym) : Apart tab origin' seq' :=
  fun off v w a b hv hw => h off v w a b (hsub off v a hv) (hsub off w b hw)

/-- Where a variable lies in the frame of its function: in one of the slots that `maxStack` counts, or as an argument at the
position of its parameter. -/
inductive Allotted (t : Tree) (tab : ScopeTable) (sym : Symbol) : Int → Prop
  | slot {sc : Scope} {off : Int} (hkind : t.kind sym.decl ≠ .param)
      (hfn : tab.scope? (tab.funcScope sym.scope) = some sc) (hle : off ≤ 0) (hlt : -off < sc.maxStack) : Allotted t tab sym off
  | arg {sc : Scope} {fn : Symbol} {n : Node} {i : Nat} (hkind : t.kind sym.decl = .param)
      (hsc : tab.scope? sym.scope = some sc) (hfunction : sc.kind = .function) (hfn : tab.symbol? sc.func = some fn)
      (hn : t.get? fn.decl = some n) (hi : n.list[i]? = some sym.decl) : Allotted t tab sym (Storage.argOffset i)

namespace Allotted

variable {t : Tree} {sym : Symbol} {off : Int}

theorem func (h : Allotted t tab sym off) : tab.funcScope sym.scope ≠ 0 := by
  cases h with
  | slot _ hfn _ _ =>
    intro h0
    rw [h0] at hfn
    cases hfn
  | arg _ hsc hfunction _ _ _ =>
    rw [funcScope_self hsc hfunction]
    exact Nat.ne_of_gt (scope?_lt hsc).1

theorem place (h : Allotted t tab sym off) : sym.scope ≤ tab.scopes.size := by
  obtain ⟨sc, hsc⟩ := scope?_of_funcScope h.func
  exact (scope?_lt hsc).2

/-- An argument lies above the frame, in the scope of the function itself. -/
theorem of_pos (h : Allotted t tab sym off) (hpos : 0 < off) : tab.funcScope sym.scope = sym.scope := by
  cases h with
  | slot _ _ hle _ => omega
  | arg _ hsc hfunction _ _ _ => exact funcScope_self hsc hfunction

end Allotted

/-! ## Changes -/

/-- Nothing moves, and no frame changes its height apart from that of `fn`. -/
structure Builds (fn : ScopeId) (tab tab' : ScopeTable) : Prop where
  grows : tab.Grows tab'
  tops : ∀ id sc sc', tab.scope? id = some sc → tab'.scope? id = some sc' →
    sc'.stackBase = sc.stackBase ∧ (id ≠ fn → sc'.stackTop = sc.stackTop)
  places : ∀ v sym sym', tab.symbol? v = some sym → tab'.symbol? v = some sym' →
    sym'.storage = sym.storage ∧ sym'.seq = sym.seq

namespace Builds

variable {fn : ScopeId}

theorem refl (fn : ScopeId) (tab : ScopeTable) : Builds fn tab tab where
  grows := .refl tab
  tops id sc sc' h h' := by
    cases h.symm.trans h'
    exact ⟨rfl, fun _ => rfl⟩
  places v sym sym' h h' := by
    cases h.symm.trans h'
    exact ⟨rfl, rfl⟩

theorem trans {a b c : ScopeTable} (h₁ : Builds fn a b) (h₂ : Builds fn b c) : Builds fn a c where
  grows := h₁.grows.trans h₂.grows
  tops id sc sc'' h h'' := by
    obtain ⟨sc', h', -⟩ := h₁.grows.scopes id sc h
    obtain ⟨hbase₁, htop₁⟩ := h₁.tops id sc sc' h h'
    obtain ⟨hbase₂, htop₂⟩ := h₂.tops id sc' sc'' h' h''
    exact ⟨hbase₂.trans hbase₁, fun hne => (htop₂ hne).trans (htop₁ hne)⟩
  places v sym sym'' h h'' := by
    obtain ⟨sym', h', -⟩ := h₁.grows.symbols v sym h
    obtain ⟨hst₁, hseq₁⟩ := h₁.places v sym sym' h h'
    obtain ⟨hst₂, hseq₂⟩ := h₂.places v sym' sym'' h' h''
    exact ⟨hst₂.trans hst₁, hseq₂.trans hseq₁⟩

/-- A change of no frame at all. -/
theorem of_still (h : Builds 0 tab tab') (fn : ScopeId) : Builds fn tab tab' where
  grows := h.grows
  tops id sc sc' hsc hsc' := by
    obtain ⟨hbase, htop⟩ := h.tops id sc sc' hsc hsc'
    have hpos := (scope?_lt hsc).1
    exact ⟨hbase, fun _ => htop (Nat.ne_of_gt hpos)⟩
  places := h.places

theorem chain (h : Builds fn tab tab') (ho : tab.Ordered) {id : Nat} (hid : id ≤ tab.scopes.size) :
    tab'.chain id = tab.chain id := chain_grows ho h.grows hid

theorem funcScope (h : Builds fn tab tab') (ho : tab.Ordered) {id : Nat} (hid : id ≤ tab.scopes.size) :
    tab'.funcScope id = tab.funcScope id := funcScope_grows ho h.grows hid

/-- A symbol that was there is still what it was. -/
theorem symbol (h : Builds fn tab tab') {v : SymbolId} {sym sym' : Symbol} (hs : tab.symbol? v = some sym)
    (hs' : tab'.symbol? v = some sym') : sym.Grows sym' := by
  obtain ⟨sym₁, hs₁, g⟩ := h.grows.symbols v sym hs
  cases hs'.symm.trans hs₁
  exact g

/-- What is seen from an old place and was there has been seen before. -/
theorem seen (h : Builds fn tab tab') (ho : tab.Ordered) {origin seq off v} {sym sym' : Symbol}
    (hle : origin ≤ tab.scopes.size) (hv : Seen tab' origin seq off v sym') (hold : tab.symbol? v = some sym) :
    Seen tab origin seq off v sym := by
  have g := h.symbol hold hv.here
  obtain ⟨hst, hseq⟩ := h.places v sym sym' hold hv.here
  refine ⟨hold, hst ▸ hv.frame, ?_, hseq ▸ hv.early⟩
  rw [← g.scope, ← h.chain ho hle]
  exact hv.around

/-- One new variable may come into sight. -/
theorem apart_new (h : Builds fn tab tab') (ho : tab.Ordered) {origin seq} {id : SymbolId} (hle : origin ≤ tab.scopes.size)
    (hold : ∀ off v sym', Seen tab' origin seq off v sym' → (∃ sym, tab.symbol? v = some sym) ∨ v = id)
    (hclash : ∀ off w a b, Seen tab' origin seq off id a → Seen tab origin seq off w b →
      tab.funcScope b.scope ≠ tab'.funcScope a.scope)
    (ha : Apart tab origin seq) : Apart tab' origin seq := by
  have func {off v} {sym sym' : Symbol} (hv : Seen tab' origin seq off v sym') (hsym : tab.symbol? v = some sym) :
      tab'.funcScope sym'.scope = tab.funcScope sym.scope := by
    have hs := h.seen ho hle hv hsym
    rw [(h.symbol hsym hv.here).scope]
    exact h.funcScope ho (Nat.le_trans (le_of_mem_chain ho hs.around) hle)
  intro off v w a' b' hv hw hfn
  rcases hold off v a' hv with ⟨a, hva⟩ | rfl
  · have hsa := h.seen ho hle hv hva
    rcases hold off w b' hw with ⟨b, hwb⟩ | rfl
    · rw [func hv hva, func hw hwb] at hfn
      exact ha off v w a b hsa (h.seen ho hle hw hwb) hfn
    · rw [func hv hva] at hfn
      exact absurd hfn (hclash off v b' a hw hsa)
  · rcases hold off w b' hw with ⟨b, hwb⟩ | rfl
    · rw [func hw hwb] at hfn
      exact absurd hfn.symm (hclash off w a' b hv (h.seen ho hle hw hwb))
    · rfl

/-- When nothing new is seen from an old place, what is seen is apart as before. -/
theorem apart (h : Builds fn tab tab') (ho : tab.Ordered) {origin seq} (hle : origin ≤ tab.scopes.size)
    (hold : ∀ off v sym', Seen tab' origin seq off v sym' → ∃ sym, tab.symbol? v = some sym)
    (ha : Apart tab origin seq) : Apart tab' origin seq :=
  -- no symbol has the number 0
  have none (off : Int) (w : SymbolId) (a b : Symbol) (hv : Seen tab' origin seq off 0 a) (_ : Seen tab origin seq off w b) :
      tab.funcScope b.scope ≠ tab'.funcScope a.scope := by cases hv.here
  h.apart_new ho hle (fun off v sym' hv => .inl (hold off v sym' hv)) none ha

theorem allotted (h : Builds fn tab tab') (ho : tab.Ordered) {t : Tree} {sym sym' : Symbol} {off : Int}
    (g : sym.Grows sym') (ha : Allotted t tab sym off) : Allotted t tab' sym' off := by
  have hle := ha.place
  cases ha with
  | slot hkind hfn hle' hlt =>
    obtain ⟨sc', hsc', gs⟩ := h.grows.scopes _ _ hfn
    have hfn' : tab'.scope? (tab'.funcScope sym'.scope) = some sc' := by
      rw [g.scope, h.funcScope ho hle]
      exact hsc'
    have hmax := gs.maxStack
    exact .slot (g.decl ▸ hkind) hfn' hle' (by omega)
  | arg hkind hsc hfunction hfn hn hi =>
    obtain ⟨sc', hsc', gs⟩ := h.grows.scopes _ _ hsc
    obtain ⟨fn', hfn', gf⟩ := h.grows.symbols _ _ hfn
    exact .arg (g.decl ▸ hkind) (g.scope ▸ hsc') (gs.kind.trans hfunction) (gs.func ▸ hfn') (gf.decl ▸ hn) (g.decl ▸ hi)

/-- A change of the frame of one scope. -/
theorem modifyFrame {id : ScopeId} {f : Scope → Scope} (hf : ∀ s : Scope, s.Grows (f s) ∧ (f s).stackBase = s.stackBase) :
    Builds id tab (tab.modifyScope id f) where
  grows := grows_modifyScope fun sc _ => (hf sc).1
  tops k sc sc' h h' := by
    rw [scope?_modifyScope, h] at h'
    split at h'
    · rename_i hk
      cases h'
      exact ⟨(hf sc).2, fun hne => absurd hk hne⟩
    · cases h'
      exact ⟨rfl, fun _ => rfl⟩
  places v sym sym' h h' := by
    rw [symbol?_modifyScope, h] at h'
    cases h'
    exact ⟨rfl, rfl⟩

end Builds

/-- Scopes and symbols may be added, and `P` holds of each new symbol. -/
structure Adds (P : SymbolId → Symbol → Prop) (tab tab' : ScopeTable) : Prop where
  builds : Builds 0 tab tab'
  ordered : tab.Ordered → tab'.Ordered
  spaces : tab.Spaces → tab'.Spaces
  fresh : ∀ v sym', tab'.symbol? v = some sym' → (∃ sym, tab.symbol? v = some sym) ∨ P v sym'

/-- The symbol is no parameter and has no slot. -/
def Bare (t : Tree) (sym : Symbol) : Prop := (∀ off, sym.storage ≠ .frame off) ∧ t.kind sym.decl ≠ .param

/-- No variable gets a slot, and no parameter is bound. -/
abbrev Plain (t : Tree) (tab tab' : ScopeTable) : Prop := Adds (fun _ sym => Bare t sym) tab tab'

namespace Adds

variable {P : SymbolId → Symbol → Prop} {t : Tree}

/-- The second change is one of scopes only. -/
theorem andThen {Q : SymbolId → Symbol → Prop} {a b c : ScopeTable} (h₁ : Adds P a b) (h₂ : Adds Q b c)
    (same : ∀ v, c.symbol? v = b.symbol? v) : Adds P a c where
  builds := h₁.builds.trans h₂.builds
  ordered h := h₂.ordered (h₁.ordered h)
  spaces h := h₂.spaces (h₁.spaces h)
  fresh v sym' h := h₁.fresh v sym' ((same v).symm.trans h)

theorem trans {a b c : ScopeTable} (h₁ : Plain t a b) (h₂ : Plain t b c) : Plain t a c where
  builds := h₁.builds.trans h₂.builds
  ordered h := h₂.ordered (h₁.ordered h)
  spaces h := h₂.spaces (h₁.spaces h)
  fresh v sym'' h'' := by
    rcases h₂.fresh v sym'' h'' with ⟨sym', h'⟩ | hbare
    · refine (h₁.fresh v sym' h').imp_right fun hbare => ?_
      obtain ⟨hst, -⟩ := h₂.builds.places v sym' sym'' h' h''
      unfold Bare
      rw [hst, (h₂.builds.symbol h' h'').decl]
      exact hbare
    · exact .inr hbare

/-- Names and global slots have no part in it. -/
theorem of_eq (hsc : tab'.scopes = tab.scopes) (hsym : tab'.symbols = tab.symbols) (hg : tab.globals ≤ tab'.globals) :
    Adds P tab tab' := by
  have hs (id : Nat) : tab'.scope? id = tab.scope? id := by simp [scope?, hsc]
  have hy (id : Nat) : tab'.symbol? id = tab.symbol? id := by simp [symbol?, hsym]
  refine ⟨⟨⟨fun id sc h => ⟨sc, (hs id).trans h, .refl sc⟩, fun id sym h => ⟨sym, (hy id).trans h, .refl sym⟩, hg⟩,
    fun id sc sc' h h' => ?_, fun v sym sym' h h' => ?_⟩, fun ho id sc h => ho id sc ((hs id).symm.trans h),
    fun hsp id sc h p hp => ?_, fun v sym' h => .inl ⟨sym', (hy v).symm.trans h⟩⟩
  · rw [hs, h] at h'
    cases h'
    exact ⟨rfl, fun _ => rfl⟩
  · rw [hy, h] at h'
    cases h'
    exact ⟨rfl, rfl⟩
  · rw [hs]
    exact hsp id sc ((hs id).symm.trans h) p hp

theorem refl (P : SymbolId → Symbol → Prop) (tab : ScopeTable) : Adds P tab tab := of_eq rfl rfl (Nat.le_refl _)

theorem addScope {s : Scope} (hp : s.parent ≤ tab.scopes.size) (hn : s.namespaces = []) :
    Adds P tab (tab.addScope s).2 := by
  refine ⟨⟨grows_addScope tab s, fun id sc sc' h h' => ?_, fun v sym sym' h h' => ?_⟩, fun ho id sc h => ?_,
    fun hsp id sc h p hpn => ?_, fun v sym' h => .inl ⟨sym', h⟩⟩
  · have := (scope?_lt h).2
    rw [scope?_addScope, if_neg (by omega), h] at h'
    cases h'
    exact ⟨rfl, fun _ => rfl⟩
  · cases h.symm.trans h'
    exact ⟨rfl, rfl⟩
  · rw [scope?_addScope] at h
    split at h
    · rename_i hid
      cases h
      exact hid ▸ Nat.lt_succ_of_le hp
    · exact ho id sc h
  · rw [scope?_addScope] at h
    split at h
    · cases h
      rw [hn] at hpn
      cases hpn
    · obtain ⟨ns, hns, hkind, hparent⟩ := hsp id sc h p hpn
      have := (scope?_lt hns).2
      exact ⟨ns, by rw [scope?_addScope, if_neg (by omega), hns], hkind, hparent⟩

theorem addSymbol {s : Symbol} (hP : P (tab.addSymbol s).1 s) : Adds P tab (tab.addSymbol s).2 := by
  refine ⟨⟨grows_addSymbol tab s, fun id sc sc' h h' => ?_, fun v sym sym' h h' => ?_⟩, fun ho => ho, fun hsp => hsp,
    fun v sym' h => ?_⟩
  · cases h.symm.trans h'
    exact ⟨rfl, fun _ => rfl⟩
  · have := (symbol?_lt h).2
    rw [symbol?_addSymbol, if_neg (by omega), h] at h'
    cases h'
    exact ⟨rfl, rfl⟩
  · rw [symbol?_addSymbol] at h
    split at h
    · rename_i hv
      cases h
      exact .inr (hv ▸ hP)
    · exact .inl ⟨sym', h⟩

theorem modifySymbol {id : SymbolId} {f : Symbol → Symbol}
    (hf : ∀ s : Symbol, s.Grows (f s) ∧ (f s).storage = s.storage ∧ (f s).seq = s.seq) :
    Adds P tab (tab.modifySymbol id f) := by
  refine ⟨⟨grows_modifySymbol fun sym _ => (hf sym).1, fun k sc sc' h h' => ?_, fun v sym sym' h h' => ?_⟩,
    fun ho k sc h => ho k sc (by simpa using h), fun hsp k sc h p hp => ?_, fun v sym' h => .inl ?_⟩
  · rw [scope?_modifySymbol, h] at h'
    cases h'
    exact ⟨rfl, fun _ => rfl⟩
  · rw [symbol?_modifySymbol, h] at h'
    split at h'
    · cases h'
      exact (hf sym).2
    · cases h'
      exact ⟨rfl, rfl⟩
  · rw [scope?_modifySymbol] at h ⊢
    exact hsp k sc h p hp
  · rw [symbol?_modifySymbol] at h
    split at h
    · obtain ⟨sym, hsym, -⟩ := Option.map_eq_some_iff.1 h
      exact ⟨sym, hsym⟩
    · exact ⟨sym', h⟩

/-- A change of one scope that leaves it in its place, with the frame that it has. Namespaces may be noted. -/
theorem modifyScope {id : ScopeId} {f : Scope → Scope}
    (hf : ∀ s : Scope, s.Grows (f s) ∧ (f s).stackBase = s.stackBase ∧ (f s).stackTop = s.stackTop)
    (hn : ∀ s : Scope, ∀ p ∈ (f s).namespaces, p ∈ s.namespaces ∨
      ∃ ns, tab.scope? p.2 = some ns ∧ ns.kind = .nameSpace ∧ ns.parent = id) : Adds P tab (tab.modifyScope id f) where
  builds := by
    have h : Builds id tab (tab.modifyScope id f) := .modifyFrame fun s => ⟨(hf s).1, (hf s).2.1⟩
    refine ⟨h.grows, fun k sc sc' hsc hsc' => ⟨(h.tops k sc sc' hsc hsc').1, fun _ => ?_⟩, h.places⟩
    rw [scope?_modifyScope, hsc] at hsc'
    split at hsc'
    · cases hsc'
      exact (hf sc).2.2
    · cases hsc'
      rfl
  ordered ho := ho.modifyScope id fun s => (hf s).1.parent
  spaces hsp := hsp.modifyScope (fun s => ⟨(hf s).1.kind, (hf s).1.parent⟩) hn
  fresh v sym' h := .inl ⟨sym', by simpa using h⟩

theorem intern (text : String) : Adds P tab (tab.intern text).2 := of_eq rfl rfl (Nat.le_refl _)

theorem allocGlobal : Adds P tab tab.allocGlobal.2 := of_eq rfl rfl (Nat.le_succ _)

theorem openNamespace {parent : ScopeId} (hp : parent ≤ tab.scopes.size) (name : String) (span : Span) :
    Adds P tab (tab.openNamespace parent name span).2 := by
  unfold ScopeTable.openNamespace
  simp only
  split
  · exact intern name
  · have hspace := (scope?_addScope (tab.intern name).2 { kind := .nameSpace, parent, name, span } _).trans (if_pos rfl)
    refine ((intern name).andThen (addScope (P := P) hp rfl) fun _ => rfl).andThen (modifyScope (P := P) (fun s => ?_)
      fun s p hps => ?_) fun v => symbol?_modifyScope ..
    · exact ⟨⟨rfl, rfl, rfl, Nat.le_refl _, Nat.le_refl _⟩, rfl, rfl⟩
    · refine (List.mem_append.1 hps).imp_right fun hlast => ?_
      cases List.mem_singleton.1 hlast
      exact ⟨_, hspace, rfl, rfl⟩

theorem declare {scope : ScopeId} {sym : Symbol} {r : SymbolId × ScopeTable} (hr : tab.declare scope sym = .ok r)
    (hP : P r.1 { sym with scope }) : Adds P tab r.2 := by
  unfold ScopeTable.declare at hr
  split at hr
  · cases hr
  · cases hr
    refine (addSymbol (s := { sym with scope }) hP).andThen (modifyScope (P := P) (fun s => ?_) fun s p hp => .inl hp)
      fun v => symbol?_modifyScope ..
    exact ⟨⟨rfl, rfl, rfl, Nat.le_refl _, Nat.le_refl _⟩, rfl, rfl⟩

theorem declareCandidate {scope : ScopeId} {sym : Symbol} {r : SymbolId × ScopeTable}
    (hr : tab.declareCandidate scope sym = .ok r) (hbare : Bare t sym) : Plain t tab r.2 := by
  have finish (tab : ScopeTable) (set : SymbolId) : Plain t tab
      ((tab.addSymbol { sym with scope, set }).2.modifySymbol set fun s =>
        { s with overloads := s.overloads ++ [(tab.addSymbol { sym with scope, set }).1] }) :=
    (addSymbol (s := { sym with scope, set }) hbare).trans
      (modifySymbol fun _ => ⟨⟨rfl, rfl, rfl, rfl, rfl, fun _ => rfl⟩, rfl, rfl⟩)
  unfold ScopeTable.declareCandidate at hr
  simp only at hr
  split at hr
  · split at hr
    · cases hr
      exact finish tab _
    · cases hr
  · split at hr
    · rename_i set tab₁ hdecl
      cases hr
      have hset : t.kind 0 ≠ .param := by simp [Tree.kind, Tree.get?]
      exact (declare hdecl ⟨fun _ => Storage.noConfusion, hset⟩).trans (finish tab₁ set)
    · cases hr

end Adds

/-- The namespace that is opened lies in the scope it is opened in. -/
theorem openNamespace_scope? (hsp : tab.Spaces) {parent : ScopeId} (hp : parent ≤ tab.scopes.size) (name : String)
    (span : Span) : ∃ ns, (tab.openNamespace parent name span).2.scope? (tab.openNamespace parent name span).1 = some ns ∧
      ns.kind = .nameSpace ∧ ns.parent = parent := by
  unfold ScopeTable.openNamespace
  simp only
  split
  · rename_i id hid
    obtain ⟨sc, hsc, hns⟩ := Option.bind_eq_some_iff.1 hid
    obtain ⟨l₁, l₂, hl, -⟩ := List.lookup_eq_some_iff.1 hns
    exact hsp parent sc hsc ((tab.intern name).1, id) (hl ▸ List.mem_append_right l₁ (List.mem_cons_self ..))
  · refine ⟨{ kind := .nameSpace, parent, name, span }, ?_, rfl, rfl⟩
    have hne : parent ≠ tab.scopes.size + 1 := Nat.ne_of_lt (Nat.lt_succ_of_le hp)
    exact (scope?_modifyScope ..).trans ((if_neg hne.symm).trans ((scope?_addScope ..).trans (if_pos rfl)))

/-! ## Blocks -/

/-- The height of the frame around a scope. -/
def height (tab : ScopeTable) (id : ScopeId) : Nat := ((tab.scope? (tab.funcScope id)).map (·.stackTop)).getD 0

theorem addScope_modifyScope (sc : Scope) (f : Scope → Scope) :
    (tab.addScope sc).2.modifyScope (tab.scopes.size + 1) f = (tab.addScope (f sc)).2 := by
  unfold modifyScope addScope
  rw [if_neg (Nat.succ_ne_zero _)]
  congr 1
  refine Array.ext_getElem? fun i => ?_
  rw [Array.getElem?_modify, Array.getElem?_push, Array.getElem?_push]
  by_cases hi : i = tab.scopes.size
  · simp [hi]
  · simp [hi, Ne.symm hi]

/-- A new block notes the height of the frame. -/
theorem enterBlock_addScope (ho : tab.Ordered) {sc : Scope} (hk : sc.kind = .block) (hb : sc.stackBase = 0)
    (hp : sc.parent ≤ tab.scopes.size) :
    (tab.addScope sc).2.enterBlock (tab.scopes.size + 1) =
      (tab.addScope { sc with stackBase := tab.height sc.parent }).2 := by
  have hg := grows_addScope tab sc
  have ho' : (tab.addScope sc).2.Ordered := by
    intro id s h
    rw [scope?_addScope] at h
    split at h
    · rename_i hid
      cases h
      exact hid ▸ Nat.lt_succ_of_le hp
    · exact ho id s h
  have hself : (tab.addScope sc).2.scope? (tab.scopes.size + 1) = some sc := (scope?_addScope ..).trans (if_pos rfl)
  have hfn : (tab.addScope sc).2.funcScope (tab.scopes.size + 1) = tab.funcScope sc.parent := by
    rw [funcScope_eq ho' hself, hk]
    exact funcScope_grows ho hg hp
  have hread : (tab.addScope sc).2.scope? (tab.funcScope sc.parent) = tab.scope? (tab.funcScope sc.parent) := by
    rw [scope?_addScope, if_neg]
    intro heq
    have h0 : tab.funcScope sc.parent ≠ 0 := heq ▸ Nat.succ_ne_zero _
    obtain ⟨s, hs, -⟩ := funcScope_scope? h0
    have hle := (scope?_lt hs).2
    rw [heq] at hle
    exact Nat.not_succ_le_self _ hle
  unfold enterBlock height
  rw [hfn, hread]
  cases tab.scope? (tab.funcScope sc.parent) with
  | none => simp [← hb]
  | some fn => exact addScope_modifyScope sc _

end ScopeTable

end TreeCompiler
