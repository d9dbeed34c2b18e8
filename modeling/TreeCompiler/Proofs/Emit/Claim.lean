import TreeCompiler.Proofs.Emit.Operands

/-!
# Owning registers

An operand in a scratch register belongs to whoever it was handed to, until it is given back. Emission is followed with the
list of the operands that are owned; all other registers stay as they were.

* `Pool.Lent p q l h` : `q` is `p` with the registers `l` given out, those in `h` held;
* `Claim` : an owned operand, which may be held; `Bank` : both pools as they were before;
* `Holding B cs s` : the pools of `s` are those of `B` with the registers of the claims `cs` given out;
* `Handles B cs m Q` : `m` turns the claims `cs` into others and gives no register back that is free or held.
-/

namespace TreeCompiler

namespace Pool

/-- As many hold marks as registers, and only registers in use are held. -/
structure Sound (p : Pool) : Prop where
  size : p.held.size = p.used.size
  held : ∀ i, p.isHeld i = true → p.isUsed i = true

structure Lent (p q : Pool) (l h : List Nat) : Prop where
  name : q.name = p.name
  kind : q.kind = p.kind
  size : q.used.size = p.used.size
  holds : q.held.size = p.held.size
  nodup : l.Nodup
  free : ∀ i ∈ l, i < p.used.size ∧ p.isUsed i = false
  used : ∀ i, q.isUsed i = true ↔ p.isUsed i = true ∨ i ∈ l
  held : ∀ i, q.isHeld i = true ↔ p.isHeld i = true ∨ i ∈ h

variable {p q r : Pool} {l h : List Nat} {i : Nat}

theorem Lent.refl (p : Pool) : p.Lent p [] [] where
  name := rfl
  kind := rfl
  size := rfl
  holds := rfl
  nodup := .nil
  free := nofun
  used := fun i => by simp
  held := fun i => by simp

theorem Lent.perm {l' h' : List Nat} (d : p.Lent q l h) (hl : l.Perm l') (hh : h.Perm h') : p.Lent q l' h' :=
  { d with
    nodup := hl.nodup_iff.1 d.nodup
    free := fun i hi => d.free i (hl.mem_iff.2 hi)
    used := fun i => by rw [d.used, hl.mem_iff]
    held := fun i => by rw [d.held, hh.mem_iff] }

/-- With nothing given out the pool is as it was. -/
theorem Lent.eq (d : p.Lent q [] []) : q = p := by
  have ext {a b : Array Bool} (hs : a.size = b.size) (hab : ∀ i, a.getD i false = true ↔ b.getD i false = true) : a = b := by
    refine Array.ext hs fun i hi hi' => ?_
    have := Bool.eq_iff_iff.2 (hab i)
    simpa [Array.getD, hi, hi'] using this
  have hused : q.used = p.used := ext d.size fun i => (d.used i).trans (by simp [isUsed])
  have hheld : q.held = p.held := ext d.holds fun i => (d.held i).trans (by simp [isHeld])
  cases p
  cases q
  obtain rfl := d.name
  obtain rfl := d.kind
  obtain rfl := hused
  obtain rfl := hheld
  rfl

theorem Lent.sound (d : p.Lent q l h) (hp : p.Sound) (hh : h ⊆ l) : q.Sound := by
  refine ⟨by rw [d.holds, d.size, hp.size], fun i hi => ?_⟩
  rcases (d.held i).1 hi with hi | hi
  · exact (d.used i).2 (.inl (hp.held i hi))
  · exact (d.used i).2 (.inr (hh hi))

/-- What is given out was not in use before, so it was not held either. -/
theorem Lent.not_held (d : p.Lent q l h) (hp : p.Sound) (hi : i ∈ l) (hh : i ∉ h) : q.isHeld i = false := by
  refine Bool.eq_false_iff.2 fun hheld => ?_
  rcases (d.held i).1 hheld with hheld | hheld
  · have hfree := (d.free i hi).2
    rw [hp.held i hheld] at hfree
    cases hfree
  · exact hh hheld

theorem isHeld_set_self {b : Bool} (hi : i < p.held.size) :
    Pool.isHeld { p with held := p.held.setIfInBounds i b } i = b := by
  simp [isHeld, Array.getD_eq_getD_getElem?, hi]

theorem isHeld_set_ne {b : Bool} {j : Nat} (hij : i ≠ j) :
    Pool.isHeld { p with held := p.held.setIfInBounds i b } j = p.isHeld j := by
  simp only [isHeld, Array.getD_eq_getD_getElem?, Array.getElem?_setIfInBounds_ne hij]

theorem Lent.acquire {o : Operand} (d : p.Lent q l h) (ha : q.acquire? = some (o, r)) :
    o.kind = p.kind ∧ p.Lent r (o.val.toNat :: l) h := by
  obtain ⟨i, hi, hfree, rfl, rfl⟩ := acquire?_eq_some ha
  have hnot : ¬(p.isUsed i = true ∨ i ∈ l) := by
    rw [← d.used, hfree]
    nofun
  have hi' : i < q.used.size := hi
  refine ⟨d.kind, ?_⟩
  refine
    { d with
      size := by rw [← d.size]; exact Array.size_setIfInBounds
      nodup := List.nodup_cons.2 ⟨fun hmem => hnot (.inr hmem), d.nodup⟩
      free := List.forall_mem_cons.2 ⟨⟨d.size ▸ hi', ?_⟩, d.free⟩
      used := fun j => ?_ }
  · exact Bool.eq_false_iff.2 fun hu => hnot (.inl hu)
  · by_cases hij : i = j
    · subst hij
      rw [isUsed_set_self hi]
      simp [register]
    · rw [isUsed_set_ne hij, d.used]
      simp [register, Ne.symm hij]

/-- The register of the first claim goes back. -/
theorem Lent.drop (d : p.Lent q (i :: l) h) : p.Lent { q with used := q.used.setIfInBounds i false } l h := by
  obtain ⟨hnot, hnodup⟩ := List.nodup_cons.1 d.nodup
  obtain ⟨hlt, hfree⟩ := d.free i (List.mem_cons_self ..)
  have hi : i < q.size := Nat.lt_of_lt_of_eq hlt d.size.symm
  refine
    { d with
      size := by rw [← d.size]; exact Array.size_setIfInBounds
      nodup := hnodup
      free := fun j hj => d.free j (List.mem_cons_of_mem _ hj)
      used := fun j => ?_ }
  by_cases hij : i = j
  · subst hij
    rw [isUsed_set_self hi, hfree]
    simp [hnot]
  · rw [isUsed_set_ne hij, d.used]
    simp [Ne.symm hij]

theorem Lent.release (d : p.Lent q (i :: l) h) (hp : p.Sound) (hh : i ∉ h) :
    ∃ r, q.release i = .ok r ∧ p.Lent r l h := by
  have hused : q.isUsed i = true := (d.used i).2 (.inr (List.mem_cons_self ..))
  have hheld := d.not_held hp (List.mem_cons_self ..) hh
  exact ⟨_, by simp [Pool.release, hheld, hused], d.drop⟩

theorem Lent.hold (d : p.Lent q (i :: l) h) (hp : p.Sound) (hh : i ∉ h) :
    ∃ r, q.hold i = .ok r ∧ p.Lent r (i :: l) (i :: h) := by
  obtain ⟨hlt, -⟩ := d.free i (List.mem_cons_self ..)
  have hused : q.isUsed i = true := (d.used i).2 (.inr (List.mem_cons_self ..))
  have hheld := d.not_held hp (List.mem_cons_self ..) hh
  have hsize : i < q.held.size := by
    rw [d.holds, hp.size]
    exact hlt
  refine ⟨{ q with held := q.held.setIfInBounds i true }, by simp [Pool.hold, hheld, hused], ?_⟩
  refine { d with holds := by rw [← d.holds]; exact Array.size_setIfInBounds, held := fun j => ?_ }
  by_cases hij : i = j
  · subst hij
    rw [isHeld_set_self hsize]
    simp
  · rw [isHeld_set_ne hij, d.held]
    simp [Ne.symm hij]

/-- The register of the first claim is let go. -/
theorem Lent.letGo (d : p.Lent q (i :: l) (i :: h)) (hp : p.Sound) (hh : i ∉ h) :
    p.Lent { q with held := q.held.setIfInBounds i false } (i :: l) h := by
  obtain ⟨hlt, hfree⟩ := d.free i (List.mem_cons_self ..)
  have hsize : i < q.held.size := by
    rw [d.holds, hp.size]
    exact hlt
  refine { d with holds := by rw [← d.holds]; exact Array.size_setIfInBounds, held := fun j => ?_ }
  by_cases hij : i = j
  · subst hij
    rw [isHeld_set_self hsize]
    have hnot : p.isHeld i ≠ true := fun hu => by rw [hp.held i hu] at hfree; cases hfree
    simp [hnot, hh]
  · rw [isHeld_set_ne hij, d.held]
    simp [Ne.symm hij]

theorem Lent.unhold (d : p.Lent q (i :: l) (i :: h)) (hp : p.Sound) (hh : i ∉ h) :
    ∃ r, q.unhold i = .ok r ∧ p.Lent r l h := by
  have hheld : q.isHeld i = true := (d.held i).2 (.inr (List.mem_cons_self ..))
  exact ⟨_, by simp [Pool.unhold, hheld], (d.letGo hp hh).drop⟩

theorem sound_ofSize (name : String) (kind : OperandKind) (size : Nat) : (Pool.ofSize name kind size).Sound := by
  refine ⟨by simp [ofSize], fun i hi => ?_⟩
  simp [ofSize, isHeld, Array.getD] at hi

end Pool

namespace Emit

/-! ## Claims -/

structure Claim where
  op : Operand
  held : Bool := false

/-- An operand that is owned and not held. -/
def own (o : Operand) : Claim := { op := o }

def holding (o : Operand) : Claim := { op := o, held := true }

/-- The registers of a pool among the claims. -/
def registers (k : OperandKind) (cs : List Claim) : List Nat :=
  cs.filterMap fun c => if c.op.kind = k then some c.op.val.toNat else none

def heldRegisters (k : OperandKind) (cs : List Claim) : List Nat := registers k (cs.filter (·.held))

theorem registers_cons (k : OperandKind) (c : Claim) (cs : List Claim) :
    registers k (c :: cs) = if c.op.kind = k then c.op.val.toNat :: registers k cs else registers k cs := by
  unfold registers
  rw [List.filterMap_cons]
  split <;> simp_all

theorem heldRegisters_cons (k : OperandKind) (c : Claim) (cs : List Claim) :
    heldRegisters k (c :: cs) =
      if c.held = true ∧ c.op.kind = k then c.op.val.toNat :: heldRegisters k cs else heldRegisters k cs := by
  unfold heldRegisters
  rw [List.filter_cons]
  split
  · rw [registers_cons]
    simp_all
  · simp_all

theorem heldRegisters_subset (k : OperandKind) (cs : List Claim) : heldRegisters k cs ⊆ registers k cs :=
  (List.filter_sublist.filterMap _).subset

/-- Both pools before anything was claimed. -/
structure Bank where
  values : Pool
  refs : Pool
  valuesKind : values.kind = .value
  refsKind : refs.kind = .ref
  valuesSound : values.Sound
  refsSound : refs.Sound

structure Holding (B : Bank) (cs : List Claim) (s : EmitState) : Prop where
  values : B.values.Lent s.values (registers .value cs) (heldRegisters .value cs)
  refs : B.refs.Lent s.refs (registers .ref cs) (heldRegisters .ref cs)

variable {B : Bank} {cs cs' : List Claim} {s s' : EmitState}

theorem Holding.congr (h : Holding B cs s) (hv : s'.values = s.values) (hr : s'.refs = s.refs) : Holding B cs s' :=
  ⟨hv ▸ h.values, hr ▸ h.refs⟩

theorem Holding.perm (h : Holding B cs s) (hp : cs.Perm cs') : Holding B cs' s where
  values := h.values.perm (hp.filterMap _) ((hp.filter _).filterMap _)
  refs := h.refs.perm (hp.filterMap _) ((hp.filter _).filterMap _)

theorem holding_iff : Holding B cs s ↔
    B.values.Lent s.values (registers .value cs) (heldRegisters .value cs) ∧
      B.refs.Lent s.refs (registers .ref cs) (heldRegisters .ref cs) :=
  ⟨fun h => ⟨h.values, h.refs⟩, fun h => ⟨h.1, h.2⟩⟩

/-- An operand that is no register claims nothing. -/
theorem holding_own {o : Operand} (hv : o.kind ≠ .value) (hr : o.kind ≠ .ref) :
    Holding B (own o :: cs) s ↔ Holding B cs s := by
  simp [holding_iff, registers_cons, heldRegisters_cons, own, hv, hr]

theorem holding_value {o : Operand} (hk : o.kind = .value) : Holding B (own o :: cs) s ↔
    B.values.Lent s.values (o.val.toNat :: registers .value cs) (heldRegisters .value cs) ∧
      B.refs.Lent s.refs (registers .ref cs) (heldRegisters .ref cs) := by
  simp [holding_iff, registers_cons, heldRegisters_cons, own, hk]

theorem holding_ref {o : Operand} (hk : o.kind = .ref) : Holding B (own o :: cs) s ↔
    B.values.Lent s.values (registers .value cs) (heldRegisters .value cs) ∧
      B.refs.Lent s.refs (o.val.toNat :: registers .ref cs) (heldRegisters .ref cs) := by
  simp [holding_iff, registers_cons, heldRegisters_cons, own, hk]

theorem holding_held {o : Operand} (hk : o.kind = .ref) : Holding B (holding o :: cs) s ↔
    B.values.Lent s.values (registers .value cs) (heldRegisters .value cs) ∧
      B.refs.Lent s.refs (o.val.toNat :: registers .ref cs) (o.val.toNat :: heldRegisters .ref cs) := by
  simp [holding_iff, registers_cons, heldRegisters_cons, holding, hk]

/-- The register of the first claim is not among the held ones of the others. -/
theorem not_mem_held {k : OperandKind} {i : Nat} (h : (i :: registers k cs).Nodup) : i ∉ heldRegisters k cs :=
  fun hmem => (List.nodup_cons.1 h).1 (heldRegisters_subset _ _ hmem)

/-! ## Computations -/

end Emit

/-- A register that is given back while it is free or held in the wrong way. -/
def EmitCause.isImbalance : EmitCause → Bool
  | releasedTwice .. | unbalancedHold .. => true
  | _ => false

def EmitFailure.isImbalance : EmitFailure → Bool
  | fatal _ cause => cause.isImbalance
  | _ => false

namespace Emit

variable {α β : Type}

theorem acquireValue_error {id : NodeId} {e : EmitFailure} (h : acquireValue id s = .error e s') :
    s' = s ∧ s.values.acquire? = none ∧ e = .fatal id (.exhausted s.values.name s.values.size) := by
  rw [acquireValue_apply] at h
  cases hp : s.values.acquire? with
  | none =>
    rw [hp] at h
    cases h
    exact ⟨rfl, rfl, rfl⟩
  | some p =>
    rw [hp] at h
    cases h

theorem acquireRef_error {id : NodeId} {e : EmitFailure} (h : acquireRef id s = .error e s') :
    s' = s ∧ s.refs.acquire? = none ∧ e = .fatal id (.exhausted s.refs.name s.refs.size) := by
  rw [acquireRef_apply] at h
  cases hp : s.refs.acquire? with
  | none =>
    rw [hp] at h
    cases h
    exact ⟨rfl, rfl, rfl⟩
  | some p =>
    rw [hp] at h
    cases h

theorem withValues_run {step : Pool → Except EmitCause Pool} {values : Pool} (h : step s.values = .ok values) :
    withValues step s = .ok () { s with values } := by
  rw [withValues_apply, h]
  rfl

theorem withRefs_run {step : Pool → Except EmitCause Pool} {refs : Pool} (h : step s.refs = .ok refs) :
    withRefs step s = .ok () { s with refs } := by
  rw [withRefs_apply, h]
  rfl

/-- A computation that ends in a state with `P`, or fails otherwise than over its registers. -/
def Orderly (P : α → EmitState → Prop) : EStateM.Result EmitFailure EmitState α → Prop
  | .ok a s => P a s
  | .error e _ => e.isImbalance = false

theorem Orderly.bind {P : α → EmitState → Prop} {R : β → EmitState → Prop} {m : EmitM α} {f : α → EmitM β}
    (hm : Orderly P (m s)) (hf : ∀ a s', P a s' → Orderly R (f a s')) : Orderly R ((m >>= f) s) := by
  cases hrun : m s with
  | ok a s₁ =>
    rw [hrun] at hm
    rw [bind_run hrun]
    exact hf a s₁ hm
  | error e s₁ =>
    rw [hrun] at hm
    rw [bind_fail hrun]
    exact hm

theorem Orderly.mono {P R : α → EmitState → Prop} {r : EStateM.Result EmitFailure EmitState α} (h : Orderly P r)
    (hP : ∀ a s, r = .ok a s → P a s → R a s) : Orderly R r := by
  cases r with
  | ok a s => exact hP a s rfl h
  | error e s => exact h

def Handles (B : Bank) (cs : List Claim) (m : EmitM α) (Q : α → List Claim) : Prop :=
  ∀ s, Holding B cs s → Orderly (fun a => Holding B (Q a)) (m s)

namespace Handles

variable {m : EmitM α} {Q : α → List Claim} {f : α → EmitM β} {R : β → List Claim}

theorem ok {a : α} (h : Handles B cs m Q) (hs : Holding B cs s) (hm : m s = .ok a s') : Holding B (Q a) s' := by
  have := h s hs
  rw [hm] at this
  exact this

theorem error {e : EmitFailure} (h : Handles B cs m Q) (hs : Holding B cs s) (hm : m s = .error e s') :
    e.isImbalance = false := by
  have := h s hs
  rw [hm] at this
  exact this

/-- What else is known of a computation that succeeds. -/
theorem orderly {P : α → EmitState → Prop} (h : Handles B cs m Q) (hs : Holding B cs s)
    (hP : ∀ a s', m s = .ok a s' → Holding B (Q a) s' → P a s') : Orderly P (m s) :=
  (h s hs).mono hP

theorem intro (hok : ∀ s a s', Holding B cs s → m s = .ok a s' → Holding B (Q a) s')
    (herror : ∀ s e s', Holding B cs s → m s = .error e s' → e.isImbalance = false) : Handles B cs m Q := by
  intro s hs
  cases hm : m s with
  | ok a s' => exact hok s a s' hs hm
  | error e s' => exact herror s e s' hs hm

theorem bind (hm : Handles B cs m Q) (hf : ∀ a, Handles B (Q a) (f a) R) : Handles B cs (m >>= f) R :=
  fun s hs => (hm s hs).bind fun a s' hs' => hf a s' hs'

theorem pure {a : α} (h : ∀ s, Holding B cs s → Holding B (Q a) s) : Handles B cs (pure a) Q := h

/-- A result that claims nothing new. -/
theorem pure_same {a : α} : Handles B cs (Pure.pure a) fun _ => cs := fun _ hs => hs

theorem throw {e : EmitFailure} (h : e.isImbalance = false) : Handles B cs (throw e : EmitM α) Q := fun _ _ => h

theorem fatal {id : NodeId} {cause : EmitCause} (h : cause.isImbalance = false) :
    Handles B cs (fatal id cause : EmitM α) Q := throw h

theorem stop {e : EmitFailure} (h : e.isImbalance = false) : Handles B cs ((MonadExcept.throw e : EmitM α) >>= f) R :=
  fun _ _ => h

theorem perm (h : Handles B cs' m Q) (hp : cs.Perm cs') : Handles B cs m Q := fun s hs => h s (hs.perm hp)

theorem mono {Q' : α → List Claim} (h : Handles B cs m Q) (hq : ∀ a s, Holding B (Q a) s → Holding B (Q' a) s) :
    Handles B cs m Q' :=
  intro (fun _ a s' hs hm => hq a s' (h.ok hs hm)) fun _ _ _ hs hm => h.error hs hm

theorem ite {c : Prop} [Decidable c] {x y : EmitM α} (hx : c → Handles B cs x Q) (hy : ¬c → Handles B cs y Q) :
    Handles B cs (if c then x else y) Q := by
  split
  · exact hx ‹_›
  · exact hy ‹_›

theorem get_bind {f : EmitState → EmitM β} (h : ∀ s, Handles B cs (f s) R) : Handles B cs (get >>= f) R :=
  fun s hs => h s s hs

theorem modify {f : EmitState → EmitState} (hv : ∀ s, (f s).values = s.values) (hr : ∀ s, (f s).refs = s.refs) :
    Handles B cs (modify f) fun _ => cs :=
  fun s hs => hs.congr (hv s) (hr s)

theorem modifyGet {f : EmitState → α × EmitState} (hv : ∀ s, (f s).2.values = s.values) (hr : ∀ s, (f s).2.refs = s.refs) :
    Handles B cs (modifyGet f) fun _ => cs :=
  fun s hs => hs.congr (hv s) (hr s)

theorem forM {f : α → EmitM PUnit} (l : List α) (h : ∀ a ∈ l, Handles B cs (f a) fun _ => cs) :
    Handles B cs (l.forM f) fun _ => cs := by
  induction l with
  | nil => exact .pure_same
  | cons a l ih =>
    exact .bind (h a (List.mem_cons_self ..)) fun _ => ih fun x hx => h x (List.mem_cons_of_mem _ hx)

theorem mapM {f : α → EmitM β} (l : List α) (h : ∀ a ∈ l, Handles B cs (f a) fun _ => cs) :
    Handles B cs (l.mapM f) fun _ => cs := by
  induction l with
  | nil => exact .pure_same
  | cons a l ih =>
    rw [List.mapM_cons]
    refine .bind (h a (List.mem_cons_self ..)) fun x => ?_
    exact .bind (ih fun y hy => h y (List.mem_cons_of_mem _ hy)) fun xs => .pure_same

theorem foldlM {f : β → α → EmitM β} (l : List α) (h : ∀ c, ∀ a ∈ l, Handles B cs (f c a) fun _ => cs) :
    ∀ c, Handles B cs (l.foldlM f c) fun _ => cs := by
  induction l with
  | nil => exact fun c => .pure_same
  | cons a l ih =>
    intro c
    exact .bind (h c a (List.mem_cons_self ..)) fun c' => ih (fun c x hx => h c x (List.mem_cons_of_mem _ hx)) c'

theorem forIn {f : α → PUnit → EmitM (ForInStep PUnit)} (l : List α) (h : ∀ a ∈ l, Handles B cs (f a ⟨⟩) fun _ => cs) :
    Handles B cs (forIn l PUnit.unit f) fun _ => cs := by
  induction l with
  | nil => exact .pure_same
  | cons a l ih =>
    rw [List.forIn_cons]
    refine .bind (h a (List.mem_cons_self ..)) fun r => ?_
    cases r with
    | done _ => exact .pure_same
    | yield _ => exact ih fun x hx => h x (List.mem_cons_of_mem _ hx)

/-! ### Steps that leave the pools alone -/

theorem unit : Handles B cs unit fun _ => cs := .get_bind fun _ => .pure_same

theorem node (id : NodeId) : Handles B cs (node id) fun _ => cs := by
  refine .bind unit fun u => ?_
  split
  · exact .pure_same
  · exact .fatal rfl

theorem kindOf (id : NodeId) : Handles B cs (kindOf id) fun _ => cs := .bind unit fun _ => .pure_same

theorem symbol (id : SymbolId) : Handles B cs (symbol id) fun _ => cs := by
  refine .bind unit fun u => ?_
  split
  · exact .pure_same
  · exact .throw rfl

theorem declaration (sym : Symbol) : Handles B cs (declaration sym) fun _ => cs := by
  refine .bind unit fun u => ?_
  split
  · exact .pure_same
  · exact .throw rfl

theorem funcScope (fn : SymbolId) : Handles B cs (funcScope fn) fun _ => cs := by
  refine .bind unit fun u => .bind (symbol fn) fun sym => ?_
  split
  · exact .pure_same
  · exact .throw rfl

theorem typeInfo (id : TypeId) : Handles B cs (typeInfo id) fun _ => cs := by
  refine .bind unit fun u => ?_
  split
  · exact .pure_same
  · exact .throw rfl

theorem typeKind (id : TypeId) : Handles B cs (typeKind id) fun _ => cs := .bind unit fun _ => .pure_same

theorem isResolved (id : TypeId) : Handles B cs (isResolved id) fun _ => cs := .bind unit fun _ => .pure_same

theorem emit (i : Instr) : Handles B cs (emit i) fun _ => cs := .modify (fun _ => rfl) fun _ => rfl

theorem note (span : Span) : Handles B cs (note span) fun _ => cs := .modify (fun _ => rfl) fun _ => rfl

theorem newLabel : Handles B cs newLabel fun _ => cs := .modifyGet (fun _ => rfl) fun _ => rfl

theorem bindLabel (l : Label) : Handles B cs (bindLabel l) fun _ => cs := by
  refine .get_bind fun s => ?_
  split
  · exact .modify (fun _ => rfl) fun _ => rfl
  · exact .throw rfl

theorem patch (ip slots : Nat) : Handles B cs (patch ip slots) fun _ => cs := by
  refine .get_bind fun s => ?_
  split
  · exact .modify (fun _ => rfl) fun _ => rfl
  · exact .throw rfl

theorem reserve : Handles B cs reserve fun _ => cs := .modifyGet (fun _ => rfl) fun _ => rfl

theorem stringRef (text : String) : Handles B cs (stringRef text) fun _ => cs := .modifyGet (fun _ => rfl) fun _ => rfl

theorem spill : Handles B cs spill fun _ => cs := .modifyGet (fun _ => rfl) fun _ => rfl

theorem unspill (n : Nat) : Handles B cs (unspill n) fun _ => cs := .modify (fun _ => rfl) fun _ => rfl

theorem isValue (t : TypeId) : Handles B cs (isValue t) fun _ => cs := by
  refine .bind (typeKind t) fun k => ?_
  split <;> exact .pure_same

theorem funcName (fn : SymbolId) : Handles B cs (funcName fn) fun _ => cs :=
  .bind unit fun _ => .bind (symbol fn) fun _ => .pure_same

theorem funcRef (fn : SymbolId) : Handles B cs (funcRef fn) fun _ => cs := by
  refine .get_bind fun s => ?_
  split
  · exact .pure_same
  · refine .bind (symbol fn) fun sym => .bind (declaration sym) fun n => .bind (funcName fn) fun name => ?_
    exact .modifyGet (fun _ => rfl) fun _ => rfl

theorem nativeRef (fn : SymbolId) : Handles B cs (nativeRef fn) fun _ => cs := by
  refine .get_bind fun s => ?_
  split
  · exact .pure_same
  · refine .bind (symbol fn) fun sym => .bind unit fun u => .bind (declaration sym) fun n => ?_
    exact .modifyGet (fun _ => rfl) fun _ => rfl

theorem typeRef (t : TypeId) : Handles B cs (typeRef t) fun _ => cs := by
  refine .get_bind fun s => ?_
  split
  · exact .pure_same
  · refine .bind (typeInfo t) fun ty => .bind unit fun u => ?_
    exact .modifyGet (fun _ => rfl) fun _ => rfl

/-- The storage of a variable is no register. -/
theorem storage {v : SymbolId} {f : Operand → EmitM α}
    (h : ∀ o : Operand, o.kind ≠ .value → o.kind ≠ .ref → Handles B cs (f o) Q) :
    Handles B cs (storage v >>= f) Q := by
  unfold Emit.storage
  rw [bind_assoc]
  refine .bind (symbol v) fun sym => ?_
  rw [bind_assoc]
  refine .get_bind fun s => ?_
  split
  all_goals simp only [pure_bind]
  · exact h _ nofun nofun
  · exact h _ nofun nofun
  · exact h _ nofun nofun
  · rw [bind_assoc]
    exact .bind unit fun u => .stop rfl

/-! ### Registers -/

theorem acquireValue (id : NodeId) : Handles B cs (acquireValue id) fun o => own o :: cs := by
  refine intro (fun s o s' hs h => ?_) fun s e s' hs h => ?_
  · obtain ⟨values, hp, rfl⟩ := acquireValue_ok h
    obtain ⟨hk, hlent⟩ := hs.values.acquire hp
    exact (holding_value (hk.trans B.valuesKind)).2 ⟨hlent, hs.refs⟩
  · obtain ⟨_, -, rfl⟩ := acquireValue_error h
    rfl

theorem acquireRef (id : NodeId) : Handles B cs (acquireRef id) fun o => own o :: cs := by
  refine intro (fun s o s' hs h => ?_) fun s e s' hs h => ?_
  · obtain ⟨refs, hp, rfl⟩ := acquireRef_ok h
    obtain ⟨hk, hlent⟩ := hs.refs.acquire hp
    exact (holding_ref (hk.trans B.refsKind)).2 ⟨hs.values, hlent⟩
  · obtain ⟨_, -, rfl⟩ := acquireRef_error h
    rfl

/-- The register of a bank has its kind. -/
theorem acquireValue_bind {id : NodeId} {f : Operand → EmitM α}
    (h : ∀ o : Operand, o.kind = .value → Handles B (own o :: cs) (f o) Q) : Handles B cs (Emit.acquireValue id >>= f) Q := by
  intro s hs
  cases hrun : Emit.acquireValue id s with
  | error e s₁ =>
    rw [bind_fail hrun]
    exact (acquireValue id).error hs hrun
  | ok o s₁ =>
    obtain ⟨_, hp, rfl⟩ := acquireValue_ok hrun
    rw [bind_run hrun]
    exact h o ((hs.values.acquire hp).1.trans B.valuesKind) _ ((acquireValue id).ok hs hrun)

theorem acquireRef_bind {id : NodeId} {f : Operand → EmitM α}
    (h : ∀ o : Operand, o.kind = .ref → Handles B (own o :: cs) (f o) Q) : Handles B cs (Emit.acquireRef id >>= f) Q := by
  intro s hs
  cases hrun : Emit.acquireRef id s with
  | error e s₁ =>
    rw [bind_fail hrun]
    exact (acquireRef id).error hs hrun
  | ok o s₁ =>
    obtain ⟨_, hp, rfl⟩ := acquireRef_ok hrun
    rw [bind_run hrun]
    exact h o ((hs.refs.acquire hp).1.trans B.refsKind) _ ((acquireRef id).ok hs hrun)

/-- A step on the value pool that succeeds. -/
theorem withValues {step : Pool → Except EmitCause Pool}
    (h : ∀ s, Holding B cs s → ∃ values, step s.values = .ok values ∧ Holding B cs' { s with values }) :
    Handles B cs (withValues step) fun _ => cs' := by
  intro s hs
  obtain ⟨values, hstep, hs'⟩ := h s hs
  rw [withValues_run hstep]
  exact hs'

theorem withRefs {step : Pool → Except EmitCause Pool}
    (h : ∀ s, Holding B cs s → ∃ refs, step s.refs = .ok refs ∧ Holding B cs' { s with refs }) :
    Handles B cs (withRefs step) fun _ => cs' := by
  intro s hs
  obtain ⟨refs, hstep, hs'⟩ := h s hs
  rw [withRefs_run hstep]
  exact hs'

theorem releaseValue {o : Operand} (hk : o.kind = .value) :
    Handles B (own o :: cs) (Emit.withValues (·.release o.val.toNat)) fun _ => cs := by
  refine .withValues fun s hs => ?_
  obtain ⟨hvalues, hrefs⟩ := (holding_value hk).1 hs
  obtain ⟨values, hstep, hlent⟩ := hvalues.release B.valuesSound (not_mem_held hvalues.nodup)
  exact ⟨values, hstep, hlent, hrefs⟩

theorem releaseRef {o : Operand} (hk : o.kind = .ref) :
    Handles B (own o :: cs) (Emit.withRefs (·.release o.val.toNat)) fun _ => cs := by
  refine .withRefs fun s hs => ?_
  obtain ⟨hvalues, hrefs⟩ := (holding_ref hk).1 hs
  obtain ⟨refs, hstep, hlent⟩ := hrefs.release B.refsSound (not_mem_held hrefs.nodup)
  exact ⟨refs, hstep, hvalues, hlent⟩

theorem hold {o : Operand} (hk : o.kind = .ref) :
    Handles B (own o :: cs) (Emit.withRefs (·.hold o.val.toNat)) fun _ => holding o :: cs := by
  refine .withRefs fun s hs => ?_
  obtain ⟨hvalues, hrefs⟩ := (holding_ref hk).1 hs
  obtain ⟨refs, hstep, hlent⟩ := hrefs.hold B.refsSound (not_mem_held hrefs.nodup)
  exact ⟨refs, hstep, (holding_held hk).2 ⟨hvalues, hlent⟩⟩

theorem unhold {o : Operand} (hk : o.kind = .ref) :
    Handles B (holding o :: cs) (Emit.withRefs (·.unhold o.val.toNat)) fun _ => cs := by
  refine .withRefs fun s hs => ?_
  obtain ⟨hvalues, hrefs⟩ := (holding_held hk).1 hs
  obtain ⟨refs, hstep, hlent⟩ := hrefs.unhold B.refsSound (not_mem_held hrefs.nodup)
  exact ⟨refs, hstep, hvalues, hlent⟩

/-- A result that is in no register. -/
theorem plain {o : Operand} (hv : o.kind ≠ .value) (hr : o.kind ≠ .ref) :
    Handles B cs (Pure.pure o) fun o => own o :: cs :=
  .pure fun _ hs => (holding_own hv hr).2 hs

theorem stringRef_own (text : String) : Handles B cs (Emit.stringRef text) fun o => own o :: cs := by
  intro s hs
  have hk : (s.asm.addString text).1.kind = .text := by
    unfold Assembler.addString
    split <;> rfl
  exact (holding_own (o := (s.asm.addString text).1) (by rw [hk]; nofun) (by rw [hk]; nofun)).2 (hs.congr rfl rfl)

theorem accumulator : Handles B cs (Pure.pure Operand.accumulator) fun o => own o :: cs := plain nofun nofun

theorem free (o : Operand) : Handles B (own o :: cs) (free o) fun _ => cs := by
  unfold Emit.free
  split
  · exact releaseValue ‹_›
  · exact releaseRef ‹_›
  · exact .pure fun _ hs => (holding_own ‹_› ‹_›).1 hs

theorem toRegister (o : Operand) (t : TypeId) (id : NodeId) :
    Handles B (own o :: cs) (toRegister o t id) fun r => own r :: cs := by
  unfold Emit.toRegister
  split
  · exact .pure fun _ hs => hs
  · exact .pure fun _ hs => hs
  · exact .fatal rfl
  · rename_i hv hr _
    have copy (r : Operand) :
        Handles B (own r :: own o :: cs) (do Emit.emit { op := .mov, a := r, b := o }; Pure.pure r) fun r => own r :: cs :=
      .bind (emit _) fun _ => .pure fun _ hs => (holding_own hv hr).1 (hs.perm (.swap ..))
    refine .bind (isValue t) fun v => ?_
    cases v
    · exact .bind (acquireRef id) copy
    · exact .bind (acquireValue id) copy

theorem stable (o : Operand) (t : TypeId) (id : NodeId) : Handles B (own o :: cs) (stable o t id) fun r => own r :: cs := by
  unfold Emit.stable
  exact .ite (fun _ => toRegister o t id) fun _ => .pure fun _ hs => hs

theorem move (dst src : Operand) : Handles B (own src :: cs) (move dst src) fun _ => cs := by
  unfold Emit.move
  exact .ite (fun _ => .bind (emit _) fun _ => free src) fun _ => free src

theorem pushOperand (o : Operand) : Handles B (own o :: cs) (pushOperand o) fun _ => cs := .bind (emit _) fun _ => free o

end Handles

end Emit

end TreeCompiler
