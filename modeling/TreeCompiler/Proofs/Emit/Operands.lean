import TreeCompiler.Analysis.Run
import TreeCompiler.Emit.Run
import TreeCompiler.Proofs.Emit.Invoke
import TreeCompiler.Tree.Builder

/-!
# Operands keep their values

The expressions of a list are evaluated from left to right, and at the end every operand must hold what it held when its
expression was evaluated. A round that left a stale accumulator behind is taken back and repeated with one more expression
forced into a register.

* `storesAfter_ok` : what the walk over the later expressions has seen;
* `operandsThen_rounds` : as many rounds as there are expressions are enough after the first;
* `lastRound` : the round that stays; `evaluated_kept` : what it leaves in the operands;
* `callee_kept` : the callee of a call, while the arguments are evaluated.
-/

namespace TreeCompiler.Emit

variable {K : Watch} {H : Operand → Prop} {rec : Emitter} {s s' : EmitState}

/-! ## Stores that are seen -/

theorem reads_stores (id : NodeId) : Reads (stores id) := reads_unit.bind fun u => by
  dsimp only
  split
  · exact reads_pure _
  · exact reads_throw _

theorem reads_storesAfter (ids : List NodeId) : Reads (storesAfter ids) := by
  induction ids with
  | nil => exact reads_pure _
  | cons id rest ih =>
    cases rest with
    | nil => exact reads_pure _
    | cons next rest =>
      unfold storesAfter
      refine ih.bind fun tail => ?_
      split
      · exact reads_pure _
      · exact (reads_stores next).bind fun _ => reads_pure _

/-- An expression after which nothing was seen to store. -/
theorem storesAfter_ok {ids : List NodeId} {storing : List Bool} (h : storesAfter ids s = .ok storing s') :
    storing.length = ids.length ∧
      ∀ i, storing[i]? = some false → ∀ id ∈ ids.drop (i + 1), stores id s = .ok false s := by
  induction ids generalizing storing s' with
  | nil =>
    cases h
    exact ⟨rfl, nofun⟩
  | cons id rest ih =>
    cases rest with
    | nil =>
      cases h
      exact ⟨rfl, fun i _ x hx => by simp at hx⟩
    | cons next rest =>
      unfold storesAfter at h
      obtain ⟨tail, s₁, htail, h₁⟩ := bind_ok h
      obtain ⟨hlen, hseen⟩ := ih htail
      obtain rfl := reads_storesAfter _ _ _ _ htail
      by_cases hhead : tail.headD false = true
      · rw [if_pos hhead] at h₁
        cases h₁
        refine ⟨by rw [List.length_cons, hlen]; rfl, fun i hi => ?_⟩
        cases i with
        | zero => cases hi
        | succ i => exact hseen i hi
      · rw [if_neg hhead] at h₁
        obtain ⟨b, s₂, hb, h₂⟩ := bind_ok h₁
        obtain rfl := reads_stores _ _ _ _ hb
        cases h₂
        refine ⟨by rw [List.length_cons, hlen]; rfl, fun i hi => ?_⟩
        cases i with
        | zero =>
          cases hi
          have h0 : tail[0]? = some false := by
            cases tail with
            | nil => cases hlen
            | cons b tail => simpa using hhead
          exact List.forall_mem_cons.2 ⟨hb, hseen 0 h0⟩
        | succ i => exact hseen i hi

/-! ## One evaluation among the others -/

section

variable {items : List (NodeId × Bool × Bool)} {es : List Evaluated}

theorem evaluateAll_length (h : evaluateAll rec items s = .ok es s') : es.length = items.length := by
  induction items generalizing es s with
  | nil =>
    cases h
    rfl
  | cons x rest ih =>
    obtain ⟨e, s₁, -, h₁⟩ := bind_ok h
    obtain ⟨es', s₂, hrest, h₂⟩ := bind_ok h₁
    cases h₂
    rw [List.length_cons, ih hrest, List.length_cons]

/-- What stands before an expression, the expression, and what stands after it. -/
theorem evaluateAll_split (h : evaluateAll rec items s = .ok es s') {i : Nat} {x : NodeId × Bool × Bool}
    (hi : items[i]? = some x) : ∃ t' e t, evaluateAll rec (items.take i) s = .ok (es.take i) t' ∧
      evaluate rec x.1 x.2.1 x.2.2 t' = .ok e t ∧ es[i]? = some e ∧
      evaluateAll rec (items.drop (i + 1)) t = .ok (es.drop (i + 1)) s' := by
  induction items generalizing es s i with
  | nil => cases hi
  | cons y rest ih =>
    obtain ⟨e, s₁, he, h₁⟩ := bind_ok h
    obtain ⟨es', s₂, hrest, h₂⟩ := bind_ok h₁
    cases h₂
    cases i with
    | zero =>
      cases hi
      exact ⟨s, e, s₁, rfl, he, rfl, hrest⟩
    | succ i =>
      obtain ⟨t', e', t, hbefore, hx, hat, hafter⟩ := ih hrest hi
      refine ⟨t', e', t, ?_, hx, hat, hafter⟩
      change (evaluate rec y.1 y.2.1 y.2.2 >>= _) s = _
      simp only [bind, EStateM.bind, he, hbefore]
      rfl

theorem evaluateAll_at {ids : List NodeId} {forced storing : List Bool} {i : Nat} {e : Evaluated}
    (h : evaluateAll rec (ids.zip (forced.zip storing)) s = .ok es s') (he : es[i]? = some e) :
    ∃ id f later t' t, ids[i]? = some id ∧ forced[i]? = some f ∧ storing[i]? = some later ∧
      evaluateAll rec ((ids.zip (forced.zip storing)).take i) s = .ok (es.take i) t' ∧
      evaluate rec id f later t' = .ok e t ∧
      evaluateAll rec ((ids.zip (forced.zip storing)).drop (i + 1)) t = .ok (es.drop (i + 1)) s' := by
  have hi : i < (ids.zip (forced.zip storing)).length := evaluateAll_length h ▸ (List.getElem?_eq_some_iff.1 he).1
  obtain ⟨⟨id, f, later⟩, hitem⟩ : ∃ x, (ids.zip (forced.zip storing))[i]? = some x := ⟨_, List.getElem?_eq_getElem hi⟩
  obtain ⟨t', e', t, hbefore, hx, he', hafter⟩ := evaluateAll_split h hitem
  rw [he] at he'
  cases he'
  obtain ⟨hid, hflags⟩ := List.getElem?_zip_eq_some.1 hitem
  obtain ⟨hf, hlater⟩ := List.getElem?_zip_eq_some.1 hflags
  exact ⟨id, f, later, t', t, hid, hf, hlater, hbefore, hx, hafter⟩

/-- The registers of the values that were evaluated before. -/
theorem evaluateAll_ready (h : ∀ x ∈ items, Steady K rec (.expr x.1)) (hs : Ready K H s)
    (hrun : evaluateAll rec items s = .ok es s') : Ready K (fun o => H o ∨ o ∈ es.map (·.op)) s' := by
  obtain ⟨hk, ho⟩ := Guards.evaluateAll h s es s' hs trivial hrun
  have hs' := hk.ready hs
  exact ⟨hs'.unit, hs'.locals, hs'.values, hs'.refs, fun o hmem => hmem.elim (hs'.live o) (ho.live o)⟩

end

/-! ## Rounds -/

/-- The rounds of `operandsAux`, with something else to do when they are used up. -/
def operandsThen (out : List Bool → EmitM (List Operand)) (rec : Emitter) (ids : List NodeId) (storing : List Bool) :
    Nat → List Bool → EmitM (List Operand)
  | 0, forced => out forced
  | fuel + 1, forced => do
    let m ← mark
    let values ← evaluateAll rec (ids.zip (forced.zip storing))
    let s ← get
    let stale := values.dropLast.map (·.isStale s)
    if stale.any id then
      rewind m
      operandsThen out rec ids storing fuel (forced.zipWith or (stale ++ [false]))
    else return values.map (·.op)

theorem operandsAux_eq_then (ids : List NodeId) (storing : List Bool) (fuel : Nat) (forced : List Bool) :
    operandsAux rec ids storing fuel forced = operandsThen (fun _ => throw .unbounded) rec ids storing fuel forced := by
  induction fuel generalizing forced with
  | zero => rfl
  | succ fuel ih =>
    unfold operandsAux operandsThen
    simp only [ih]

theorem count_zipWith_or_le (l m : List Bool) : (l.zipWith or m).count false ≤ l.count false := by
  induction l generalizing m with
  | nil => simp
  | cons a l ih =>
    cases m with
    | nil => simp
    | cons b m =>
      have := ih m
      cases a <;> cases b <;> simp <;> omega

/-- A new entry lowers the number of those that are missing. -/
theorem count_zipWith_or_lt {l m : List Bool} {i : Nat} (hl : l[i]? = some false) (hm : m[i]? = some true) :
    (l.zipWith or m).count false < l.count false := by
  induction l generalizing m i with
  | nil => cases hl
  | cons a l ih =>
    cases m with
    | nil => cases hm
    | cons b m =>
      cases i with
      | zero =>
        cases hl
        cases hm
        have := count_zipWith_or_le l m
        simp
        omega
      | succ i =>
        have := ih (m := m) hl hm
        cases a <;> cases b <;> simp <;> omega

section

variable {α β : Type} {x : EmitM α} {f : α → EmitM β}

theorem bind_run {a : α} (h : x s = .ok a s') : (x >>= f) s = f a s' := by simp only [bind, EStateM.bind, h]

theorem bind_fail {e : EmitFailure} (h : x s = .error e s') : (x >>= f) s = .error e s' := by
  simp only [bind, EStateM.bind, h]

end

def markOf (s : EmitState) : Mark where
  code := s.asm.mark
  notes := s.notes
  values := s.values
  refs := s.refs
  spills := s.frame.spills
  countingCalls := s.countingCalls

theorem mark_run (s : EmitState) : mark s = .ok (markOf s) s := rfl

theorem rewind_run (m : Mark) (s : EmitState) : ∃ s', rewind m s = .ok () s' := ⟨_, rfl⟩

/-- A value in a scratch register is never stale. -/
theorem not_stale_of_scratch {e : Evaluated} (h : e.op.isScratch = true) : e.isStale s = false := by
  simp only [Operand.isScratch, Bool.or_eq_true, decide_eq_true_eq] at h
  rcases h with h | h <;> simp [Evaluated.isStale, h]

/-- What is stale was not forced into a register. -/
theorem forced_of_stale {ids : List NodeId} {forced storing : List Bool} {es : List Evaluated} {i : Nat} {e : Evaluated}
    (h : ∀ id ∈ ids, Steady K rec (.expr id)) (hs : Ready K H s)
    (hrun : evaluateAll rec (ids.zip (forced.zip storing)) s = .ok es s') (he : es[i]? = some e)
    (hstale : e.isStale s' = true) : forced[i]? = some false := by
  obtain ⟨id, f, later, t', t, hid, hf, -, hbefore, hx, -⟩ := evaluateAll_at hrun he
  have htake : ∀ x ∈ (ids.zip (forced.zip storing)).take i, Steady K rec (.expr x.1) :=
    fun x hx => h x.1 (List.of_mem_zip (List.mem_of_mem_take hx)).1
  have hready := evaluateAll_ready htake hs hbefore
  obtain ⟨-, -, hscratch, -⟩ := Guards.evaluate (h id (List.mem_of_getElem? hid)) _ _ _ _ _ hready trivial hx
  rw [hf, Option.some.injEq]
  refine Bool.eq_false_iff.2 fun hforced => ?_
  rw [not_stale_of_scratch (hscratch hforced)] at hstale
  cases hstale

/-- The round that stays: no value but the last is stale after it. -/
def Settled (rec : Emitter) (ids : List NodeId) (storing forced : List Bool) (s : EmitState) (os : List Operand)
    (s' : EmitState) : Prop :=
  ∃ es, evaluateAll rec (ids.zip (forced.zip storing)) s = .ok es s' ∧ os = es.map (·.op) ∧
    ∀ e ∈ es.dropLast, e.isStale s' = false

/-- A round ends the search or is taken back, with one more expression forced into a register. -/
theorem operandsThen_round {ids : List NodeId} {storing forced : List Bool} (h : ∀ id ∈ ids, Steady K rec (.expr id))
    (hs : Ready K H s) (hf : forced.length = ids.length) (hst : storing.length = ids.length) :
    (∃ r, (∀ os s', r = .ok os s' → Settled rec ids storing forced s os s') ∧
        ∀ out fuel, operandsThen out rec ids storing (fuel + 1) forced s = r) ∨
      ∃ forced' s₂, Keeps K H s s₂ ∧ s₂.asm.code = s.asm.code ∧ forced'.length = ids.length ∧
        forced'.count false < forced.count false ∧
        ∀ out fuel, operandsThen out rec ids storing (fuel + 1) forced s = operandsThen out rec ids storing fuel forced' s₂ := by
  have hitems : ∀ x ∈ ids.zip (forced.zip storing), Steady K rec (.expr x.1) := fun x hx => h x.1 (List.of_mem_zip hx).1
  have hmark := mark_run s
  cases hv : evaluateAll rec (ids.zip (forced.zip storing)) s with
  | error e s₁ =>
    refine .inl ⟨.error e s₁, fun _ _ hr => (by cases hr), fun out fuel => ?_⟩
    unfold operandsThen
    rw [bind_run hmark, bind_fail hv]
  | ok es s₁ =>
    have hget : (get : EmitM EmitState) s₁ = .ok s₁ s₁ := rfl
    by_cases hstale : (es.dropLast.map (·.isStale s₁)).any id = true
    · obtain ⟨s₂, hr⟩ := rewind_run (markOf s) s₁
      have hv' := (Guards.evaluateAll hitems s es s₁ hs trivial hv).1
      have hlen := evaluateAll_length hv
      simp only [List.length_zip, hf, hst, Nat.min_self] at hlen
      have hk := hv'.rewind (Steady.extends hitems hs hv) hmark hr
      refine .inr ⟨forced.zipWith or (es.dropLast.map (·.isStale s₁) ++ [false]), s₂, hk, ?_, ?_, ?_, fun out fuel => ?_⟩
      · exact rewind_code hv'.asm hmark hr
      · have hne : es ≠ [] := by
          rintro rfl
          cases hstale
        have := List.length_pos_iff.2 hne
        simp only [List.length_zipWith, List.length_append, List.length_map, List.length_dropLast, List.length_singleton, hf]
        omega
      · obtain ⟨b, hb, hbt⟩ := List.any_eq_true.1 hstale
        obtain ⟨i, hi⟩ := List.getElem?_of_mem hb
        have hi' : (es.dropLast.map (·.isStale s₁) ++ [false])[i]? = some true := by
          rw [List.getElem?_append_left (List.getElem?_eq_some_iff.1 hi).1, hi, Option.some.injEq]
          exact hbt
        rw [List.getElem?_map] at hi
        obtain ⟨e, he, hold⟩ := Option.map_eq_some_iff.1 hi
        have hes : es[i]? = some e := by
          rw [List.getElem?_dropLast] at he
          split at he
          · exact he
          · cases he
        exact count_zipWith_or_lt (forced_of_stale h hs hv hes (hold.trans hbt)) hi'
      · rw [operandsThen]
        rw [bind_run hmark, bind_run hv, bind_run hget, if_pos hstale, bind_run hr]
    · refine .inl ⟨.ok (es.map (·.op)) s₁, ?_, fun out fuel => ?_⟩
      · rintro os s' hr
        cases hr
        refine ⟨es, hv, rfl, fun e he => ?_⟩
        simp only [List.any_map, List.any_eq_true, not_exists, not_and] at hstale
        exact Bool.eq_false_iff.2 (hstale e he)
      · unfold operandsThen
        rw [bind_run hmark, bind_run hv, bind_run hget, if_neg hstale]
        rfl

/-- Each round but the last forces one more expression; what is left to do after them is never reached. -/
theorem operandsThen_rounds {ids : List NodeId} {storing : List Bool} (h : ∀ id ∈ ids, Steady K rec (.expr id))
    (hst : storing.length = ids.length) (out out' : List Bool → EmitM (List Operand)) (fuel : Nat) {forced : List Bool}
    (hs : Ready K H s) (hf : forced.length = ids.length) (hfuel : forced.count false ≤ fuel) :
    operandsThen out rec ids storing (fuel + 1) forced s = operandsThen out' rec ids storing (fuel + 1) forced s := by
  induction fuel generalizing forced s with
  | zero =>
    rcases operandsThen_round h hs hf hst with ⟨r, -, hr⟩ | ⟨forced', s₂, -, -, -, hlt, -⟩
    · rw [hr, hr]
    · omega
  | succ fuel ih =>
    rcases operandsThen_round h hs hf hst with ⟨r, -, hr⟩ | ⟨forced', s₂, hk, -, hf', hlt, hr⟩
    · rw [hr, hr]
    · rw [hr, hr]
      exact ih (hk.ready hs) hf' (by omega)

/-- The round that stays starts where the first one did. -/
theorem lastRound {ids : List NodeId} {storing : List Bool} {os : List Operand} (h : ∀ id ∈ ids, Steady K rec (.expr id))
    (hst : storing.length = ids.length) (fuel : Nat) {forced : List Bool} (hs : Ready K H s)
    (hf : forced.length = ids.length) (hrun : operandsAux rec ids storing fuel forced s = .ok os s') :
    ∃ forced' s₀, Keeps K H s s₀ ∧ s₀.asm.code = s.asm.code ∧ forced'.length = ids.length ∧
      Settled rec ids storing forced' s₀ os s' := by
  rw [operandsAux_eq_then] at hrun
  induction fuel generalizing forced s with
  | zero => cases hrun
  | succ fuel ih =>
    rcases operandsThen_round h hs hf hst with ⟨r, hsettled, hr⟩ | ⟨forced', s₂, hk, hcode, hf', -, hr⟩
    · rw [hr] at hrun
      exact ⟨forced, s, (Quiet.refl s).keeps, rfl, hf, hsettled os s' hrun⟩
    · rw [hr] at hrun
      obtain ⟨forced'', s₀, hk', hcode', hf'', hsettled⟩ := ih (hk.ready hs) hf' hrun
      exact ⟨forced'', s₀, hk.trans hk', hcode'.trans hcode, hf'', hsettled⟩

/-! ## Values stay -/

def Watch.of (s : EmitState) (calm : Operand → Prop) : Watch where
  unit := s.unit
  locals := s.frame.locals
  calm := calm

theorem ready_start (hv : s.values.kind = .value) (hr : s.refs.kind = .ref) (calm : Operand → Prop) :
    Ready (.of s calm) (fun _ => False) s :=
  ⟨rfl, rfl, hv, hr, fun _ h => h.elim⟩

theorem steady_restless (fuel : Nat) (p : Place) : Steady (.of s fun _ => False) (emitter fuel) p :=
  emitter_steady fuel p fun _ _ h => h

theorem evaluate_counts {id : NodeId} {forced later : Bool} {e : Evaluated} (h : evaluate rec id forced later s = .ok e s') :
    e.accumulatorWrites = s'.accumulatorWrites ∧ e.returnWrites = s'.returnWrites := by
  have done (op : Operand) {s : EmitState} (h : (do
      let s ← get
      pure { op, accumulatorWrites := s.accumulatorWrites, returnWrites := s.returnWrites } : EmitM Evaluated) s = .ok e s') :
      e.accumulatorWrites = s'.accumulatorWrites ∧ e.returnWrites = s'.returnWrites := by
    cases h
    exact ⟨rfl, rfl⟩
  obtain ⟨op, s₁, -, h₁⟩ := bind_ok h
  dsimp only at h₁
  by_cases hcopy : (later && op.isVariable) = true
  · rw [if_pos hcopy] at h₁
    obtain ⟨n, s₂, -, h₂⟩ := bind_ok h₁
    obtain ⟨r, s₃, -, h₃⟩ := bind_ok h₂
    exact done r h₃
  · rw [if_neg hcopy] at h₁
    exact done op h₁

/-- A value that is not stale at the end is guarded from where it was made, if it is in no variable or all is calm. -/
theorem guarded_of_fresh {e : Evaluated} (hcount : e.op.kind ≠ .spreadCount) (hacc : e.accumulatorWrites = s.accumulatorWrites)
    (hret : e.returnWrites = s.returnWrites) (hfresh : e.isStale s' = false) (hH : e.op.isScratch = true → H e.op)
    (hcalm : e.op.isVariable = true → K.calm e.op) : Guarded K H s s' e.op := by
  unfold Guarded
  cases hk : e.op.kind <;> simp_all [Evaluated.isStale, Operand.isScratch, Operand.isVariable]

/-- A value that is neither in the accumulator nor the result of a call is guarded, if it is in no variable or all is calm. -/
theorem guarded_of_calm {o : Operand} (hcount : o.kind ≠ .spreadCount) (hacc : o.kind ≠ .accumulator)
    (hret : o.kind ≠ .returned) (hH : o.isScratch = true → H o) (hcalm : o.isVariable = true → K.calm o) :
    Guarded K H s s' o := by
  unfold Guarded
  cases hk : o.kind <;> simp_all [Operand.isScratch, Operand.isVariable]

/-- In the code from `s` to `s'`, the `i`-th expression is evaluated into `o` just before the address `ip`. -/
def EvaluatedAt (rec : Emitter) (ids : List NodeId) (s s' : EmitState) (i : Nat) (o : Operand) (ip : Nat) : Prop :=
  ∃ (s₀ : EmitState) (items : List (NodeId × Bool × Bool)) (es : List Evaluated) (t' : EmitState) (id : NodeId)
      (forced later : Bool) (e : Evaluated) (t : EmitState),
    s₀.asm.code = s.asm.code ∧ items.map Prod.fst = ids.take i ∧ evaluateAll rec items s₀ = .ok es t' ∧ ids[i]? = some id ∧
      evaluate rec id forced later t' = .ok e t ∧ e.op = o ∧ t.asm.pos = ip ∧ t.asm.Continues s'.asm

/-- Stores that the walk over the later expressions does not see. -/
def Unseen (s : EmitState) (ids : List NodeId) (i : Nat) : Prop :=
  ∃ id ∈ ids.drop (i + 1), s.unit.Stores (.expr id) ∧ stores id s = .ok false s

/-- How a value of the round that stays was made, and that it is what it was when it was made. -/
theorem Settled.evaluated {fuel : Nat} {ids : List NodeId} {storing forced : List Bool} {os : List Operand} {s₀ : EmitState}
    (h : Settled (emitter fuel) ids storing forced s₀ os s') (hs : Ready (.of s fun _ => False) (fun _ => False) s₀)
    (hf : forced.length = ids.length) (hst : storing.length = ids.length) {i : Nat} {o : Operand} (ho : os[i]? = some o) :
    ∃ items es t' id f later e t, items.map Prod.fst = ids.take i ∧ evaluateAll (emitter fuel) items s₀ = .ok es t' ∧
      ids[i]? = some id ∧ evaluate (emitter fuel) id f later t' = .ok e t ∧ e.op = o ∧ t.asm.Continues s'.asm ∧
      ((o.isVariable = true → storing[i]? = some false → ∀ id ∈ ids.drop (i + 1), ¬s.unit.Stores (.expr id)) →
        ∀ a, s'.asm.Continues a → a.Preserves s.frame.locals o t.asm.pos s'.asm.pos) := by
  obtain ⟨es, hes, rfl, hfresh⟩ := h
  rw [List.getElem?_map] at ho
  obtain ⟨e, he, rfl⟩ := Option.map_eq_some_iff.1 ho
  obtain ⟨id, f, later, t', t, hid, -, hlater, hbefore, hx, hafter⟩ := evaluateAll_at hes he
  have hfst : (ids.zip (forced.zip storing)).map Prod.fst = ids := List.map_fst_zip (by simp [hf, hst])
  have hready := evaluateAll_ready (fun x _ => steady_restless fuel (.expr x.1)) hs hbefore
  obtain ⟨hk, hown, -, hvar, hlive⟩ := Guards.evaluate (steady_restless fuel (.expr id)) f later t' e t hready trivial hx
  have ht := hk.ready hready
  -- From here on the value itself is watched, and the variables as long as no later expression stores.
  have ht' : Ready (.of s fun _ => ∀ id ∈ ids.drop (i + 1), ¬s.unit.Stores (.expr id)) (· = e.op) t :=
    ⟨ht.unit, ht.locals, ht.values, ht.refs, fun o ho => ho ▸ hlive⟩
  have hrest : ∀ x ∈ (ids.zip (forced.zip storing)).drop (i + 1), Steady
      (.of s fun _ => ∀ id ∈ ids.drop (i + 1), ¬s.unit.Stores (.expr id)) (emitter fuel) (.expr x.1) := by
    intro x hx
    refine emitter_steady fuel _ fun hstores o hcalm => hcalm x.1 ?_ hstores
    rw [← hfst, ← List.map_drop]
    exact List.mem_map_of_mem hx
  obtain ⟨hkeep, -⟩ := Guards.evaluateAll hrest t _ s' ht' trivial hafter
  refine ⟨_, _, t', id, f, later, e, t, ?_, hbefore, hid, hx, rfl, hkeep.asm, fun hcond a ha => ?_⟩
  · rw [List.map_take, hfst]
  · obtain ⟨hacc, hret⟩ := evaluate_counts hx
    have hfresh : e.isStale s' = false := by
      by_cases hlast : i < es.length - 1
      · exact hfresh e (List.mem_of_getElem? (i := i) (by rw [List.getElem?_dropLast, if_pos hlast, he]))
      · have hnil : (ids.zip (forced.zip storing)).drop (i + 1) = [] := by
          rw [List.drop_eq_nil_iff, ← evaluateAll_length hes]
          omega
        rw [hnil] at hafter
        obtain ⟨-, rfl⟩ := EStateM.Result.ok.inj hafter
        simp [Evaluated.isStale, hacc, hret]
    have hlocals : t.frame.locals = s.frame.locals := ht.locals
    rw [← hlocals]
    refine hkeep.safe a ha e.op (guarded_of_fresh hown.counted hacc hret hfresh (fun _ => rfl) fun hv => ?_)
    have hlater' : later = false := Bool.eq_false_iff.2 fun h => by rw [hvar h] at hv; cases hv
    exact hcond hv (hlater' ▸ hlater)

/-- A value of the round that stays is what it was when it was made. -/
theorem Settled.kept {fuel : Nat} {ids : List NodeId} {storing forced : List Bool} {os : List Operand} {s₀ : EmitState}
    (h : Settled (emitter fuel) ids storing forced s₀ os s') (hs : Ready (.of s fun _ => False) (fun _ => False) s₀)
    (hf : forced.length = ids.length) (hst : storing.length = ids.length) {i : Nat} {o : Operand} (ho : os[i]? = some o) :
    ∃ ip, EvaluatedAt (emitter fuel) ids s₀ s' i o ip ∧
      ((o.isVariable = true → storing[i]? = some false → ∀ id ∈ ids.drop (i + 1), ¬s.unit.Stores (.expr id)) →
        ∀ a, s'.asm.Continues a → a.Preserves s.frame.locals o ip s'.asm.pos) := by
  obtain ⟨items, es, t', id, f, later, e, t, hitems, hbefore, hid, hx, hop, hcont, hkept⟩ := h.evaluated hs hf hst ho
  exact ⟨t.asm.pos, ⟨s₀, items, es, t', id, f, later, e, t, rfl, hitems, hbefore, hid, hx, hop, rfl, hcont⟩, hkept⟩

theorem evaluated_kept {fuel : Nat} {ids : List NodeId} {os : List Operand} (hv : s.values.kind = .value)
    (hr : s.refs.kind = .ref) (hrun : operands (emitter fuel) ids s = .ok os s') {i : Nat} {o : Operand}
    (ho : os[i]? = some o) :
    ∃ ip, EvaluatedAt (emitter fuel) ids s s' i o ip ∧
      ((o.isVariable = true → ¬Unseen s ids i) →
        ∀ a, s'.asm.Continues a → a.Preserves s.frame.locals o ip s'.asm.pos) := by
  obtain ⟨storing, s₁, hseen, hrun₁⟩ := bind_ok hrun
  obtain rfl : s = s₁ := (reads_storesAfter _ _ _ _ hseen).symm
  obtain ⟨hst, hseen⟩ := storesAfter_ok hseen
  have hs := ready_start hv hr fun _ => False
  obtain ⟨forced, s₀, hk₀, hcode, hf, hsettled⟩ :=
    lastRound (fun id _ => steady_restless fuel (.expr id)) hst _ hs (List.length_map ..) hrun₁
  obtain ⟨ip, hat, hkept⟩ := hsettled.kept (hk₀.ready hs) hf hst ho
  refine ⟨ip, ?_, fun hcond => hkept fun hvar hlater id hid hstores => ?_⟩
  · obtain ⟨s₂, items, es, t', id, f, later, e, t, hcode', hrest⟩ := hat
    exact ⟨s₂, items, es, t', id, f, later, e, t, hcode'.trans hcode, hrest⟩
  · exact hcond hvar ⟨id, hid, hstores, hseen i hlater id hid⟩

/-! ## The callee of a value call -/

theorem Guards.stable_kind {P : Pool → Pool → Prop} {o : Operand} (ho : Own H o) (t : TypeId) (id : NodeId) :
    Guards K H P (Emit.stable o t id) fun x _ _ => x.kind ≠ .accumulator ∧ x.kind ≠ .returned := by
  unfold Emit.stable
  refine .ite (fun _ => ?_) fun h => .pure fun _ _ _ => ?_
  · refine (Guards.toRegister ho t id).mono (fun _ _ h => h) fun x _ _ hx => ?_
    have hs := hx.2.1
    simp only [Operand.isScratch, Bool.or_eq_true, decide_eq_true_eq] at hs
    rcases hs with hs | hs <;> rw [hs] <;> exact ⟨by rintro ⟨⟩, by rintro ⟨⟩⟩
  · simpa only [Bool.or_eq_true, decide_eq_true_eq, not_or] using h

theorem calleeOperand_value {fuel : Nat} {id : NodeId} {n : Node} {info : CallInfo} {p : Opcode × Operand} {calm : Operand → Prop}
    (hv : s.values.kind = .value) (hr : s.refs.kind = .ref) (hk : info.kind = .value)
    (h : calleeOperand (emitter fuel) id n info s = .ok p s') :
    p.1 = .callValue ∧ p.2.kind ≠ .accumulator ∧ p.2.kind ≠ .returned ∧ Own (fun _ => False) p.2 ∧
      Ready (.of s calm) (· = p.2) s' := by
  have hs := ready_start hv hr fun _ => False
  obtain ⟨hkeep, ⟨-, hown⟩, hlive⟩ := Guards.calleeOperand (by rw [hk]; nofun) (fun _ => steady_restless fuel _) s p s' hs trivial h
  have hs' := hkeep.ready hs
  have hready : Ready (.of s calm) (· = p.2) s' := ⟨hs'.unit, hs'.locals, hs'.values, hs'.refs, fun o ho => ho ▸ hlive⟩
  unfold calleeOperand at h
  rw [hk] at h
  obtain ⟨v, s₁, hv, h₁⟩ := bind_ok h
  obtain ⟨an, s₂, hn, h₂⟩ := bind_ok h₁
  obtain ⟨o, s₃, hstable, h₃⟩ := bind_ok h₂
  cases h₃
  obtain ⟨hk₁, hv', -⟩ := Guards.exprAny (steady_restless fuel _) s v s₁ hs trivial hv
  have hs₂ := (IsQuiet.node _ s₁ an s₂ hn).keeps.ready (hk₁.ready hs)
  obtain ⟨-, hacc, hret⟩ := Guards.stable_kind (P := Any) hv' _ _ s₂ o s' hs₂ trivial hstable
  exact ⟨rfl, hacc, hret, hown, hready⟩

/-- Saving the registers before a call changes only spill slots. -/
theorem Invokes.saves {saved : List (Operand × Operand)} {i : Instr} (h : Invokes saved i s s') (hs : Ready K H s) {o : Operand}
    (ho : o.kind = .stack → ¬o.Outlives s.frame.locals) {a : Assembler} (ha : s'.asm.Continues a) :
    a.code[s.asm.pos + saved.length]? = some i ∧
      a.Preserves s.frame.locals o s.asm.pos (s.asm.pos + saved.length) := by
  obtain ⟨hapart, hslots⟩ := h.apart hs
  have hlen : (saveCode saved).length = saved.length := List.length_map ..
  have hblock := ha.block h.code
  simp only [List.length_append, List.length_cons] at hblock
  constructor
  · rw [← hlen, hblock _ (by omega), List.getElem?_append_right (Nat.le_refl _), Nat.sub_self]
    rfl
  · rw [← hlen]
    refine .block (fun j hj => ?_) (fun k hk => ?_) fun V σ τ he => ?_
    · obtain ⟨p, -, rfl⟩ := List.mem_map.1 hj
      rfl
    · rw [hblock k (by omega), List.getElem?_append_left hk]
    · refine (exec_saveCode he hapart).2 o fun p hp heq => ?_
      obtain ⟨hkind, hout⟩ := hslots p hp
      subst heq
      exact ho hkind hout

theorem free_asm {o : Operand} {a : Unit} (h : free o s = .ok a s') : s'.asm = s.asm := by
  unfold free at h
  cases hk : o.kind <;> rw [hk] at h
  case value =>
    obtain ⟨_, -, rfl⟩ := withValues_ok h
    rfl
  case ref =>
    obtain ⟨_, -, rfl⟩ := withRefs_ok h
    rfl
  all_goals
    cases h
    rfl

/-- The places of the arguments of a call. -/
def argPlaces (u : AnalysisResult) (n : Node) (info : CallInfo) : List Place :=
  n.list.map u.argPart ++ if info.method then [.expr (u.receiver n)] else []

/-- A variable that no spill slot can be, and that the arguments do not store to. -/
def Undisturbed (s : EmitState) (n : Node) (info : CallInfo) (o : Operand) : Prop :=
  ¬o.Outlives s.frame.locals ∧ ∀ p ∈ argPlaces s.unit n info, ¬s.unit.Stores p

theorem args_kept {fuel : Nat} {n : Node} {info : CallInfo} {spread : Bool} {t t₁ t₂ t₃ : EmitState} {saved : Option Operand}
    {fixed : Nat} {a : Unit} (ht : Ready (.of s (Undisturbed s n info)) H t) (hbegin : beginSpread spread t = .ok saved t₁)
    (hargs : pushArgs (emitter fuel) n info.method t₁ = .ok fixed t₂) (hend : endSpread spread t₂ = .ok a t₃) :
    Keeps (.of s (Undisturbed s n info)) H t t₃ := by
  have hsteady : ∀ p ∈ argPlaces s.unit n info, Steady (.of s (Undisturbed s n info)) (emitter fuel) p :=
    fun p hp => emitter_steady fuel p fun hstores o hcalm => hcalm.2 p hp hstores
  have hslots : ∀ o : Operand, o.Outlives s.frame.locals → ¬Undisturbed s n info o := fun o hout hcalm => hcalm.1 hout
  have h₁ := (Guards.beginSpread (P := Any) hslots spread t saved t₁ ht trivial hbegin).1
  have h₂ : Keeps (.of s (Undisturbed s n info)) H t₁ t₂ := by
    refine (Guards.pushArgs (fun arg harg => hsteady _ ?_) (fun hm => hsteady _ ?_) t₁ fixed t₂ (h₁.ready ht) trivial hargs).1
    · exact List.mem_append_left _ (List.mem_map_of_mem harg)
    · exact List.mem_append_right _ (by rw [if_pos hm]; exact List.mem_singleton_self _)
  exact (h₁.trans h₂).trans (IsQuiet.endSpread spread t₂ a t₃ hend).keeps

theorem callee_kept {fuel : Nat} {id : NodeId} {n : Node} {info : CallInfo} {r : Operand} (hv : s.values.kind = .value)
    (hr : s.refs.kind = .ref) (hinfo : s.unit.calls.get? id = some info) (hk : info.kind = .value)
    (hrun : call (emitter fuel) id n s = .ok r s') :
    ∃ callee t ip fixed, calleeOperand (emitter fuel) id n info s = .ok (.callValue, callee) t ∧ t.asm.pos ≤ ip ∧
      s'.asm.code[ip]? = some { op := .callValue, a := callee, b := .int fixed } ∧
      ((callee.isVariable = true → Undisturbed s n info callee) →
        ∀ a, s'.asm.Continues a → a.Preserves s.frame.locals callee t.asm.pos ip) := by
  obtain ⟨u, _, hu, hrun₁⟩ := bind_ok hrun
  cases hu
  rw [hinfo] at hrun₁
  dsimp only at hrun₁
  rw [if_neg (by rw [hk]; nofun)] at hrun₁
  obtain ⟨⟨op, callee⟩, t, hcallee, hrun₂⟩ := bind_ok hrun₁
  obtain ⟨u, _, hu, hrun₃⟩ := bind_ok hrun₂
  cases hu
  obtain ⟨saved, t₁, hbegin, hrun₄⟩ := bind_ok hrun₃
  obtain ⟨fixed, t₂, hargs, hrun₅⟩ := bind_ok hrun₄
  obtain ⟨_, t₃, hend, hrun₆⟩ := bind_ok hrun₅
  obtain ⟨_, t₄, hfree, hrun₇⟩ := bind_ok hrun₆
  obtain ⟨_, t₅, hinvoke, hrun₈⟩ := bind_ok hrun₇
  obtain ⟨_, t₆, hrestore, hrun₉⟩ := bind_ok hrun₈
  obtain ⟨_, _, hkind, hdone⟩ := bind_ok hrun₉
  cases hkind
  cases hdone
  dsimp only at hfree hinvoke
  obtain ⟨hop, hacc, hret, hown, ht⟩ := @calleeOperand_value _ _ _ _ _ _ _ (Undisturbed s n info) hv hr hk hcallee
  cases hop
  have hkeep := args_kept ht hbegin hargs hend
  have hs₃ : Ready (.of s fun _ => False) (fun _ => False) t₃ :=
    have h := hkeep.ready ht
    ⟨h.unit, h.locals, h.values, h.refs, fun _ h => h.elim⟩
  have hs₄ := (Guards.free (P := Any) hown t₃ _ t₄ hs₃ trivial hfree).1.ready hs₃
  obtain ⟨regs, hi⟩ := invoke_ok rfl hinvoke
  have hcall := hi.keeps rfl (fun _ h => h) hs₄
  have hs₅ := hcall.ready hs₄
  have hrest := (Guards.restoreSpread (P := Any) saved t₅ _ s' hs₅ trivial hrestore).1.asm
  have hasm : t₄.asm = t₃.asm := free_asm hfree
  have hlocals : t.frame.locals = s.frame.locals := ht.locals
  have hlocals₄ : t₄.frame.locals = s.frame.locals := hs₄.locals
  have hpos : t₄.asm.pos = t₃.asm.pos := by rw [hasm]
  refine ⟨callee, t, t₄.asm.pos + regs.length, fixed, hcallee, ?_, ?_, fun hcond a ha => ?_⟩
  · have := hkeep.asm.pos_le
    omega
  · exact (hi.saves hs₄ (o := .none) nofun hrest).1
  · have hsaves := (hi.saves hs₄ (o := callee) (fun hstack hout => ?_) (hrest.trans ha)).2
    · have hargs := hkeep.safe a ?_ callee ?_
      · rw [hlocals] at hargs
        rw [hlocals₄, hpos] at hsaves
        rw [hpos]
        exact hargs.trans hsaves hkeep.asm.pos_le (Nat.le_add_right ..)
      · rw [← hasm]
        exact (hcall.asm.trans hrest).trans ha
      · exact guarded_of_calm hown.counted hacc hret (fun _ => rfl) hcond
    · rw [hlocals₄] at hout
      exact (hcond (by simp [Operand.isVariable, hstack])).1 hout

/-! ## Operands keep their values until they are used -/

def operandsWithin (out : List Bool → EmitM (List Operand)) (rec : Emitter) (ids : List NodeId) (rounds : Nat) :
    EmitM (List Operand) := do
  operandsThen out rec ids (← storesAfter ids) rounds (ids.map fun _ => false)

theorem operandsWithin_rounds (fuel : Nat) (hv : s.values.kind = .value) (hr : s.refs.kind = .ref) (ids : List NodeId)
    (out : List Bool → EmitM (List Operand)) :
    operandsWithin out (emitter fuel) ids (ids.length + 1) s = operands (emitter fuel) ids s := by
  unfold operandsWithin operands
  cases hst : storesAfter ids s with
  | error e s₁ => rw [bind_fail hst, bind_fail hst]
  | ok storing s₁ =>
    obtain rfl : s = s₁ := (reads_storesAfter _ _ _ _ hst).symm
    rw [bind_run hst, bind_run hst, operandsAux_eq_then]
    refine operandsThen_rounds (fun id _ => steady_restless fuel (.expr id)) (storesAfter_ok hst).1 _ _ _
      (ready_start hv hr fun _ => False) (List.length_map ..) ?_
    exact Nat.le_trans List.count_le_length (Nat.le_of_eq (List.length_map ..))

theorem operands_length {fuel : Nat} {ids : List NodeId} {os : List Operand} (hv : s.values.kind = .value)
    (hr : s.refs.kind = .ref) (hrun : operands (emitter fuel) ids s = .ok os s') : os.length = ids.length := by
  obtain ⟨storing, s₁, hst, hrun₁⟩ := bind_ok hrun
  obtain rfl : s = s₁ := (reads_storesAfter _ _ _ _ hst).symm
  have hlen := (storesAfter_ok hst).1
  obtain ⟨forced, s₀, -, -, hf, es, hes, rfl, -⟩ := lastRound (fun id _ => steady_restless fuel (.expr id)) hlen _
    (ready_start hv hr fun _ => False) (List.length_map ..) hrun₁
  rw [List.length_map, evaluateAll_length hes]
  simp [hf, hlen]

/-- At most as many rounds as there are expressions are taken back. Each operand then holds what it held when its expression
was evaluated, unless it is a variable that a later expression stores to unseen; and so does the callee of a value call at
the call, unless it is a variable that the arguments store to. -/
theorem operands_keep_values (fuel : Nat) (s : EmitState) (hv : s.values.kind = .value) (hr : s.refs.kind = .ref) :
    (∀ ids out, operandsWithin out (emitter fuel) ids (ids.length + 1) s = operands (emitter fuel) ids s) ∧
    (∀ ids os s', operands (emitter fuel) ids s = .ok os s' → os.length = ids.length ∧
      ∀ i o, os[i]? = some o → ∃ ip, EvaluatedAt (emitter fuel) ids s s' i o ip ∧
        ((o.isVariable = true → ¬Unseen s ids i) →
          ∀ a, s'.asm.Continues a → a.Preserves s.frame.locals o ip s'.asm.pos)) ∧
    ∀ id n info r s', s.unit.calls.get? id = some info → info.kind = .value → call (emitter fuel) id n s = .ok r s' →
      ∃ callee t ip fixed, calleeOperand (emitter fuel) id n info s = .ok (.callValue, callee) t ∧ t.asm.pos ≤ ip ∧
        s'.asm.code[ip]? = some { op := .callValue, a := callee, b := .int fixed } ∧
        ((callee.isVariable = true → Undisturbed s n info callee) →
          ∀ a, s'.asm.Continues a → a.Preserves s.frame.locals callee t.asm.pos ip) := by
  refine ⟨fun ids out => operandsWithin_rounds fuel hv hr ids out, fun ids os s' hrun => ⟨operands_length hv hr hrun, ?_⟩, ?_⟩
  · intro i o ho
    exact evaluated_kept hv hr hrun ho
  · intro id n info r s' hinfo hk hrun
    exact callee_kept hv hr hinfo hk hrun

/-- A variable is read before a call that assigns to it. -/
def readBeforeCall : Tree where
  nodes := #[
    .typeName ["int"], .intLit 1, .letDecl "x" 1 2, .typeName ["int"], .ident ["x"], .intLit 5, .assign .none 5 6,
    .exprStmt 7, .intLit 2, .returnStmt 9, .block [8, 10], .func "f" [] 4 11, .typeName ["int"], .ident ["x"],
    .ident ["f"], .call 15 [], .binary .add 14 16, .letDecl "y" 13 17, { kind := .file, list := [3, 12, 18] }]
  roots := [19]

theorem readBeforeCall_keeps_value :
    let s := start (readBeforeCall.analyze {} {}).state.result {} {}
    s.values.kind = .value ∧ s.refs.kind = .ref ∧ ∃ os s', operands (emitter 50) [14, 16] s = .ok os s' ∧
      os = [{ kind := .value, val := 0 }, .returned] ∧ ∃ ip, EvaluatedAt (emitter 50) [14, 16] s s' 0 { kind := .value, val := 0 } ip ∧
        ∀ a, s'.asm.Continues a → a.Preserves s.frame.locals { kind := .value, val := 0 } ip s'.asm.pos := by
  refine ⟨rfl, rfl, ?_⟩
  have hview : view? (operands (emitter 50) [14, 16]) (fun os _ => os)
      (start (readBeforeCall.analyze {} {}).state.result {} {}) = some [{ kind := .value, val := 0 }, .returned] := by
    decide +kernel
  obtain ⟨os, s', hrun, hos⟩ := view?_eq_some hview
  obtain ⟨-, hkept⟩ := (operands_keep_values 50 (start _ {} {}) rfl rfl).2.1 [14, 16] os s' hrun
  obtain ⟨ip, hat, hpreserves⟩ := hkept 0 { kind := .value, val := 0 } (by rw [hos]; rfl)
  exact ⟨os, s', hrun, hos, ip, hat, hpreserves nofun⟩

/-- A variable is read before a struct is made whose default assigns to it. -/
def readBeforeDefault : Tree where
  nodes := #[
    .typeName ["int"], .intLit 1, .letDecl "x" 1 2, .typeName ["int"], .ident ["x"], .intLit 5, .assign .none 5 6,
    .field "a" 4 7, .typeStruct [8], .typeDecl "S" 9, .typeName ["int"], .ident ["x"], .typeName ["S"], .structLit 13 [],
    .member 14 "a", .binary .add 12 15, .letDecl "y" 11 16, { kind := .file, list := [3, 10, 17] }]
  roots := [18]

/-- The variable is not copied, and the default overwrites it. -/
theorem default_overwrites_operand :
    let e := readBeforeDefault.analyze {} {}
    let s := start e.state.result {} {}
    e.failure = none ∧ e.hasErrors = false ∧ ∃ os s', operands (emitter 50) [12, 15] s = .ok os s' ∧
      os = [.global 0, .accumulator] ∧ EvaluatedAt (emitter 50) [12, 15] s s' 0 (.global 0) 0 ∧
      ∃ σ τ : Store Bool, s'.asm.Steps s.frame.locals (0, σ) (s'.asm.pos, τ) ∧ τ (.global 0) ≠ σ (.global 0) := by
  intro e s
  have hends : e.failure = none ∧ e.hasErrors = false ∧
      view? (operands (emitter 50) [12, 15]) (fun os s' => (os, s'.asm.code)) s = some ([.global 0, .accumulator], #[
        { op := .mov, a := .global 0, b := .int 5 }, { op := .push, a := .global 0 },
        { op := .makeStruct, a := .type 0, b := .int 1 }, { op := .field, a := .accumulator, b := .int 0 }]) ∧
      view? (evaluate (emitter 50) 12 false false) (fun e t => (e.op, t.asm.code, t.asm.labels)) s =
        some (.global 0, #[], #[]) := by decide +kernel
  obtain ⟨hfailure, herrors, hview, hview'⟩ := hends
  refine ⟨hfailure, herrors, ?_⟩
  obtain ⟨os, s', hrun, hos⟩ := view?_eq_some hview
  obtain ⟨x, t, hx, hop⟩ := view?_eq_some hview'
  simp only [Prod.mk.injEq] at hos hop
  obtain ⟨hos, hcode⟩ := hos
  obtain ⟨hop, hempty, hlabels⟩ := hop
  have hpos : t.asm.pos = 0 := by rw [Assembler.pos, hempty]; rfl
  refine ⟨os, s', hrun, hos, ?_, ?_⟩
  · refine ⟨s, [], [], s, 12, false, false, x, t, rfl, rfl, rfl, rfl, hx, hop, hpos, ⟨s'.asm.code.toList, ?_⟩, ?_⟩
    · rw [hempty]
      rfl
    · intro l ip hl
      rw [Assembler.address?, hlabels] at hl
      cases hl
  · let σ : Store Bool := fun o => o = .int 5
    have hexec : Exec s.frame.locals s'.asm.code.toList σ (Function.update σ (.global 0) true) := by
      rw [hcode]
      exact ⟨_, rfl, _, rfl, _, fun _ _ => rfl, _, fun _ _ => rfl, rfl⟩
    have hstraight : ∀ i ∈ s'.asm.code.toList, i.isStraight = true := by
      rw [hcode]
      decide
    refine ⟨σ, _, ?_, show Function.update σ (.global 0) true (.global 0) ≠ σ (.global 0) by decide⟩
    rw [← Nat.zero_add s'.asm.pos]
    refine Assembler.steps_of_exec hstraight (fun k _ => ?_) hexec
    rw [Nat.zero_add, Array.getElem?_toList]

/-- A call with a call of `g` and the elements of `xs` as its arguments. -/
def callInSpread : Tree where
  nodes := #[
    .typeName ["int"], .param "x" 1, .typeName ["int"], .ident ["x"], .returnStmt 4, .block [5], .func "g" [2] 3 6,
    .typeName ["int"], .param "a" 8, .typeName ["int"], .ident ["a"], .returnStmt 11, .block [12],
    { Node.func "f" [9] 10 13 with flags := .variadic },
    .intLit 1, .intLit 2, .arrayLit [15, 16], .letDecl "xs" 0 17,
    .ident ["f"], .ident ["g"], .intLit 1, .call 20 [21], .ident ["xs"], .unpack 23 (-1), .call 19 [22, 24], .exprStmt 25,
    { kind := .file, list := [7, 14, 18, 26] }]
  roots := [27]

/-- The elements are counted before `g` is called, and its call is made with their count. -/
theorem callInSpread_counts_twice :
    let e := callInSpread.analyze {} {}
    e.failure = none ∧ e.hasErrors = false ∧
    ∃ p table s, run (start e.state.result {} {}) = .ok (p, table) s ∧
      (p.code.toList.drop 5).take 6 = [
        { op := .mov, a := .spreadCount, b := .int 0 }, { op := .unpack, a := .global 0, b := .int (-1) },
        { op := .push, a := .int 1 }, { op := .call, a := .func 1, b := .int 1 }, { op := .push, a := .returned },
        { op := .call, a := .func 0, b := .int 1 }] := by
  obtain ⟨hfailure, herrors, hview⟩ :
      let e := callInSpread.analyze {} {}
      e.failure = none ∧ e.hasErrors = false ∧
        view? run (fun r _ => (r.1.code.toList.drop 5).take 6) (start e.state.result {} {}) = some [
          { op := .mov, a := .spreadCount, b := .int 0 }, { op := .unpack, a := .global 0, b := .int (-1) },
          { op := .push, a := .int 1 }, { op := .call, a := .func 1, b := .int 1 }, { op := .push, a := .returned },
          { op := .call, a := .func 0, b := .int 1 }] := by decide +kernel
  obtain ⟨r, s, hrun, hcode⟩ := view?_eq_some hview
  exact ⟨hfailure, herrors, r.1, r.2, s, hrun, hcode⟩

end TreeCompiler.Emit
