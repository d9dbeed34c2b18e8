import TreeCompiler.Proofs.Emit.Confine
import TreeCompiler.Proofs.Emit.Queue

/-!
# Ranges of code

The code of a function is one range: the reservation of its frame, then what its body leads to. The labels of the body lie in
that range, before the instruction that ends it, and what is emitted later has other labels.

* `EmitState.Settled` : an instruction of a range, whose labels lie in it wherever they are bound;
* `Closing K op m` : the computation `m` confines its code and ends it with `op`;
* `Stretch` : the code of one function was appended;
* `Ranged u entry parts s` : every part of the code is such a range, and the debug table has it under the name of its function.
-/

namespace TreeCompiler

namespace EmitState

/-- Where the label is bound, it is in the range. It is not the entry of a function. -/
structure Inside (s : EmitState) (lo hi : Nat) (l : Label) : Prop where
  made : l < s.asm.labels.size
  entry : l ∉ s.asm.entries
  place : ∀ ip, s.asm.address? l = some ip → lo ≤ ip ∧ ip < hi

structure Settled (s : EmitState) (lo hi : Nat) (i : Instr) : Prop where
  known : i.op.isKnown = true
  operands : ∀ o ∈ i.operands, s.Knows o ∨ ∃ l, o = .label l ∧ s.Inside lo hi l
  target : ∀ o, i.target? = some o → ∃ l, o = .label l ∧ s.Inside lo hi l

end EmitState

namespace Emit

variable {K : Site} {rec : Emitter} {s s₁ s₂ s' : EmitState} {α : Type}

/-! ## Bodies -/

/-- Code that ends with `op`, which has every new label before it. -/
structure Closes (K : Site) (op : Opcode) (s s' : EmitState) : Prop extends Leads K s s' where
  last : s'.asm.code.back?.map (·.op) = some op
  behind : s.asm.pos < s'.asm.pos
  before : ∀ l ip, s'.asm.address? l = some ip → s.asm.address? l = some ip ∨ ip < s'.asm.pos

theorem Leads.closes {op : Opcode} (h : Leads K s s₁) (h' : Closes K op s₁ s') : Closes K op s s' where
  toLeads := h.trans h'.toLeads
  last := h'.last
  behind := Nat.lt_of_le_of_lt h.pos_le h'.behind
  before := fun l ip hl => by
    have hbehind := h'.behind
    rcases h'.before l ip hl with hl | hlt
    · exact (h.places l ip hl).imp_right fun hnew => by omega
    · exact .inr hlt

/-- What was appended ends with the operation. -/
theorem Closes.getLast? {op : Opcode} {is : List Instr} (h : Closes K op s s')
    (hcode : s'.asm.code.toList = s.asm.code.toList ++ is) : is.getLast?.map (·.op) = some op := by
  have hlast := h.last
  have hbehind := h.behind
  have hlen := congrArg List.length hcode
  simp only [Array.length_toList, List.length_append] at hlen
  unfold Assembler.pos at hbehind
  have hne : is ≠ [] := fun hnil => by
    rw [hnil] at hlen
    simp only [List.length_nil] at hlen
    omega
  rw [← Array.getLast?_toList, hcode, List.getLast?_append_of_ne_nil _ hne] at hlast
  exact hlast

def Closing (K : Site) (op : Opcode) (m : EmitM Unit) : Prop :=
  ∀ s a s', K.At s → m s = .ok a s' → Grown s' K.later → Closes K op s s'

namespace Closing

variable {op : Opcode}

theorem bind {P : α → Prop} {x : EmitM α} {f : α → EmitM Unit} [hgx : Grows x] (hx : Refers K x P)
    (hf : ∀ a, P a → Closing K op (f a)) [hgf : ∀ a, Grows (f a)] : Closing K op (x >>= f) := by
  intro s c s' hs h hl
  obtain ⟨a, s₁, hxs, hfs⟩ := bind_ok h
  obtain ⟨h₁, hP⟩ := hx s a s₁ hs hxs (((hgf a).carries s₁ c s' hfs).trans hl)
  exact h₁.closes (hf a hP s₁ c s' (h₁.at_later (hgx.carries s a s₁ hxs) hs) hfs hl)

theorem look {x : EmitM α} {f : α → EmitM Unit} (hx : Consults x) (hf : ∀ a, Closing K op (f a)) :
    Closing K op (x >>= f) := by
  intro s c s' hs h hl
  obtain ⟨a, s₁, hxs, hfs⟩ := bind_ok h
  obtain rfl := hx.reads s a s₁ hxs
  exact hf a s₁ c s' hs hfs hl

theorem emit {i : Instr} (h : Refers K (emit i) fun _ => True) : Closing K i.op (emit i) := by
  intro s a s' hs hm hl
  obtain ⟨hleads, -⟩ := h s a s' hs hm hl
  cases hm
  exact ⟨hleads, by simp [Assembler.emit], by simp [Assembler.emit, Assembler.pos], fun l ip hl => .inl hl⟩

end Closing

theorem Refers.emitStatic [EmitterGrows rec] (h : EmitterRefers K rec) (st : StaticInit) :
    Refers K (emitStatic rec st) fun _ => True := by
  refine .look (.symbol _) fun sym => .look .unit fun u => .ite (fun _ => .pure trivial) fun _ => ?_
  refine .bind (storage _) fun dst hdst => .ite (fun _ => .bind (h.zero _ _) fun src hsrc => move hdst hsrc) fun _ => ?_
  exact .bind (exprAny h st.init) fun src hsrc => move hdst hsrc

theorem closing_entryCode [EmitterGrows rec] (h : EmitterRefers K rec) : Closing K .halt (entryCode rec) := by
  refine .look .unit fun u => .bind (.forM _ fun st _ => .emitStatic h st) fun _ _ => ?_
  exact .bind (.forM _ fun id _ => h.stmt id) fun _ _ => .emit (.emit rfl trivial trivial trivial)

theorem closing_emitBody [EmitterGrows rec] (h : EmitterRefers K rec) {body : NodeId} (hbody : body ≠ 0) :
    Closing K .ret (emitBody rec body) := by
  refine .look (.kindOf body) fun k => ?_
  by_cases hk : k = .block
  · rw [if_pos hk]
    refine .look (.node body) fun n => .bind (.forM _ fun id _ => h.stmt id) fun _ _ => ?_
    exact .emit (.emit rfl trivial trivial trivial)
  · rw [if_neg hk, if_pos hbody]
    exact .bind (Refers.exprAny h body) fun o ho => .emit (.emit rfl ho trivial trivial)

/-- Without a body there is no code. -/
theorem emitBody_absent {a : Unit} (h : emitBody rec 0 s = .ok a s') : s' = s := by
  cases h
  rfl

/-! ## The code of one function -/

/-- The state once the entry is placed and the frame reserved. -/
structure Began (s s₁ : EmitState) (entry : Label) : Prop where
  grown : Grown s s₁
  code : s₁.asm.code = s.asm.code.push { op := .reserve, a := .int 0 }
  places : ∀ l ip, s₁.asm.address? l = some ip → s.asm.address? l = some ip ∨ l = entry
  values : s₁.values = s.values
  refs : s₁.refs = s.refs
  loops : s₁.frame.loops = []

/-- The state once the reservation is patched, and the row of the function if there is one. -/
structure Patched (ip : Nat) (s₂ s' : EmitState) : Prop where
  grown : Grown s₂ s'
  code : ∃ slots : Nat, s'.asm.code = s₂.asm.code.setIfInBounds ip { op := .reserve, a := .int slots }
  places : ∀ l, s'.asm.address? l = s₂.asm.address? l

/-- From `s` to `s'` a range of code was appended. -/
structure Stretch (s s' : EmitState) (entry : Label) (is : List Instr) : Prop where
  grown : Grown s s'
  code : s'.asm.code.toList = s.asm.code.toList ++ is
  settled : ∀ i ∈ is, s'.Settled s.asm.pos s'.asm.pos i
  places : ∀ l ip, s'.asm.address? l = some ip → s.asm.address? l = some ip ∨ l = entry ∨ s.asm.labels.size ≤ l

/-- The site of a body: its labels are made after its entry. -/
def siteOf (s₁ s' : EmitState) : Site := { later := s', base := s₁.asm.labels.size, floor := s₁.asm.pos }

theorem Began.at_site {entry : Label} (h : Began s s₁ entry) (hg : Grown s₁ s') (ht : s.Tidy) (hv : s.values.kind = .value)
    (hr : s.refs.kind = .ref) (hranges : ∀ f ∈ s₁.recorder.funcs.toList, f.start < (s₁.asm.pos : Int)) :
    (siteOf s₁ s').At s₁ where
  unit := hg.unit.symm
  tidy := h.grown.tidy ht
  base := Nat.le_refl _
  floor := Nat.le_refl _
  values := by rw [h.values, hv]
  refs := by rw [h.refs, hr]
  loops := by
    rw [h.loops]
    nofun
  ranges := hranges

theorem Began.stretch {entry : Label} (h : Began s s₁ entry) (hbody : Leads (siteOf s₁ s') s₁ s₂)
    (hbefore : ∀ l ip, s₂.asm.address? l = some ip → s₁.asm.address? l = some ip ∨ ip < s₂.asm.pos)
    (hg : Grown s₁ s₂) (hp : Patched s.asm.pos s₂ s') :
    ∃ slots js, Stretch s s' entry ({ op := .reserve, a := .int (slots : Nat) } :: js) ∧
      s₂.asm.code.toList = s₁.asm.code.toList ++ js := by
  obtain ⟨js, hcode, hconfined⟩ := hbody.code
  obtain ⟨slots, hpatch⟩ := hp.code
  have hend : s'.asm.pos = s₂.asm.pos := by simp [Assembler.pos, hpatch]
  have hstart : s₁.asm.pos = s.asm.pos + 1 := by simp [Assembler.pos, h.code]
  have hown {l : Label} (hl : (siteOf s₁ s').Own l) : s'.Inside s.asm.pos s'.asm.pos l := by
    refine ⟨hl.made, hl.entry, fun ip hip => ?_⟩
    rw [hp.places] at hip
    have hnot : s₁.asm.address? l ≠ some ip := fun hold => Nat.not_lt.2 hl.base (lt_of_address? hold)
    have hhi := (hbefore l ip hip).resolve_left hnot
    have hlo := ((hbody.places l ip hip).resolve_left hnot).2.2.1
    omega
  refine ⟨slots, js, ⟨(h.grown.trans hg).trans hp.grown, ?_, ?_, fun l ip hip => ?_⟩, hcode⟩
  · rw [hpatch, Array.toList_setIfInBounds, hcode, h.code]
    simp [Assembler.pos]
  · refine List.forall_mem_cons.2 ⟨⟨rfl, fun o ho => .inl ?_, fun o ho => by cases ho⟩, fun i hi => ?_⟩
    · simp only [Instr.operands, List.mem_cons, List.not_mem_nil, or_false] at ho
      rcases ho with rfl | rfl | rfl <;> trivial
    · have hi := hconfined i hi
      refine ⟨hi.known, fun o ho => ?_, fun o ho => ?_⟩
      · obtain hknown | ⟨l, ho, hl⟩ := hi.operands o ho
        · exact .inl hknown
        · exact .inr ⟨l, ho, hown hl⟩
      · obtain ⟨l, ho, hl⟩ := hi.target o ho
        exact ⟨l, ho, hown hl⟩
  · rw [hp.places] at hip
    rcases hbody.places l ip hip with hold | ⟨-, hl, -⟩
    · exact (h.places l ip hold).imp_right .inl
    · exact .inr (.inr (Nat.le_trans h.grown.asm.labels hl.base))

/-- Placing a label leaves the code and gives an address to no other label. -/
structure Places (l : Label) (s s₁ : EmitState) : Prop where
  code : s₁.asm.code = s.asm.code
  places : ∀ k ip, s₁.asm.address? k = some ip → s.asm.address? k = some ip ∨ k = l
  values : s₁.values = s.values
  refs : s₁.refs = s.refs
  frame : s₁.frame = s.frame
  recorder : s₁.recorder = s.recorder

theorem bindLabel_places {l : Label} {a : Unit} (h : bindLabel l s = .ok a s₁) : Places l s s₁ := by
  obtain ⟨hlt, -, rfl⟩ := bindLabel_ok h
  refine ⟨rfl, fun k ip hk => ?_, rfl, rfl, rfl, rfl⟩
  have hplace := Assembler.address?_place hlt k
  unfold Assembler.place at hplace
  rw [hplace] at hk
  split at hk
  · exact .inr ‹_›
  · exact .inl hk

theorem openEntry_began {r : Label × Nat} (h : openEntry s = .ok r s₁) :
    Began s s₁ r.1 ∧ r.2 = s.asm.pos ∧ s₁.recorder = s.recorder := by
  have hgrown := (inferInstance : Grows openEntry).carries _ _ _ h
  obtain ⟨entry, s₂, hnew, h₁⟩ := bind_ok h
  cases hnew
  obtain ⟨_, s₃, hbind, h₂⟩ := bind_ok h₁
  obtain ⟨hcode, hplaces, hvalues, hrefs, -, hrec⟩ := bindLabel_places hbind
  obtain ⟨_, s₄, hframe, h₃⟩ := bind_ok h₂
  cases hframe
  obtain ⟨_, s₅, hres, h₄⟩ := bind_ok h₃
  cases hres
  cases h₄
  refine ⟨⟨hgrown, congrArg (·.push ({ op := .reserve, a := .int 0 } : Instr)) hcode, fun l ip hl => ?_, hvalues, hrefs, rfl⟩, congrArg Array.size hcode, hrec⟩
  refine (hplaces l ip hl).imp_left fun hold => ?_
  rw [← hold]
  exact (address?_push s.asm s.asm.newLabel.2 rfl l).symm

theorem openFunc_began {fn : SymbolId} {entry : Label} {r : OpenSpan × Nat} (h : openFunc fn entry s = .ok r s₁) :
    Began s s₁ entry ∧ r.2 = s.asm.pos ∧ ∃ name span, consult (funcName fn) s.unit = .ok name ∧
      s₁.recorder = s.recorder.beginFunc name s.asm.pos span := by
  have hgrown := (inferInstance : Grows (openFunc fn entry)).carries _ _ _ h
  obtain ⟨sym, _, hsym, h₁⟩ := bind_ok h
  obtain ⟨-, rfl⟩ := symbol_ok hsym
  obtain ⟨n, _, hn, h₂⟩ := bind_ok h₁
  obtain ⟨-, rfl⟩ := declaration_ok hn
  obtain ⟨sc, _, hsc, h₃⟩ := bind_ok h₂
  obtain ⟨-, rfl⟩ := funcScope_ok hsc
  obtain ⟨name, _, hname, h₄⟩ := bind_ok h₃
  have hconsult := consult_of_ok (.funcName fn) hname
  obtain rfl := reads_funcName fn _ _ _ hname
  obtain ⟨span, s₂, hspan, h₅⟩ := bind_ok h₄
  cases hspan
  obtain ⟨_, s₃, hbind, h₆⟩ := bind_ok h₅
  obtain ⟨hcode, hplaces, hvalues, hrefs, hframe, hrec⟩ := bindLabel_places hbind
  obtain ⟨_, s₄, hbegin, h₇⟩ := bind_ok h₆
  cases hbegin
  obtain ⟨ip, s₅, hres, h₈⟩ := bind_ok h₇
  cases hres
  cases h₈
  have hpos := congrArg Array.size hcode
  refine ⟨⟨hgrown, congrArg (·.push ({ op := .reserve, a := .int 0 } : Instr)) hcode, hplaces, hvalues, hrefs, congrArg Frame.loops hframe⟩, hpos, ?_⟩
  refine ⟨name, n.span, hconsult, ?_⟩
  change s₃.recorder.beginFunc name s₃.asm.code.size n.span = _
  rw [hrec, hpos]
  rfl

theorem patch_patched {ip slots : Nat} {a : Unit} (hi : s₂.asm.code[ip]? = some { op := .reserve, a := .int 0 })
    (h : patch ip slots s₂ = .ok a s') : Patched ip s₂ s' ∧ s'.recorder = s₂.recorder := by
  have hgrown := (inferInstance : Grows (patch ip slots)).carries _ _ _ h
  obtain ⟨i, hi', -, rfl⟩ := patch_ok h
  rw [hi] at hi'
  cases hi'
  exact ⟨⟨hgrown, ⟨slots, rfl⟩, fun _ => rfl⟩, rfl⟩

theorem closeFunc_patched {index ip : Nat} {span : OpenSpan} {a : Unit}
    (hi : s₂.asm.code[ip]? = some { op := .reserve, a := .int 0 }) (h : closeFunc index span ip s₂ = .ok a s') :
    Patched ip s₂ s' ∧ s'.recorder = (s₂.recorder.endFunc? s₂.asm.pos).getD s₂.recorder := by
  obtain ⟨_, _, hget, h₁⟩ := bind_ok h
  cases hget
  obtain ⟨_, s₃, hpatch, h₂⟩ := bind_ok h₁
  obtain ⟨hpatched, hrec⟩ := patch_patched hi hpatch
  obtain ⟨slots, hcode⟩ := hpatched.code
  cases h₂
  refine ⟨⟨hpatched.grown.trans (grown_setFrame rfl rfl rfl rfl rfl), ⟨slots, hcode⟩, hpatched.places⟩, ?_⟩
  have hpos : s₃.asm.pos = s₂.asm.pos := by simp [Assembler.pos, hcode]
  dsimp only
  rw [hrec, hpos]

/-- The reservation is still there when the body is emitted. -/
theorem Began.reserved {entry : Label} (h : Began s s₁ entry) (hbody : Leads K s₁ s₂) :
    s₂.asm.code[s.asm.pos]? = some { op := .reserve, a := .int 0 } := by
  obtain ⟨js, hcode, -⟩ := hbody.code
  rw [← Array.getElem?_toList, hcode, h.code]
  simp [Assembler.pos]

theorem emitEntry_stretch {fuel : Nat} {entry : Label} (ht : s.Tidy) (hv : s.values.kind = .value) (hr : s.refs.kind = .ref)
    (hranges : s.recorder.funcs = #[]) (h : emitEntry (emitter fuel) s = .ok entry s') :
    ∃ slots js, Stretch s s' entry ({ op := .reserve, a := .int (slots : Nat) } :: js) ∧
      js.getLast?.map (·.op) = some .halt ∧ s'.recorder.funcs = #[] ∧ s'.recorder.openRanges = s.recorder.openRanges := by
  obtain ⟨⟨l, ip⟩, s₁, hopen, h₁⟩ := bind_ok h
  obtain ⟨_, s₂, hbody, h₂⟩ := bind_ok h₁
  obtain ⟨_, _, hget, h₃⟩ := bind_ok h₂
  cases hget
  obtain ⟨_, s₃, hpatch, h₄⟩ := bind_ok h₃
  cases h₄
  obtain ⟨hbegan, rfl, hrec⟩ := openEntry_began hopen
  have hg := (inferInstance : Grows (entryCode (emitter fuel))).carries _ _ _ hbody
  have hlater : Grown s₂ s' := ((inferInstance : Grows (patch s.asm.pos s₂.frame.slots)).carries _ _ _ hpatch)
  have hat : (siteOf s₁ s').At s₁ := hbegan.at_site (hg.trans hlater) ht hv hr (by rw [hrec, hranges]; nofun)
  have hcloses := closing_entryCode (emitter_refers fuel) s₁ _ s₂ hat hbody hlater
  obtain ⟨hpatched, hrec'⟩ := patch_patched (hbegan.reserved hcloses.toLeads) hpatch
  obtain ⟨slots, js, hstretch, hcode⟩ := hbegan.stretch hcloses.toLeads hcloses.before hg hpatched
  refine ⟨slots, js, ?_, hcloses.getLast? hcode, ?_, ?_⟩
  · exact hstretch
  · rw [hrec', hcloses.ranges, hrec, hranges]
  · rw [hrec', hcloses.openRanges, hrec]

/-- A function that was begun and has ended is a row, and those that are open are the same as before. -/
theorem ended_funcs {r r' : Recorder} {name : String} {start : Int} {span : Span} (stop : Int)
    (hfuncs : r'.funcs = (r.beginFunc name start span).funcs)
    (hopen : r'.openRanges = (r.beginFunc name start span).openRanges) :
    ((r'.endFunc? stop).getD r').funcs = r.funcs.push { name, start, stop, span } ∧
      ((r'.endFunc? stop).getD r').openRanges = r.openRanges := by
  unfold Recorder.endFunc?
  rw [hopen]
  refine ⟨?_, rfl⟩
  simp only [Recorder.beginFunc, Option.getD_some, hfuncs]
  refine Array.ext_getElem? fun k => ?_
  rw [Array.getElem?_modify, Array.getElem?_push, Array.getElem?_push]
  by_cases hk : k = r.funcs.size
  · simp [hk]
  · simp [hk, Ne.symm hk]

theorem getLast?_cons_op {i : Instr} {js : List Instr} {op : Opcode} (h : js.getLast?.map (·.op) = some op) :
    (i :: js).getLast?.map (·.op) = some op := by
  rw [List.getLast?_cons]
  cases hlast : js.getLast? with
  | none =>
    rw [hlast] at h
    cases h
  | some j => rwa [hlast] at h

/-- The code of a function ends with `ret`. Without a body there is only the reservation. -/
structure Shaped (n : Node) (is : List Instr) : Prop where
  ends : n.b ≠ 0 → is.getLast?.map (·.op) = some .ret
  absent : n.b = 0 → is.map (·.op) = [.reserve]

theorem emitFunc_stretch {fuel : Nat} {fn : SymbolId} {a : Unit} (ht : s.Tidy) (hv : s.values.kind = .value)
    (hr : s.refs.kind = .ref) (hranges : ∀ f ∈ s.recorder.funcs.toList, f.start < (s.asm.pos : Int))
    (h : emitFunc (emitter fuel) fn s = .ok a s') :
    ∃ n index entry slots js, s.unit.declarationOf? fn = some n ∧ s.funcs.get? fn = some (index, entry) ∧
      Stretch s s' entry ({ op := .reserve, a := .int (slots : Nat) } :: js) ∧
      Shaped n ({ op := .reserve, a := .int (slots : Nat) } :: js) ∧
      ∃ name span, consult (funcName fn) s.unit = .ok name ∧
        s'.recorder.funcs = s.recorder.funcs.push { name, start := s.asm.pos, stop := s'.asm.pos, span } ∧
        s'.recorder.openRanges = s.recorder.openRanges := by
  obtain ⟨sym, s₀, hsym, h₁⟩ := bind_ok h
  obtain ⟨hsym, rfl⟩ := symbol_ok hsym
  obtain ⟨n, s₀, hn, h₂⟩ := bind_ok h₁
  obtain ⟨hn, rfl⟩ := declaration_ok hn
  obtain ⟨_, _, hget, h₃⟩ := bind_ok h₂
  cases hget
  cases hf : s₀.funcs.get? fn with
  | none =>
    rw [hf] at h₃
    cases h₃
  | some p =>
    obtain ⟨index, entry⟩ := p
    rw [hf] at h₃
    obtain ⟨⟨span, ip⟩, s₁, hopen, h₄⟩ := bind_ok h₃
    obtain ⟨_, s₂, hbody, hclose⟩ := bind_ok h₄
    obtain ⟨hbegan, rfl, name, nspan, hname, hrec⟩ := openFunc_began hopen
    have hdecl : s₀.unit.declarationOf? fn = some n := by
      rw [AnalysisResult.declarationOf?, hsym, Option.bind_some, hn]
    have hg := (inferInstance : Grows (emitBody (emitter fuel) n.b)).carries _ _ _ hbody
    have hlater := (inferInstance : Grows (closeFunc index span s₀.asm.pos)).carries _ _ _ hclose
    have hstart : s₁.asm.pos = s₀.asm.pos + 1 := by simp [Assembler.pos, hbegan.code]
    have hat : (siteOf s₁ s').At s₁ := by
      refine hbegan.at_site (hg.trans hlater) ht hv hr fun f hfunc => ?_
      rw [hrec, Recorder.beginFunc, Array.toList_push, List.mem_append, List.mem_singleton] at hfunc
      rcases hfunc with hold | rfl
      · have hlt := hranges f hold
        omega
      · dsimp only
        omega
    -- without a body nothing is emitted between the reservation and the end
    have hends : (Leads (siteOf s₁ s') s₁ s₂ ∧
        ∀ l ip, s₂.asm.address? l = some ip → s₁.asm.address? l = some ip ∨ ip < s₂.asm.pos) ∧
        ∀ (slots : Nat) js, s₂.asm.code.toList = s₁.asm.code.toList ++ js →
          Shaped n ({ op := .reserve, a := .int slots } :: js) := by
      by_cases hb : n.b = 0
      · rw [hb] at hbody
        obtain rfl := emitBody_absent hbody
        refine ⟨⟨.refl _, fun l ip hl => .inl hl⟩, fun slots js hjs => ⟨fun hne => absurd hb hne, fun _ => ?_⟩⟩
        rw [List.append_right_eq_self.1 hjs.symm]
        rfl
      · have hcloses := closing_emitBody (emitter_refers fuel) hb s₁ _ s₂ hat hbody hlater
        refine ⟨⟨hcloses.toLeads, hcloses.before⟩, fun slots js hjs => ⟨fun _ => ?_, fun h0 => absurd h0 hb⟩⟩
        exact getLast?_cons_op (hcloses.getLast? hjs)
    obtain ⟨⟨hleads, hbefore⟩, hshaped⟩ := hends
    obtain ⟨hpatched, hrec'⟩ := closeFunc_patched (hbegan.reserved hleads) hclose
    obtain ⟨slots, js, hstretch, hcode⟩ := hbegan.stretch hleads hbefore hg hpatched
    obtain ⟨hfuncs, hopenRanges⟩ := ended_funcs s₂.asm.pos (hleads.ranges.trans (congrArg Recorder.funcs hrec))
      (hleads.openRanges.trans (congrArg Recorder.openRanges hrec))
    refine ⟨n, index, entry, slots, js, hdecl, rfl, hstretch, hshaped slots js hcode, name, nspan, hname, ?_, ?_⟩
    · obtain ⟨slots', hset⟩ := hpatched.code
      have hend : s'.asm.pos = s₂.asm.pos := by simp [Assembler.pos, hset]
      rw [hrec', hfuncs, hend]
    · rw [hrec', hopenRanges]

/-! ## The code of a program -/

/-- Where a part starts. -/
def offset (parts : List (List Instr)) (k : Nat) : Nat := (parts.take k).flatten.length

section

variable {parts : List (List Instr)} {is : List Instr} {k : Nat}

theorem offset_length (parts : List (List Instr)) : offset parts parts.length = parts.flatten.length := by
  rw [offset, List.take_length]

theorem offset_concat (hk : k ≤ parts.length) : offset (parts ++ [is]) k = offset parts k := by
  rw [offset, offset, List.take_append_of_le_length hk]

theorem offset_succ (h : parts[k]? = some is) : offset parts (k + 1) = offset parts k + is.length := by
  rw [offset, offset, List.take_add_one, h, Option.toList_some, List.flatten_append, List.length_append]
  simp

theorem offset_le {j : Nat} (h : j ≤ k) : offset parts j ≤ offset parts k := by
  exact (List.take_prefix_take_left h).flatten.length_le

end

/-- Every part is the range of one function. The debug table has it under the name of the function. -/
structure Ranged (u : AnalysisResult) (entry : Label) (parts : List (List Instr)) (s : EmitState) : Prop
    extends Emitted u entry parts s where
  tidy : s.Tidy
  settled : ∀ k is, parts[k]? = some is → ∀ i ∈ is, s.Settled (offset parts k) (offset parts (k + 1)) i
  halts : ∀ is, parts[0]? = some is → is.getLast?.map (·.op) = some .halt
  shaped : ∀ k is, parts[k + 1]? = some is →
    ∃ fn n, s.work[k]? = some fn ∧ u.declarationOf? fn = some n ∧ Shaped n is
  openRanges : s.recorder.openRanges = []
  drafts : s.recorder.funcs.size + 1 = parts.length
  ranges : ∀ k f, s.recorder.funcs[k]? = some f → f.start = (offset parts (k + 1) : Int) ∧
    f.stop = (offset parts (k + 2) : Int) ∧
    ∃ fn, s.work[k]? = some fn ∧ consult (funcName fn) u = .ok f.name

variable {u : AnalysisResult} {entry : Label} {parts : List (List Instr)} {is : List Instr}

theorem Emitted.length_pos (e : Emitted u entry parts s) {k : Nat} {is : List Instr} (hk : parts[k]? = some is) :
    0 < is.length := by
  have hhead : ∃ i, is.head? = some i := by
    cases k with
    | zero =>
      obtain ⟨_, _, h0, hsec⟩ := e.first
      cases hk.symm.trans h0
      exact ⟨_, hsec.head⟩
    | succ k =>
      obtain ⟨_, _, _, -, -, -, -, -, hsec⟩ := e.rows k is hk
      exact ⟨_, hsec.head⟩
  obtain ⟨i, hi⟩ := hhead
  exact List.length_pos_of_mem (List.mem_of_head? hi)

theorem Emitted.pos (e : Emitted u entry parts s) : s.asm.pos = offset parts parts.length := by
  rw [offset_length, ← e.code, Array.length_toList, Assembler.pos]

theorem settled_of_grown {lo hi : Nat} {i : Instr} (hg : Grown s s') (hp : ∀ l ip, l < s.asm.labels.size →
    l ∉ s.asm.entries → s'.asm.address? l = some ip → s.asm.address? l = some ip) (hs : s.Settled lo hi i) :
    s'.Settled lo hi i := by
  have hinside {l : Label} (hl : s.Inside lo hi l) : s'.Inside lo hi l :=
    ⟨Nat.lt_of_lt_of_le hl.made hg.asm.labels, hg.asm.not_entry hl.made hl.entry,
      fun ip hip => hl.place ip (hp l ip hl.made hl.entry hip)⟩
  refine ⟨hs.known, fun o ho => ?_, fun o ho => ?_⟩
  · exact (hs.operands o ho).imp hg.knows fun ⟨l, hol, hl⟩ => ⟨l, hol, hinside hl⟩
  · obtain ⟨l, hol, hl⟩ := hs.target o ho
    exact ⟨l, hol, hinside hl⟩

/-- What is emitted later has other labels. -/
theorem Stretch.settled_before {l : Label} {lo hi : Nat} {i : Instr} (h : Stretch s s' l is) (hl : l ∈ s.asm.entries)
    (hs : s.Settled lo hi i) : s'.Settled lo hi i := by
  refine settled_of_grown h.grown (fun k ip hmade hk hip => ?_) hs
  rcases h.places k ip hip with hold | rfl | hnew
  · exact hold
  · exact absurd hl hk
  · exact absurd hmade (Nat.not_lt.2 hnew)

theorem getElem?_of_work {k : Nat} {fn : SymbolId} (h : Grown s s') (hfn : s.work[k]? = some fn) : s'.work[k]? = some fn := by
  obtain ⟨fns, hwork⟩ := h.work
  exact getElem?_of_grown ⟨fns, hwork.symm⟩ hfn

theorem Ranged.before_end (e : Ranged u entry parts s) : ∀ f ∈ s.recorder.funcs.toList, f.start < (s.asm.pos : Int) := by
  intro f hf
  obtain ⟨k, hk, hget⟩ := List.mem_iff_getElem.1 hf
  have hf' : s.recorder.funcs[k]? = some f := by
    rw [← Array.getElem?_toList, List.getElem?_eq_getElem hk, hget]
  obtain ⟨hstart, -, -⟩ := e.ranges k f hf'
  have hlt : k + 1 < parts.length := by
    have hdrafts := e.drafts
    rw [Array.length_toList] at hk
    omega
  have hpart := List.getElem?_eq_getElem hlt
  have hpos := e.toEmitted.length_pos hpart
  have hsucc : offset parts (k + 2) = _ := offset_succ hpart
  have hle : offset parts (k + 2) ≤ offset parts parts.length := offset_le hlt
  rw [hstart, e.toEmitted.pos]
  omega

theorem Ranged.step {fuel : Nat} {fn : SymbolId} {a : Unit} (e : Ranged u entry parts s)
    (hfn : s.work[parts.length - 1]? = some fn) (h : emitFunc (emitter fuel) fn s = .ok a s') :
    ∃ is, Ranged u entry (parts ++ [is]) s' := by
  obtain ⟨is, e'⟩ := e.toEmitted.step hfn h
  obtain ⟨n, index, l, slots, js, hdecl, hget, hst, hshaped, name, span, hname, hfuncs, hopen⟩ :=
    emitFunc_stretch e.tidy e.values e.refs e.before_end h
  have hlen : 0 < parts.length := by
    obtain ⟨_, _, h0, -⟩ := e.first
    exact (List.getElem?_eq_some_iff.1 h0).1
  obtain rfl : is = { op := .reserve, a := .int (slots : Nat) } :: js := by
    have hcode := hst.code
    rw [e.code, e'.code, List.flatten_append, List.flatten_singleton] at hcode
    exact List.append_cancel_left hcode
  have hentry : l ∈ s.asm.entries := by
    obtain ⟨-, r, hr, rfl, -⟩ := e.tidy.rows fn index l hget
    exact List.mem_map.2 ⟨r, Array.mem_toList_iff.2 (Array.mem_of_getElem? hr), rfl⟩
  have hend := e'.pos
  rw [List.length_append, List.length_singleton] at hend
  refine ⟨_,
    { e' with
      tidy := hst.grown.tidy e.tidy
      settled := fun k is hk => ?_
      halts := fun is hk => e.halts is (by rwa [List.getElem?_append_left hlen] at hk)
      shaped := fun k is hk => ?_
      openRanges := hopen.trans e.openRanges
      drafts := by
        rw [hfuncs, Array.size_push, e.drafts, List.length_append, List.length_singleton]
      ranges := fun k f hf => ?_ }⟩
  · rcases Nat.lt_or_ge k parts.length with hlt | hge
    · rw [List.getElem?_append_left hlt] at hk
      rw [offset_concat (Nat.le_of_lt hlt), offset_concat hlt]
      exact fun i hi => hst.settled_before hentry (e.settled k is hk i hi)
    · obtain rfl : k = parts.length := by
        have hlt := (List.getElem?_eq_some_iff.1 hk).1
        rw [List.length_append, List.length_singleton] at hlt
        omega
      rw [List.getElem?_concat_length, Option.some.injEq] at hk
      subst hk
      rw [offset_concat (Nat.le_refl _), ← e.toEmitted.pos, ← hend]
      exact hst.settled
  · rcases Nat.lt_or_ge (k + 1) parts.length with hlt | hge
    · rw [List.getElem?_append_left hlt] at hk
      obtain ⟨g, m, hg, hm, hjs⟩ := e.shaped k is hk
      exact ⟨g, m, getElem?_of_work hst.grown hg, hm, hjs⟩
    · obtain hk' : k + 1 = parts.length := by
        have hlt := (List.getElem?_eq_some_iff.1 hk).1
        rw [List.length_append, List.length_singleton] at hlt
        omega
      rw [hk', List.getElem?_concat_length, Option.some.injEq] at hk
      subst hk
      rw [← hk', Nat.add_sub_cancel] at hfn
      exact ⟨fn, n, getElem?_of_work hst.grown hfn, e.unit ▸ hdecl, hshaped⟩
  · have hdrafts := e.drafts
    rw [hfuncs, Array.getElem?_push] at hf
    split at hf
    · rename_i hk
      cases hf
      have hk₁ : k + 1 = parts.length := by omega
      have hk₂ : k + 2 = parts.length + 1 := by omega
      rw [hk₁, hk₂, ← hend, offset_concat (Nat.le_refl _), ← e.toEmitted.pos]
      rw [← hk₁, Nat.add_sub_cancel] at hfn
      exact ⟨rfl, rfl, fn, getElem?_of_work hst.grown hfn, e.unit ▸ hname⟩
    · have hlt := (Array.getElem?_eq_some_iff.1 hf).1
      rw [offset_concat (by omega), offset_concat (by omega)]
      obtain ⟨hstart, hstop, g, hg, hgname⟩ := e.ranges k f hf
      exact ⟨hstart, hstop, g, getElem?_of_work hst.grown hg, hgname⟩

/-- The queue is emitted as it is in the end, one function after the other. -/
theorem Ranged.queue {fuel rounds i : Nat} {a : Unit} (e : Ranged u entry parts s) (hi : parts.length = i + 1)
    (h : emitQueue (emitter fuel) rounds i s = .ok a s') :
    ∃ parts', Ranged u entry parts' s' ∧ parts'.length = s'.work.size + 1 ∧ Grown s s' ∧
      (s'.work.toList.drop i).forM (emitFunc (emitter fuel)) s = .ok ⟨⟩ s' := by
  induction rounds generalizing i parts s with
  | zero => cases h
  | succ rounds ih =>
    obtain ⟨_, _, hget, hcase⟩ := bind_ok h
    cases hget
    cases hfn : s.work[i]? with
    | none =>
      rw [hfn] at hcase
      have hle : s.work.size ≤ i := Array.getElem?_eq_none_iff.1 hfn
      have hge : i ≤ s.work.size := by
        cases i with
        | zero => exact Nat.zero_le _
        | succ i =>
          have hlt : i + 1 < parts.length := by omega
          obtain ⟨_, _, _, hw, _⟩ := e.rows i _ (List.getElem?_eq_getElem hlt)
          exact (Array.getElem?_eq_some_iff.1 hw).1
      cases hcase
      refine ⟨parts, e, by omega, .refl _, ?_⟩
      rw [List.drop_eq_nil_of_le (by simpa using hle)]
      rfl
    | some fn =>
      rw [hfn] at hcase
      obtain ⟨_, s₁, hfunc, hrest⟩ := bind_ok hcase
      have hg := (inferInstance : Grows (emitFunc (emitter fuel) fn)).carries _ _ _ hfunc
      obtain ⟨is, e'⟩ := e.step (by rw [hi]; exact hfn) hfunc
      obtain ⟨parts', e'', hlen, hg', hall⟩ := ih e' (by simp [hi]) hrest
      refine ⟨parts', e'', hlen, hg.trans hg', ?_⟩
      have hfn' : s'.work.toList[i]? = some fn := by
        rw [Array.getElem?_toList]
        exact getElem?_of_work (hg.trans hg') hfn
      obtain ⟨hlt, hget⟩ := List.getElem?_eq_some_iff.1 hfn'
      rw [List.drop_eq_getElem_cons hlt, hget]
      exact (bind_run hfunc).trans hall

/-- The number of globals is set last. -/
theorem Ranged.setGlobals (e : Ranged u entry parts s) (n : Nat) (tracer : Tracer) :
    Ranged u entry parts { s with asm := s.asm.setGlobals n, tracer } := by
  have hg : Grown s { s with asm := s.asm.setGlobals n, tracer } :=
    .of_asm rfl (.of_same rfl rfl rfl rfl rfl) rfl rfl rfl rfl
  exact { e with
    queued := e.queued.congr rfl rfl rfl rfl
    tidy := hg.tidy e.tidy
    settled := fun k is hk i hi => settled_of_grown hg (fun _ _ _ _ h => h) (e.settled k is hk i hi) }

theorem tidy_of_empty (asm : s.asm = {}) (funcs : s.funcs = {}) (work : s.work = #[]) (natives : s.natives = {}) :
    s.Tidy where
  asm := by
    rw [asm]
    exact ⟨nofun, List.nodup_nil, fun l => by simp [Assembler.address?]⟩
  queue := by rw [asm, work]; rfl
  rows := fun fn k l h => by
    rw [funcs] at h
    cases h
  natives := fun fn k h => by
    rw [natives] at h
    cases h

/-- The first part is the entry code. -/
theorem emitEntry_ranged {fuel : Nat} (hunit : s.unit = u) (hv : s.values.kind = .value) (hr : s.refs.kind = .ref)
    (asm : s.asm = {}) (funcs : s.funcs = {}) (work : s.work = #[]) (natives : s.natives = {}) (recorder : s.recorder = {})
    (h : emitEntry (emitter fuel) s = .ok entry s') : ∃ is, Ranged u entry [is] s' := by
  obtain ⟨slots, is, hadds, haddr⟩ := emitEntry_ok hunit hv hr h
  obtain ⟨slots', js, hst, hhalts, hfuncs, hopen⟩ :=
    emitEntry_stretch (tidy_of_empty asm funcs work natives) hv hr (by rw [recorder]) h
  have hcode : s'.asm.code.toList = is := by rw [hadds.code, asm]; simp
  obtain rfl : is = { op := .reserve, a := .int (slots' : Nat) } :: js := by
    rw [← hcode, hst.code, asm]
    simp
  have hend : s'.asm.pos = offset [{ op := .reserve, a := .int (slots' : Nat) } :: js] 1 := by
    rw [Assembler.pos, ← Array.length_toList, hcode]
    simp [offset]
  have single {k : Nat} {is : List Instr} (hk : [{ op := .reserve, a := .int (slots' : Nat) } :: js][k]? = some is) :
      k = 0 ∧ is = { op := .reserve, a := .int (slots' : Nat) } :: js := by
    rw [List.getElem?_singleton] at hk
    split at hk
    · cases hk
      exact ⟨‹_›, rfl⟩
    · cases hk
  refine ⟨_,
    { unit := hadds.unit.trans hunit, values := hadds.values.trans hv, refs := hadds.refs.trans hr
      queued := hadds.queued ⟨by rw [work, asm]; rfl, fun _ _ hk => absurd hk (by simp [work])⟩
      code := hcode.trans (by simp)
      entry := by rw [haddr, asm]; rfl
      first := ⟨slots, _, rfl, hadds.part⟩
      rows := fun _ _ hk => by cases hk
      tidy := hst.grown.tidy (tidy_of_empty asm funcs work natives)
      settled := fun k is hk => ?_
      halts := fun is hk => ?_
      shaped := fun _ _ hk => by cases hk
      openRanges := hopen.trans (by rw [recorder])
      drafts := by rw [hfuncs]; rfl
      ranges := fun k f hf => ?_ }⟩
  · obtain ⟨rfl, rfl⟩ := single hk
    rw [Nat.zero_add, ← hend]
    have hstart : offset [{ op := .reserve, a := .int (slots' : Nat) } :: js] 0 = s.asm.pos := by
      rw [asm]
      rfl
    rw [hstart]
    exact hst.settled
  · obtain ⟨-, rfl⟩ := single hk
    exact getLast?_cons_op hhalts
  · rw [hfuncs] at hf
    cases hf

theorem run_ranged {o : EmitOptions} {tracer : Tracer} {p : Program} {table : DebugTable}
    (h : run (start u o tracer) = .ok (p, table) s) :
    ∃ entry parts, Ranged u entry parts s ∧ parts.length = s.work.size + 1 ∧ s.asm.finish entry = .ok p ∧
      table = s.recorder.finish u.tree.files s.asm.pos ∧ s.asm.globals = u.scopes.globals ∧
      ∃ fuel s₀ s₁ s₂, s₀.asm = {} ∧ emitEntry (emitter fuel) s₀ = .ok entry s₁ ∧
        s.work.toList.forM (emitFunc (emitter fuel)) s₁ = .ok ⟨⟩ s₂ ∧ s.asm.code = s₂.asm.code := by
  obtain ⟨_, _, hu, h₁⟩ := bind_ok h
  cases hu
  obtain ⟨span, s₁, hspan, h₂⟩ := bind_ok h₁
  cases hspan
  obtain ⟨entry, s₂, hentry, h₃⟩ := bind_ok h₂
  obtain ⟨_, s₃, hqueue, h₄⟩ := bind_ok h₃
  obtain ⟨_, s₄, hclose, h₅⟩ := bind_ok h₄
  obtain ⟨_, _, hget, h₆⟩ := bind_ok h₅
  cases hget
  obtain ⟨is, e⟩ := emitEntry_ranged rfl rfl rfl rfl rfl rfl rfl rfl hentry
  obtain ⟨parts, e', hlen, -, hall⟩ := e.queue rfl hqueue
  have hclosed : Ranged u entry parts s₄ ∧ s₄.work = s₃.work ∧ s₄.asm.code = s₃.asm.code ∧
      s₄.asm.globals = u.scopes.globals := by
    cases hclose
    exact ⟨e'.setGlobals _ _, rfl, rfl, rfl⟩
  cases hfin : s₄.asm.finish entry with
  | error e =>
    rw [hfin] at h₆
    cases h₆
  | ok q =>
    rw [hfin] at h₆
    cases h₆
    obtain ⟨e'', hwork, hcode', hglobals⟩ := hclosed
    refine ⟨entry, parts, e'', hwork ▸ hlen, hfin, rfl, hglobals, _, _, s₂, s₃, rfl, hentry, ?_, hcode'⟩
    rw [hwork]
    exact hall

end Emit

end TreeCompiler
