import TreeCompiler.Proofs.Emit.Act
import TreeCompiler.Proofs.Emit.Queue
import TreeCompiler.Proofs.Types.Growth

/-!
# The descriptions of types

A struct or union value is built by an instruction that names a row of the type table. The rows are shared by name and kind
alone, so a type has a row with its name and its kind, and with the fields of the first type that took this name and kind.

* `Described` : what every change of emission keeps of the types, their rows and the instructions that name them;
* `constructions_described` : what it says of a program; `namesakes_share_row` : two types of one name and different fields.
-/

namespace TreeCompiler

/-! ## Names and kinds -/

theorem TypeKind.bar_notMem_name (k : TypeKind) : '|' ∉ k.name.toList := by
  have htable : ∀ row ∈ table, '|' ∉ row.2.toList := by decide
  unfold name
  split
  · rename_i row hrow
    exact htable row (List.mem_of_getElem? hrow)
  · decide

namespace Assembler

theorem typeKey_inj {r r' : TypeRow} (hk : '|' ∉ r.kind.toList) (hk' : '|' ∉ r'.kind.toList) (h : typeKey r = typeKey r') :
    r.name = r'.name ∧ r.kind = r'.kind := by
  have hlist : r.name.toList ++ '|' :: r.kind.toList = r'.name.toList ++ '|' :: r'.kind.toList := by
    simpa [typeKey, String.toList_append] using congrArg String.toList h
  obtain ⟨hn, hkind⟩ := append_cons_inj hk hk' hlist
  exact ⟨String.toList_inj.1 hn, String.toList_inj.1 hkind⟩

/-- A row with the key is found, or the row is new. -/
theorem addType_cases (a : Assembler) (row : TypeRow) :
    (∃ k r, a.types[k]? = some r ∧ typeKey r = typeKey row ∧ a.addType row = (k, a)) ∨
    (∀ r ∈ a.types, typeKey r ≠ typeKey row) ∧
      a.addType row = (a.types.size, { a with types := a.types.push row }) := by
  unfold addType
  cases hfind : a.types.findIdx? (fun r => typeKey r == typeKey row) with
  | some k =>
    obtain ⟨hk, hkey, -⟩ := Array.findIdx?_eq_some_iff_getElem.1 hfind
    exact .inl ⟨k, _, Array.getElem?_eq_getElem hk, by simpa using hkey, rfl⟩
  | none =>
    exact .inr ⟨fun r hr => by simpa using Array.findIdx?_eq_none_iff.1 hfind r hr, rfl⟩

end Assembler

namespace Emit

/-- Every type met has a row with its key, every row describes the first type met with its key, and the instructions that
build values name the rows of their types. -/
structure Described (s : EmitState) : Prop where
  met : ∀ t k, s.typeRows.get? t = some k → ∃ row r, s.unit.typeRow? t = some row ∧ s.asm.types[k]? = some r ∧
    Assembler.typeKey r = Assembler.typeKey row
  first : ∀ (k : Nat) (r : TypeRow), s.asm.types[k]? = some r → ∃ t, s.typeRows.get? t = some k ∧ s.unit.typeRow? t = some r
  apart : ∀ (j k : Nat) (r r' : TypeRow), s.asm.types[j]? = some r → s.asm.types[k]? = some r' →
    Assembler.typeKey r = Assembler.typeKey r' → j = k
  code : ∀ i ∈ s.asm.code, i.op.isBuild = true → ∃ t k, s.typeRows.get? t = some k ∧ Builds s.unit t k i

/-- Only the code has changed. -/
theorem Described.recode {s s' : EmitState} (h : Described s) (same : SameTypes s s')
    (code : ∀ i ∈ s'.asm.code, i.op.isBuild = true → i ∈ s.asm.code ∨ ∃ t k, s.typeRows.get? t = some k ∧ Builds s.unit t k i) :
    Described s' := by
  obtain ⟨hunit, hrows, htypes⟩ := same
  refine ⟨by rw [hunit, hrows, htypes]; exact h.met, by rw [hunit, hrows, htypes]; exact h.first,
    by rw [htypes]; exact h.apart, ?_⟩
  rw [hunit, hrows]
  intro i hi hop
  rcases code i hi hop with hold | hnew
  · exact h.code i hold hop
  · exact hnew

/-- A type is met for the first time. -/
theorem Described.describe {s s' : EmitState} (h : Described s) {t : TypeId} {row : TypeRow} (new : s.typeRows.get? t = none)
    (of : s.unit.typeRow? t = some row) (unit : s'.unit = s.unit) (code : s'.asm.code = s.asm.code)
    (types : s'.asm.types = (s.asm.addType row).2.types) (rows : s'.typeRows = s.typeRows.insert t (s.asm.addType row).1) :
    Described s' := by
  -- what was met before keeps its row
  have kept (t' : TypeId) (k : Nat) (hk : s.typeRows.get? t' = some k) : s'.typeRows.get? t' = some k := by
    rw [rows, IdMap.get?_insert, if_neg (by rintro rfl; rw [new] at hk; cases hk)]
    exact hk
  have hcode : ∀ i ∈ s'.asm.code, i.op.isBuild = true → ∃ t k, s'.typeRows.get? t = some k ∧ Builds s'.unit t k i := by
    rw [code, unit]
    intro i hi hop
    obtain ⟨t', k, hk, hb⟩ := h.code i hi hop
    exact ⟨t', k, kept t' k hk, hb⟩
  rcases s.asm.addType_cases row with ⟨k, r, hr, hkey, hadd⟩ | ⟨hnone, hadd⟩
  · rw [hadd] at types rows
    refine ⟨?_, ?_, by rw [types]; exact h.apart, hcode⟩
    · rw [unit, types, rows]
      intro t' j hj
      rw [IdMap.get?_insert] at hj
      split at hj
      · cases hj
        subst t'
        exact ⟨row, r, of, hr, hkey⟩
      · exact h.met t' j hj
    · rw [types]
      intro j q hq
      obtain ⟨t', ht', hrow⟩ := h.first j q hq
      exact ⟨t', kept t' j ht', unit ▸ hrow⟩
  · rw [hadd] at types rows
    have hold {j : Nat} {q : TypeRow} (hq : s.asm.types[j]? = some q) : s'.asm.types[j]? = some q := by
      have hj := (Array.getElem?_eq_some_iff.1 hq).1
      rw [types, Array.getElem?_push, if_neg (Nat.ne_of_lt hj)]
      exact hq
    have hcases {j : Nat} {q : TypeRow} (hq : s'.asm.types[j]? = some q) :
        s.asm.types[j]? = some q ∨ j = s.asm.types.size ∧ q = row := by
      rw [types, Array.getElem?_push] at hq
      split at hq
      · exact .inr ⟨‹_›, (Option.some.inj hq).symm⟩
      · exact .inl hq
    refine ⟨?_, ?_, ?_, hcode⟩
    · rw [unit, rows]
      intro t' j hj
      rw [IdMap.get?_insert] at hj
      split at hj
      · cases hj
        subst t'
        exact ⟨row, row, of, by rw [types, Array.getElem?_push_size], rfl⟩
      · obtain ⟨row', r, hrow', hr, hkey⟩ := h.met t' j hj
        exact ⟨row', r, hrow', hold hr, hkey⟩
    · intro j q hq
      rcases hcases hq with hq | ⟨rfl, rfl⟩
      · obtain ⟨t', ht', hrow⟩ := h.first j q hq
        exact ⟨t', kept t' j ht', unit ▸ hrow⟩
      · exact ⟨t, by rw [rows, IdMap.get?_insert, if_pos rfl], unit ▸ of⟩
    · intro j k r r' hr hr' hkey
      rcases hcases hr with hr | ⟨rfl, rfl⟩ <;> rcases hcases hr' with hr' | ⟨rfl, rfl⟩
      · exact h.apart j k r r' hr hr' hkey
      · exact absurd hkey (hnone r (Array.mem_of_getElem? hr))
      · exact absurd hkey.symm (hnone r' (Array.mem_of_getElem? hr'))
      · rfl

theorem Act.described {s s' : EmitState} (h : Act s s') (hs : Described s) : Described s' := by
  cases h with
  | quiet same code => exact hs.recode same fun i hi _ => .inl (code ▸ hi)
  | emit same i plain code =>
    refine hs.recode same fun j hj hop => ?_
    rw [code, Array.mem_push] at hj
    rcases hj with hj | rfl
    · exact .inl hj
    · rw [plain] at hop
      cases hop
  | build same t k i row builds code =>
    refine hs.recode same fun j hj _ => ?_
    rw [code, Array.mem_push] at hj
    rcases hj with hj | rfl
    · exact .inl hj
    · exact .inr ⟨t, k, row, builds⟩
  | cut same n code =>
    refine hs.recode same fun j hj _ => .inl ?_
    rw [code, Array.take_eq_extract, ← Array.mem_toList_iff, Array.toList_extract, List.extract_eq_take_drop] at hj
    exact Array.mem_toList_iff.1 (List.mem_of_mem_drop (List.mem_of_mem_take hj))
  | patch same ip i o op code =>
    refine hs.recode same fun j hj hop => ?_
    rw [code] at hj
    rcases Array.mem_or_eq_of_mem_setIfInBounds hj with hj | rfl
    · exact .inl hj
    · rw [show i.op = .reserve from op] at hop
      cases hop
  | describe t row new of unit code types rows => exact hs.describe new of unit code types rows

theorem Acts.described {s s' : EmitState} (h : Acts s s') (hs : Described s) : Described s' := by
  induction h with
  | refl => exact hs
  | tail _ h ih => exact h.described ih

theorem described_start (u : AnalysisResult) (o : EmitOptions) (tracer : Tracer) : Described (start u o tracer) where
  met := fun _ _ h => by cases h
  first := fun _ _ h => by cases h
  apart := fun _ _ _ _ h => by cases h
  code := fun i h => absurd h (Array.not_mem_empty i)

end Emit

theorem AnalysisResult.bar_notMem_kind {u : AnalysisResult} {t : TypeId} {row : TypeRow} (h : u.typeRow? t = some row) :
    '|' ∉ row.kind.toList := by
  obtain ⟨ty, -, rfl⟩ := Option.map_eq_some_iff.1 h
  exact ty.kind.bar_notMem_name

namespace Emit

/-- The row of a type has its name and its kind, and the fields of the first type of that name and kind. -/
theorem Described.row {s : EmitState} (h : Described s) {t : TypeId} {k : Nat} (ht : s.typeRows.get? t = some k) :
    ∃ row r first, s.unit.typeRow? t = some row ∧ s.asm.types[k]? = some r ∧ r.name = row.name ∧ r.kind = row.kind ∧
      s.typeRows.get? first = some k ∧ s.unit.typeRow? first = some r := by
  obtain ⟨row, r, hrow, hr, hkey⟩ := h.met t k ht
  obtain ⟨first, hfirst, hr'⟩ := h.first k r hr
  obtain ⟨hname, hkind⟩ :=
    Assembler.typeKey_inj (AnalysisResult.bar_notMem_kind hr') (AnalysisResult.bar_notMem_kind hrow) hkey
  exact ⟨row, r, first, hrow, hr, hname, hkind, hfirst, hr'⟩

/-- Two types have one row exactly when they have one name and one kind. -/
theorem Described.row_eq_iff {s : EmitState} (h : Described s) {t t' : TypeId} {k k' : Nat} {row row' : TypeRow}
    (ht : s.typeRows.get? t = some k) (ht' : s.typeRows.get? t' = some k') (hrow : s.unit.typeRow? t = some row)
    (hrow' : s.unit.typeRow? t' = some row') : k = k' ↔ row.name = row'.name ∧ row.kind = row'.kind := by
  obtain ⟨q, r, -, hq, hr, hname, hkind, -⟩ := h.row ht
  obtain ⟨q', r', -, hq', hr', hname', hkind', -⟩ := h.row ht'
  rw [hrow] at hq
  rw [hrow'] at hq'
  cases hq
  cases hq'
  constructor
  · rintro rfl
    rw [hr] at hr'
    cases hr'
    exact ⟨hname.symm.trans hname', hkind.symm.trans hkind'⟩
  · rintro ⟨hn, hk⟩
    refine h.apart k k' r r' hr hr' ?_
    rw [Assembler.typeKey, Assembler.typeKey, hname, hkind, hn, hk, hname', hkind']

end Emit

namespace Assembler

theorem finish_types {a : Assembler} {entry : Label} {p : Program} (h : a.finish entry = .ok p) : p.types = a.types := by
  obtain ⟨code, -, h₁⟩ := Except.bind_ok h
  obtain ⟨funcs, -, h₂⟩ := Except.bind_ok h₁
  cases he : a.address? entry with
  | none =>
    rw [he] at h₂
    cases h₂
  | some ip =>
    rw [he] at h₂
    cases h₂
    rfl

/-- Resolving labels leaves the instructions that build values as they are named. -/
theorem ResolvesTo.builds {u : AnalysisResult} {t : TypeId} {k : Nat} {i i' : Instr} (h : ResolvesTo i i')
    (hb : Emit.Builds u t k i) : Emit.Builds u t k i' := by
  refine ⟨by rw [h.op]; exact hb.op, ?_, fun hop => ?_⟩
  · have ha := h.a
    rw [hb.row] at ha
    exact ha.eq nofun
  · obtain ⟨row, hrow, hcount⟩ := hb.fields (h.op ▸ hop)
    have hres := h.b
    rw [hcount] at hres
    exact ⟨row, hrow, hres.eq nofun⟩

end Assembler

namespace Emit

/-- The last instruction that making a value of the type `t` leaves behind names the row of `t`. -/
def EndsBuilding (t : TypeId) (q q' : EmitState) : Prop :=
  ∃ k i, q'.typeRows.get? t = some k ∧ q'.asm.code.back? = some i ∧ Builds q.unit t k i

theorem endsBuilding_of_emit {t : TypeId} {k : Nat} {i : Instr} {q q₁ q₂ q' : EmitState} {a : Unit}
    (href : typeRef t q₁ = .ok k q₂) (hemit : emit i q₂ = .ok a q') (hi : Builds q.unit t k i) : EndsBuilding t q q' := by
  obtain ⟨-, hk⟩ := typeRef_ok href
  cases hemit
  exact ⟨k, i, hk, Array.back?_push, hi⟩

theorem makeStruct_endsBuilding {fuel : Nat} {id : NodeId} {t : TypeId} {given : List (String × NodeId)} {q q' : EmitState}
    {a : Operand} (h : makeStruct (emitter fuel) id t given q = .ok a q') : EndsBuilding t q q' := by
  obtain ⟨q₁, q₂, k, row, -, href, hrow, hemit⟩ := Performs.makeStruct_ok _ h
  exact endsBuilding_of_emit href hemit ⟨rfl, rfl, fun _ => ⟨row, hrow, rfl⟩⟩

theorem makeVariant_endsBuilding {fuel : Nat} {id : NodeId} {n : Node} {target : SymbolId} {q q' : EmitState} {a : Operand}
    (h : makeVariant (emitter fuel) id n target q = .ok a q') : EndsBuilding n.valueType q q' := by
  obtain ⟨q₁, q₂, k, tag, -, href, hemit⟩ := Performs.makeVariant_ok _ h
  refine endsBuilding_of_emit href hemit ⟨rfl, rfl, fun h => ?_⟩
  cases h

/-- Every instruction of a program that builds a struct or a union value names a row with the name and the kind of its type
`t`. The row has the fields of the first type that was met with this name and this kind; so they are those of `t` whenever no
other type of the program has the name and the kind of `t` and different fields. Two types share a row exactly when they share
name and kind. -/
theorem constructions_described (u : AnalysisResult) (o : EmitOptions) (tracer : Tracer) {p : Program} {table : DebugTable}
    {s : EmitState} (h : run (start u o tracer) = .ok (p, table) s) :
    (∀ i ∈ p.code, i.op = .makeStruct ∨ i.op = .makeVariant → ∃ t k row r first,
      s.typeRows.get? t = some k ∧ Builds u t k i ∧ u.typeRow? t = some row ∧ p.types[k]? = some r ∧
      r.name = row.name ∧ r.kind = row.kind ∧ s.typeRows.get? first = some k ∧ u.typeRow? first = some r ∧
      ((∀ t' row', s.typeRows.get? t' ≠ none → u.typeRow? t' = some row' → row'.name = row.name → row'.kind = row.kind →
        row'.fields = row.fields) → r = row)) ∧
    (∀ t t' k k' row row', s.typeRows.get? t = some k → s.typeRows.get? t' = some k' → u.typeRow? t = some row →
      u.typeRow? t' = some row' → (k = k' ↔ row.name = row'.name ∧ row.kind = row'.kind)) ∧
    (∀ fuel id t given q a q', makeStruct (emitter fuel) id t given q = .ok a q' → EndsBuilding t q q') ∧
    ∀ fuel id n target q a q', makeVariant (emitter fuel) id n target q = .ok a q' → EndsBuilding n.valueType q q' := by
  have hd := ((inferInstance : Performs run).acts _ _ _ h).described (described_start u o tracer)
  obtain ⟨entry, parts, e, -, hfin⟩ := run_ok h
  have hunit : s.unit = u := e.unit
  refine ⟨fun i hi hop => ?_, fun t t' k k' row row' ht ht' hrow hrow' => ?_, fun _ _ _ _ _ _ _ => makeStruct_endsBuilding,
    fun _ _ _ _ _ _ _ => makeVariant_endsBuilding⟩
  · obtain ⟨j, hj, hres⟩ := exists_mem_of_forall₂ (Assembler.finish_ok hfin).1 (Array.mem_toList_iff.2 hi)
    have hbuild : j.op.isBuild = true := by
      rw [← hres.op]
      rcases hop with hop | hop <;> rw [hop] <;> rfl
    obtain ⟨t, k, ht, hb⟩ := hd.code j (Array.mem_toList_iff.1 hj) hbuild
    obtain ⟨row, r, first, hrow, hr, hname, hkind, hfirst, hr'⟩ := hd.row ht
    rw [hunit] at hb hrow hr'
    refine ⟨t, k, row, r, first, ht, hres.builds hb, hrow, ?_, hname, hkind, hfirst, hr', fun hall => ?_⟩
    · rw [Assembler.finish_types hfin]
      exact hr
    · have hfields := hall first r (by rw [hfirst]; nofun) hr' hname hkind
      cases r
      cases row
      simp only at hname hkind hfields
      rw [hname, hkind, hfields]
  · rw [← hunit] at hrow hrow'
    exact hd.row_eq_iff ht ht' hrow hrow'

/-- Two struct types of one name, in two namespaces, with different fields. -/
def namesakes : Tree where
  nodes := #[
    .typeName ["int"], .field "a" 1 0, .typeStruct [2], .typeDecl "S" 3, .typeName ["S"], .structLit 5 [],
    .letDecl "p" 0 6, .nameSpace "M" [4, 7],
    .typeName ["int"], .field "b" 9 0, .typeStruct [10], .typeDecl "S" 11, .typeName ["S"], .structLit 13 [],
    .letDecl "q" 0 14, .nameSpace "N" [12, 15], { kind := .file, list := [8, 16] }]
  roots := [17]

/-- Both structs are built with the description of the first. -/
theorem namesakes_end :
    let e := namesakes.analyze {} {}
    let u := e.state.result
    e.failure = none ∧ e.hasErrors = false ∧
      view? run (fun r _ => (r.1.code.toList.filter (·.op = .makeStruct), r.1.types)) (start u {} {}) =
        some (List.replicate 2 { op := .makeStruct, a := .type 0, b := .int 1 },
          #[{ name := "S", kind := "struct", fields := ["a"] }]) ∧
      ((u.tree.get? 14).bind fun n => u.typeRow? n.valueType) =
        some { name := "S", kind := "struct", fields := ["b"] } := by
  decide +kernel

theorem namesakes_named :
    let u := (namesakes.analyze {} {}).state.result
    ∃ p table s, run (start u {} {}) = .ok (p, table) s ∧ p.code.toList.countP (·.op = .makeStruct) = 2 ∧
      ∀ i ∈ p.code, i.op = .makeStruct ∨ i.op = .makeVariant → ∃ t k row r, Builds u t k i ∧ u.typeRow? t = some row ∧
        p.types[k]? = some r ∧ r.name = row.name ∧ r.kind = row.kind := by
  intro u
  obtain ⟨-, -, hview, -⟩ := namesakes_end
  obtain ⟨r, s, hrun, hseen⟩ := view?_eq_some hview
  obtain ⟨hcode, -⟩ := Prod.mk.inj hseen
  have hcount : r.1.code.toList.countP (·.op = .makeStruct) = 2 := by
    rw [List.countP_eq_length_filter, hcode]
    rfl
  refine ⟨r.1, r.2, s, hrun, hcount, fun i hi hop => ?_⟩
  obtain ⟨t, k, row, r', -, -, hb, hrow, hr, hname, hkind, -⟩ := (constructions_described u {} {} hrun).1 i hi hop
  exact ⟨t, k, row, r', hb, hrow, hr, hname, hkind⟩

/-- The second struct is built with the description of the first. -/
theorem namesakes_share_row :
    let e := namesakes.analyze {} {}
    let u := e.state.result
    e.failure = none ∧ e.hasErrors = false ∧
    ∃ p table s, run (start u {} {}) = .ok (p, table) s ∧
      p.code.toList.filter (·.op = .makeStruct) = List.replicate 2 { op := .makeStruct, a := .type 0, b := .int 1 } ∧
      ((u.tree.get? 14).bind fun n => u.typeRow? n.valueType) = some { name := "S", kind := "struct", fields := ["b"] } ∧
      p.types = #[{ name := "S", kind := "struct", fields := ["a"] }] := by
  intro e u
  obtain ⟨hfailure, herrors, hview, hrow⟩ := namesakes_end
  obtain ⟨r, s, hrun, hseen⟩ := view?_eq_some hview
  obtain ⟨hcode, htypes⟩ := Prod.mk.inj hseen
  exact ⟨hfailure, herrors, r.1, r.2, s, hrun, hcode, hrow, htypes⟩

end Emit

end TreeCompiler
