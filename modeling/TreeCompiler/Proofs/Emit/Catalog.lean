import Mathlib.Data.List.Forall2
import TreeCompiler.Emit.Run
import TreeCompiler.Proofs.Emit.Operands

/-!
# The tables of a program

Emission asks for rows of the tables: texts, types, native functions and functions. A row that exists is found again, so
asking twice changes nothing.

* `addNew`, `joinNew` : a list that is extended by what is new to it;
* `Consults` : a computation that only looks at the analyzed unit;
* `Catalog` : what was asked for, in the order of the rows; `Request` : one row;
* `Catalogued s c` : the tables of `s` are those of `c`;
* `Answers` : a computation that finds a row or adds it. Every reference to a table is one.
-/

namespace TreeCompiler

/-! ## Lists that are extended by what is new -/

section Lists

variable {α β : Type} [DecidableEq β]

/-- The list with an entry behind it, unless one has its key. -/
def addNew (key : α → β) (l : List α) (a : α) : List α := if key a ∈ l.map key then l else l ++ [a]

def joinNew (key : α → β) (l l' : List α) : List α := l'.foldl (addNew key) l

variable {key : α → β} {l l₁ l₂ : List α} {a : α}

theorem addNew_of_mem (h : key a ∈ l.map key) : addNew key l a = l := if_pos h

theorem addNew_of_not_mem (h : key a ∉ l.map key) : addNew key l a = l ++ [a] := if_neg h

theorem prefix_addNew : l <+: addNew key l a := by
  unfold addNew
  split
  · exact List.prefix_rfl
  · exact List.prefix_append ..

theorem key_mem_addNew : key a ∈ (addNew key l a).map key := by
  unfold addNew
  split
  · assumption
  · simp

theorem nodup_addNew (h : (l.map key).Nodup) : ((addNew key l a).map key).Nodup := by
  by_cases ha : key a ∈ l.map key
  · rwa [addNew_of_mem ha]
  · rw [addNew_of_not_mem ha, List.map_append, List.map_singleton]
    exact List.nodup_append.2 ⟨h, List.pairwise_singleton .., fun x hx y hy => by
      rintro rfl
      exact ha (List.mem_singleton.1 hy ▸ hx)⟩

theorem prefix_joinNew (l l₁ : List α) : l <+: joinNew key l l₁ := by
  induction l₁ generalizing l with
  | nil => exact List.prefix_rfl
  | cons a l₁ ih => exact prefix_addNew.trans (ih _)

theorem key_mem_joinNew (h : a ∈ l₁) : key a ∈ (joinNew key l l₁).map key := by
  induction l₁ generalizing l with
  | nil => cases h
  | cons b l₁ ih =>
    rcases List.mem_cons.1 h with rfl | h
    · exact ((prefix_joinNew _ l₁).map key).subset key_mem_addNew
    · exact ih h

theorem joinNew_append : joinNew key l (l₁ ++ l₂) = joinNew key (joinNew key l l₁) l₂ := List.foldl_append

theorem joinNew_of_known (h : ∀ a ∈ l₁, key a ∈ l.map key) : joinNew key l l₁ = l := by
  induction l₁ with
  | nil => rfl
  | cons a l₁ ih =>
    obtain ⟨ha, hl⟩ := List.forall_mem_cons.1 h
    change joinNew key (addNew key l a) l₁ = l
    rw [addNew_of_mem ha]
    exact ih hl

theorem joinNew_joinNew (h : l₁ <+: l₂) : joinNew key (joinNew key l l₁) l₂ = joinNew key l l₂ := by
  obtain ⟨l', rfl⟩ := h
  rw [joinNew_append, joinNew_append, joinNew_of_known fun a ha => key_mem_joinNew ha]

/-- Joining twice, the second time with less. -/
theorem joinNew_joinNew_of_initial (h : l₁ <+: l₂) : joinNew key (joinNew key l l₂) l₁ = joinNew key l l₂ :=
  joinNew_of_known fun _ ha => key_mem_joinNew (h.subset ha)

/-- One more entry on both sides. -/
theorem joinNew_addNew (h : joinNew key l l₁ = l) : joinNew key l (addNew key l₁ a) = addNew key l a := by
  by_cases ha : key a ∈ l₁.map key
  · obtain ⟨b, hb, hkey⟩ := List.mem_map.1 ha
    have hmem : key a ∈ l.map key := by
      rw [← hkey, ← h]
      exact key_mem_joinNew hb
    rw [addNew_of_mem ha, addNew_of_mem hmem, h]
  · rw [addNew_of_not_mem ha, joinNew_append, h]
    rfl

theorem joinNew_of_initial (h : l <+: l₁) (hd : (l₁.map key).Nodup) : joinNew key l l₁ = l₁ := by
  obtain ⟨l', rfl⟩ := h
  rw [joinNew_append, joinNew_of_known fun a ha => List.mem_map_of_mem ha]
  induction l' generalizing l with
  | nil => exact (List.append_nil l).symm
  | cons a l' ih =>
    have hnew : key a ∉ l.map key := by
      intro hmem
      rw [List.map_append] at hd
      exact (List.nodup_append.1 hd).2.2 _ hmem _ (List.mem_map_of_mem (List.mem_cons_self ..)) rfl
    have hsplit : l ++ a :: l' = l ++ [a] ++ l' := by simp
    change joinNew key (addNew key l a) l' = _
    rw [addNew_of_not_mem hnew, hsplit]
    exact ih (hsplit ▸ hd)

end Lists

/-! ## Looking things up -/

namespace Emit

variable {α β : Type}

/-- A computation that leaves the state alone and depends on the unit only. -/
def Consults (m : EmitM α) : Prop :=
  ∀ s s' : EmitState, s'.unit = s.unit → match m s with
    | .ok a _ => m s' = .ok a s'
    | .error e _ => m s' = .error e s'

/-- What such a computation yields for a unit. -/
def consult (m : EmitM α) (u : AnalysisResult) : Except EmitFailure α :=
  match m (start u {} {}) with
  | .ok a _ => .ok a
  | .error e _ => .error e

namespace Consults

variable {m : EmitM α} {f : α → EmitM β}

theorem ok (h : Consults m) {s s₁ s' : EmitState} {a : α} (hu : s'.unit = s.unit) (hm : m s = .ok a s₁) :
    m s' = .ok a s' := by
  have := h s s' hu
  rw [hm] at this
  exact this

theorem error (h : Consults m) {s s₁ s' : EmitState} {e : EmitFailure} (hu : s'.unit = s.unit) (hm : m s = .error e s₁) :
    m s' = .error e s' := by
  have := h s s' hu
  rw [hm] at this
  exact this

theorem run (h : Consults m) (s : EmitState) : m s = (match consult m s.unit with
    | .ok a => .ok a s
    | .error e => .error e s) := by
  unfold consult
  cases hm : m (start s.unit {} {}) with
  | ok a s₁ => exact h.ok (s := start s.unit {} {}) rfl hm
  | error e s₁ => exact h.error (s := start s.unit {} {}) rfl hm

theorem bind (hm : Consults m) (hf : ∀ a, Consults (f a)) : Consults (m >>= f) := by
  intro s s' hu
  cases hrun : m s with
  | error e s₁ =>
    rw [bind_fail hrun, bind_fail (hm.error hu hrun)]
  | ok a s₁ =>
    have hrun' := hm.ok rfl hrun
    rw [bind_run hrun', bind_run (hm.ok hu hrun)]
    exact hf a s s' hu

theorem pure (a : α) : Consults (pure a) := fun _ _ _ => rfl

theorem throw (e : EmitFailure) : Consults (throw e : EmitM α) := fun _ _ _ => rfl

theorem fatal (id : NodeId) (cause : EmitCause) : Consults (fatal id cause : EmitM α) := throw _

theorem unit : Consults unit := by
  intro s s' hu
  change EStateM.Result.ok s'.unit s' = EStateM.Result.ok s.unit s'
  rw [hu]

theorem ite {c : Prop} [Decidable c] {x y : EmitM α} (hx : Consults x) (hy : Consults y) : Consults (if c then x else y) := by
  split <;> assumption

theorem mapM {f : α → EmitM β} (l : List α) (h : ∀ a, Consults (f a)) : Consults (l.mapM f) := by
  induction l with
  | nil => exact .pure _
  | cons a l ih =>
    rw [List.mapM_cons]
    exact (h a).bind fun x => ih.bind fun xs => .pure _

theorem node (id : NodeId) : Consults (node id) := unit.bind fun u => by
  split
  · exact .pure _
  · exact .fatal _ _

theorem kindOf (id : NodeId) : Consults (kindOf id) := unit.bind fun _ => .pure _

theorem symbol (id : SymbolId) : Consults (symbol id) := unit.bind fun u => by
  split
  · exact .pure _
  · exact .throw _

theorem declaration (sym : Symbol) : Consults (declaration sym) := unit.bind fun u => by
  split
  · exact .pure _
  · exact .throw _

theorem funcScope (fn : SymbolId) : Consults (funcScope fn) := unit.bind fun u => (symbol fn).bind fun sym => by
  split
  · exact .pure _
  · exact .throw _

theorem typeInfo (id : TypeId) : Consults (typeInfo id) := unit.bind fun u => by
  split
  · exact .pure _
  · exact .throw _

theorem typeKind (id : TypeId) : Consults (typeKind id) := unit.bind fun _ => .pure _

theorem isResolved (id : TypeId) : Consults (isResolved id) := unit.bind fun _ => .pure _

theorem isValue (t : TypeId) : Consults (isValue t) := (typeKind t).bind fun k => by
  split <;> exact .pure _

theorem funcName (fn : SymbolId) : Consults (funcName fn) := unit.bind fun _ => (symbol fn).bind fun _ => .pure _

theorem valueKind (id : NodeId) : Consults (valueKind id) := (node id).bind fun _ => typeKind _

theorem binaryCode (at' : NodeId) (op : Operator) (l r : NodeId) : Consults (binaryCode at' op l r) := by
  unfold Emit.binaryCode
  split
  · exact .fatal _ _
  · exact (valueKind l).bind fun lk => (valueKind r).bind fun _ => .ite (.pure _) (.pure _)

theorem binding (id : NodeId) : Consults (binding id) := unit.bind fun u => by
  split
  · exact .pure _
  · exact (node id).bind fun _ => .fatal _ _

theorem fieldDefaults (t : TypeId) : Consults (fieldDefaults t) := unit.bind fun u => by
  split <;> exact .pure _

theorem givenFields (list : List NodeId) : Consults (givenFields list) := (mapM list node).bind fun _ => .pure _

theorem stores (id : NodeId) : Consults (stores id) := unit.bind fun u => by
  dsimp only
  split
  · exact .pure _
  · exact .throw _

theorem storesAfter (ids : List NodeId) : Consults (storesAfter ids) := by
  induction ids with
  | nil => exact .pure _
  | cons id rest ih =>
    cases rest with
    | nil => exact .pure _
    | cons next rest =>
      unfold Emit.storesAfter
      exact ih.bind fun tail => .ite (.pure _) ((stores next).bind fun _ => .pure _)

end Consults

/-- The operand of a variable in a frame with that many captures. -/
def storageAt (captures : Nat) (v : SymbolId) : EmitM Operand := do
  let sym ← symbol v
  match slotOf? captures sym.storage with
  | some o => return o
  | none => fatal sym.decl (.noStorage ((← unit).scopes.symbolName v))

theorem storage_run (v : SymbolId) (s : EmitState) : storage v s = storageAt s.frame.captures v s := by
  unfold storage storageAt
  cases hsym : symbol v s with
  | error e s₁ => rw [bind_fail hsym, bind_fail hsym]
  | ok sym s₁ =>
    obtain ⟨-, rfl⟩ := symbol_ok hsym
    rw [bind_run hsym, bind_run hsym]
    cases sym.storage <;> rfl

theorem Consults.storageAt (captures : Nat) (v : SymbolId) : Consults (storageAt captures v) := (symbol v).bind fun sym => by
  split
  · exact .pure _
  · exact unit.bind fun _ => .fatal _ _

theorem storageAt_kind {captures : Nat} {v : SymbolId} {s s' : EmitState} {o : Operand}
    (h : storageAt captures v s = .ok o s') : o.kind = .global ∨ o.kind = .stack := by
  obtain ⟨sym, s₁, -, h₁⟩ := bind_ok h
  cases hslot : slotOf? captures sym.storage with
  | some o₁ =>
    rw [hslot] at h₁
    cases h₁
    exact Guards.slot_kind hslot
  | none =>
    rw [hslot] at h₁
    obtain ⟨_, _, _, h₂⟩ := bind_ok h₁
    cases h₂

end Emit

/-! ## Catalogs -/

/-- What was asked for, each in the order of its rows. Types are told apart by name and kind. -/
structure Catalog where
  texts : List String := []
  types : List TypeRow := []
  natives : List SymbolId := []
  funcs : List SymbolId := []

inductive Request
  | text (x : String)
  | type (row : TypeRow)
  | native (fn : SymbolId)
  | func (fn : SymbolId)

/-- The operand that names a row. -/
def Request.operand : Request → Nat → Operand
  | text _ => .text
  | type _ => .type
  | native _ => .native
  | func _ => .func

namespace Catalog

def add (c : Catalog) : Request → Catalog
  | .text x => { c with texts := addNew id c.texts x }
  | .type row => { c with types := addNew Assembler.typeKey c.types row }
  | .native fn => { c with natives := addNew id c.natives fn }
  | .func fn => { c with funcs := addNew id c.funcs fn }

/-- The rows of `c`, then those that only `c'` has. -/
def join (c c' : Catalog) : Catalog where
  texts := joinNew id c.texts c'.texts
  types := joinNew Assembler.typeKey c.types c'.types
  natives := joinNew id c.natives c'.natives
  funcs := joinNew id c.funcs c'.funcs

structure Grows (c c' : Catalog) : Prop where
  texts : c.texts <+: c'.texts
  types : c.types <+: c'.types
  natives : c.natives <+: c'.natives
  funcs : c.funcs <+: c'.funcs

/-- No row occurs twice. -/
structure Distinct (c : Catalog) : Prop where
  texts : (c.texts.map id).Nodup
  types : (c.types.map Assembler.typeKey).Nodup
  natives : (c.natives.map id).Nodup
  funcs : (c.funcs.map id).Nodup

/-- A request is answered by that row. -/
def At (c : Catalog) : Request → Nat → Prop
  | .text x, i => (c.texts.map id)[i]? = some x
  | .type row, i => (c.types.map Assembler.typeKey)[i]? = some (Assembler.typeKey row)
  | .native fn, i => (c.natives.map id)[i]? = some fn
  | .func fn, i => (c.funcs.map id)[i]? = some fn

variable {c c' c₁ c₂ : Catalog} {r : Request} {i j : Nat}

theorem Grows.refl (c : Catalog) : c.Grows c := ⟨List.prefix_rfl, List.prefix_rfl, List.prefix_rfl, List.prefix_rfl⟩

theorem Grows.trans (h : c.Grows c₁) (h' : c₁.Grows c₂) : c.Grows c₂ :=
  ⟨h.texts.trans h'.texts, h.types.trans h'.types, h.natives.trans h'.natives, h.funcs.trans h'.funcs⟩

theorem grows_add (c : Catalog) (r : Request) : c.Grows (c.add r) := by
  cases r with
  | text x => exact { Grows.refl c with texts := prefix_addNew }
  | type row => exact { Grows.refl c with types := prefix_addNew }
  | native fn => exact { Grows.refl c with natives := prefix_addNew }
  | func fn => exact { Grows.refl c with funcs := prefix_addNew }

theorem grows_join (c c' : Catalog) : c.Grows (c.join c') :=
  ⟨prefix_joinNew .., prefix_joinNew .., prefix_joinNew .., prefix_joinNew ..⟩

theorem distinct_add (h : c.Distinct) (r : Request) : (c.add r).Distinct := by
  cases r with
  | text x => exact { h with texts := nodup_addNew h.texts }
  | type row => exact { h with types := nodup_addNew h.types }
  | native fn => exact { h with natives := nodup_addNew h.natives }
  | func fn => exact { h with funcs := nodup_addNew h.funcs }

theorem join_join (h : c₁.Grows c₂) : (c.join c₁).join c₂ = c.join c₂ := by
  unfold join
  congr 1
  · exact joinNew_joinNew h.texts
  · exact joinNew_joinNew h.types
  · exact joinNew_joinNew h.natives
  · exact joinNew_joinNew h.funcs

theorem join_known (h : c₁.Grows c₂) : (c.join c₂).join c₁ = c.join c₂ := by
  unfold join
  congr 1
  · exact joinNew_joinNew_of_initial h.texts
  · exact joinNew_joinNew_of_initial h.types
  · exact joinNew_joinNew_of_initial h.natives
  · exact joinNew_joinNew_of_initial h.funcs

/-- What is asked for on both sides. -/
theorem join_add (h : c.join c' = c) (r : Request) : c.join (c'.add r) = c.add r := by
  have htexts : joinNew id c.texts c'.texts = c.texts := congrArg texts h
  have htypes : joinNew Assembler.typeKey c.types c'.types = c.types := congrArg types h
  have hnatives : joinNew id c.natives c'.natives = c.natives := congrArg natives h
  have hfuncs : joinNew id c.funcs c'.funcs = c.funcs := congrArg funcs h
  cases r with
  | text x => simp only [join, add, joinNew_addNew htexts, htypes, hnatives, hfuncs]
  | type row => simp only [join, add, htexts, joinNew_addNew htypes, hnatives, hfuncs]
  | native fn => simp only [join, add, htexts, htypes, joinNew_addNew hnatives, hfuncs]
  | func fn => simp only [join, add, htexts, htypes, hnatives, joinNew_addNew hfuncs]

theorem join_of_grows (h : c.Grows c') (hd : c'.Distinct) : c.join c' = c' := by
  unfold join
  rw [joinNew_of_initial h.texts hd.texts, joinNew_of_initial h.types hd.types, joinNew_of_initial h.natives hd.natives,
    joinNew_of_initial h.funcs hd.funcs]

theorem join_self (c : Catalog) (h : c.Distinct) : c.join c = c := join_of_grows (.refl c) h

theorem At.mono (h : c.At r i) (hg : c.Grows c') : c'.At r i := by
  have keep {α β : Type} {key : α → β} {l l' : List α} {b : β} (hl : l <+: l') (hb : (l.map key)[i]? = some b) :
      (l'.map key)[i]? = some b := by
    obtain ⟨tail, htail⟩ := hl.map key
    rw [← htail, List.getElem?_append_left (List.getElem?_eq_some_iff.1 hb).1, hb]
  cases r with
  | text x => exact keep hg.texts h
  | type row => exact keep hg.types h
  | native fn => exact keep hg.natives h
  | func fn => exact keep hg.funcs h

theorem At.unique (hd : c.Distinct) (h : c.At r i) (h' : c.At r j) : i = j := by
  have place {α : Type} {l : List α} {x : α} (hl : l.Nodup) (hi : l[i]? = some x) (hj : l[j]? = some x) : i = j :=
    (List.getElem?_inj (List.getElem?_eq_some_iff.1 hi).1 hl).1 (hi.trans hj.symm)
  cases r with
  | text x => exact place hd.texts h h'
  | type row => exact place hd.types h h'
  | native fn => exact place hd.natives h h'
  | func fn => exact place hd.funcs h h'

end Catalog

/-! ## The tables of a state -/

namespace Emit

/-- The row of a function when it is declared. -/
def initialRow (fn : SymbolId) : EmitM FuncRow := do
  let n ← declaration (← symbol fn)
  return { name := ← funcName fn, params := n.list.length }

def nativeRow (fn : SymbolId) : EmitM NativeRow := do
  let sym ← symbol fn
  let name := (← unit).scopes.symbolName fn
  match (← declaration sym).native with
  | some x => return { library := x.library, symbol := x.symbol, handle := sym.handle }
  | none => return { symbol := name, handle := sym.handle }

def typeRow (t : TypeId) : EmitM TypeRow := do
  let ty ← typeInfo t
  return { name := (← unit).types.format t, kind := ty.kind.name, fields := ty.shape.fields.map (·.name) }

theorem Consults.initialRow (fn : SymbolId) : Consults (initialRow fn) :=
  (symbol fn).bind fun sym => (declaration sym).bind fun _ => (funcName fn).bind fun _ => .pure _

theorem Consults.nativeRow (fn : SymbolId) : Consults (nativeRow fn) :=
  (symbol fn).bind fun sym => unit.bind fun _ => (declaration sym).bind fun n => by
    split <;> exact .pure _

theorem Consults.typeRow (t : TypeId) : Consults (typeRow t) := (typeInfo t).bind fun _ => unit.bind fun _ => .pure _

end Emit

open Emit in
structure Catalogued (s : EmitState) (c : Catalog) : Prop where
  texts : s.asm.strings.toList = c.texts
  types : s.asm.types.toList = c.types
  typeRows : ∀ t i, s.typeRows.get? t = some i → ∃ row, consult (typeRow t) s.unit = .ok row ∧ c.At (.type row) i
  natives : List.Forall₂ (fun fn row => consult (nativeRow fn) s.unit = .ok row) c.natives s.asm.natives.toList
  nativeIndex : ∀ fn i, s.natives.get? fn = some i ↔ c.natives[i]? = some fn
  work : s.work.toList = c.funcs
  rows : s.asm.funcs.size = c.funcs.length
  funcs : ∀ fn k e, s.funcs.get? fn = some (k, e) ↔ c.funcs[k]? = some fn ∧ (s.asm.funcs[k]?).map (·.entry) = some e
  declared : ∀ fn ∈ c.funcs, ∃ row, consult (initialRow fn) s.unit = .ok row
  entries : ∀ (k : Nat) r, s.asm.funcs[k]? = some r → r.entry < s.asm.labels.size
  apart : ∀ (k k' : Nat) r r', s.asm.funcs[k]? = some r → s.asm.funcs[k']? = some r' → r.entry = r'.entry → k = k'
  distinct : c.Distinct

/-- A state has one catalog, which its tables and indices determine. -/
theorem Catalogued.unique {s t : EmitState} {c c' : Catalog} (hs : Catalogued s c) (ht : Catalogued t c')
    (texts : t.asm.strings = s.asm.strings) (types : t.asm.types = s.asm.types) (natives : t.natives = s.natives)
    (work : t.work = s.work) : c' = c := by
  have hnatives : c'.natives = c.natives := by
    refine List.ext_getElem? fun i => Option.ext fun fn => ?_
    rw [← ht.nativeIndex fn i, natives]
    exact hs.nativeIndex fn i
  have htexts : c'.texts = c.texts := ht.texts.symm.trans (by rw [texts, hs.texts])
  have htypes : c'.types = c.types := ht.types.symm.trans (by rw [types, hs.types])
  have hfuncs : c'.funcs = c.funcs := ht.work.symm.trans (by rw [work, hs.work])
  cases c
  cases c'
  subst hnatives htexts htypes hfuncs
  rfl

theorem Catalogued.row_lt {s : EmitState} {c : Catalog} (hc : Catalogued s c) {fn : SymbolId} {p : Nat × Label} (h : s.funcs.get? fn = some p) :
    p.1 < s.asm.funcs.size := by
  have := ((hc.funcs fn p.1 p.2).1 h).1
  rw [hc.rows]
  exact (List.getElem?_eq_some_iff.1 this).1

theorem Catalogued.entry_lt {s : EmitState} {c : Catalog} (hc : Catalogued s c) {fn : SymbolId} {p : Nat × Label} (h : s.funcs.get? fn = some p) :
    p.2 < s.asm.labels.size := by
  obtain ⟨r, hr, he⟩ := Option.map_eq_some_iff.1 ((hc.funcs fn p.1 p.2).1 h).2
  rw [← he]
  exact hc.entries p.1 r hr

namespace EmitState

/-- The address of a function's entry, once its code is emitted. -/
def entryAddress? (s : EmitState) (fn : SymbolId) : Option Nat := (s.funcs.get? fn).bind fun p => s.asm.address? p.2

/-- The row of a function, or the one that it will get. -/
def rowOf? (s : EmitState) (fn : SymbolId) : Option FuncRow :=
  match s.funcs.get? fn with
  | some p => (s.asm.funcs[p.1]?).map (·.row)
  | none => (Emit.consult (Emit.initialRow fn) s.unit).toOption

/-- Nothing but the tables changed, and labels of new functions were made. -/
structure Untouched (s s' : EmitState) : Prop where
  unit : s'.unit = s.unit
  values : s'.values = s.values
  refs : s'.refs = s.refs
  frame : s'.frame = s.frame
  accumulatorWrites : s'.accumulatorWrites = s.accumulatorWrites
  returnWrites : s'.returnWrites = s.returnWrites
  countingCalls : s'.countingCalls = s.countingCalls
  code : s'.asm.code = s.asm.code
  size : s.asm.labels.size ≤ s'.asm.labels.size
  address? : ∀ l, s'.asm.address? l = s.asm.address? l
  entryAddress? : ∀ fn, s'.entryAddress? fn = s.entryAddress? fn
  rowOf? : ∀ fn, s'.rowOf? fn = s.rowOf? fn
  fresh : ∀ fn p, s'.funcs.get? fn = some p → s.funcs.get? fn = some p ∨ s.asm.labels.size ≤ p.2

/-- A step that leaves the functions alone. -/
theorem Untouched.of_funcs {s s' : EmitState} (unit : s'.unit = s.unit) (values : s'.values = s.values)
    (refs : s'.refs = s.refs) (frame : s'.frame = s.frame) (acc : s'.accumulatorWrites = s.accumulatorWrites)
    (ret : s'.returnWrites = s.returnWrites) (counting : s'.countingCalls = s.countingCalls)
    (code : s'.asm.code = s.asm.code) (labels : s'.asm.labels = s.asm.labels) (rows : s'.asm.funcs = s.asm.funcs)
    (funcs : s'.funcs = s.funcs) : s.Untouched s' where
  unit := unit
  values := values
  refs := refs
  frame := frame
  accumulatorWrites := acc
  returnWrites := ret
  countingCalls := counting
  code := code
  size := Nat.le_of_eq (by rw [labels])
  address? := fun l => by simp only [Assembler.address?, labels]
  entryAddress? := fun fn => by simp only [EmitState.entryAddress?, Assembler.address?, labels, funcs]
  rowOf? := fun fn => by
    unfold EmitState.rowOf?
    rw [funcs, rows, unit]
  fresh := fun fn p hp => .inl (funcs ▸ hp)

theorem Untouched.refl (s : EmitState) : s.Untouched s := .of_funcs rfl rfl rfl rfl rfl rfl rfl rfl rfl rfl rfl

end EmitState

namespace Emit

variable {α : Type} {s : EmitState} {c : Catalog}

/-- A computation that finds the row of what is asked for, or adds it. -/
def Answers (m : EmitM α) (view : α → Operand) (asked : AnalysisResult → Except EmitFailure Request) : Prop :=
  ∀ s c, Catalogued s c → match asked s.unit with
    | .error e => m s = .error e s
    | .ok r => ∃ a i s', m s = .ok a s' ∧ view a = r.operand i ∧ (c.add r).At r i ∧ Catalogued s' (c.add r) ∧ s.Untouched s'

/-- A row that is there already. -/
theorem add_of_at {r : Request} {i : Nat} (h : c.At r i) : c.add r = c := by
  cases r with
  | text x => exact congrArg (fun l => { c with texts := l }) (addNew_of_mem (List.mem_of_getElem? h))
  | type row => exact congrArg (fun l => { c with types := l }) (addNew_of_mem (List.mem_of_getElem? h))
  | native fn => exact congrArg (fun l => { c with natives := l }) (addNew_of_mem (List.mem_of_getElem? h))
  | func fn => exact congrArg (fun l => { c with funcs := l }) (addNew_of_mem (List.mem_of_getElem? h))

theorem answers_stringRef (x : String) : Answers (stringRef x) id fun _ => .ok (.text x) := by
  intro s c hc
  change ∃ o i s', stringRef x s = .ok o s' ∧ o = .text i ∧ _ ∧ Catalogued s' (c.add (.text x)) ∧ s.Untouched s'
  have hrun : stringRef x s = .ok (s.asm.addString x).1 { s with asm := (s.asm.addString x).2 } := rfl
  unfold Assembler.addString at hrun
  cases hfind : s.asm.strings.findIdx? (· == x) with
  | some i =>
    rw [hfind] at hrun
    obtain ⟨hi, hx, _⟩ := Array.findIdx?_eq_some_iff_getElem.1 hfind
    have hat : c.At (.text x) i := by
      simp only [Catalog.At, List.map_id, ← hc.texts, Array.getElem?_toList, Array.getElem?_eq_getElem hi]
      rw [beq_iff_eq.1 hx]
    rw [add_of_at hat]
    exact ⟨_, i, _, hrun, rfl, hat, hc, .refl s⟩
  | none =>
    rw [hfind] at hrun
    have hnew : (c.add (.text x)).texts = s.asm.strings.toList ++ [x] := by
      rw [hc.texts]
      refine addNew_of_not_mem fun hmem => ?_
      rw [List.map_id, ← hc.texts, Array.mem_toList_iff] at hmem
      simpa using Array.findIdx?_eq_none_iff.1 hfind x hmem
    refine ⟨_, s.asm.strings.size, _, hrun, rfl, ?_, ?_, .of_funcs rfl rfl rfl rfl rfl rfl rfl rfl rfl rfl rfl⟩
    · simp [Catalog.At, hnew]
    · exact { hc with texts := by simp [hnew], distinct := Catalog.distinct_add hc.distinct _ }

/-- A row that is looked up first and else added behind the others. -/
theorem Answers.of_row {ρ : Type} {m : EmitM Nat} {view : Nat → Operand} {row : EmitM ρ} {req : ρ → Request}
    (hrow : Consults row) (hview : ∀ x, (req x).operand = view)
    (h : ∀ s c, Catalogued s c →
      (∃ i x, m s = .ok i s ∧ consult row s.unit = .ok x ∧ c.At (req x) i) ∨
      ∃ k, m s = (row >>= k) s ∧ ∀ x, consult row s.unit = .ok x → ∃ i s', k x s = .ok i s' ∧
        (c.add (req x)).At (req x) i ∧ Catalogued s' (c.add (req x)) ∧ s.Untouched s') :
    Answers m view fun u => (consult row u).map req := by
  intro s c hc
  have hrun := hrow.run s
  rcases h s c hc with ⟨i, x, hm, hx, hat⟩ | ⟨k, hm, hk⟩
  · simp only [hx, Except.map, add_of_at hat]
    exact ⟨i, i, s, hm, by rw [hview], hat, hc, .refl s⟩
  · cases hx : consult row s.unit with
    | error e =>
      simp only [hx] at hrun
      simp only [hx, Except.map]
      exact hm.trans (bind_fail hrun)
    | ok x =>
      simp only [hx] at hrun
      simp only [hx, Except.map]
      obtain ⟨i, s', hks, hrest⟩ := hk x hx
      exact ⟨i, i, s', hm.trans ((bind_run hrun).trans hks), by rw [hview], hrest⟩

/-- A row that was found, or one that is made and added. -/
def foundOr {ρ : Type} (row : EmitM ρ) (add : ρ → EmitM Nat) : Option Nat → EmitM Nat
  | some i => pure i
  | none => row >>= add

/-! ### Types -/

def addTypeRow (t : TypeId) (row : TypeRow) : EmitM Nat :=
  modifyGet fun s => ((s.asm.addType row).1, { s with
    asm := (s.asm.addType row).2
    typeRows := s.typeRows.insert t (s.asm.addType row).1 })

theorem typeRef_run (t : TypeId) (s : EmitState) :
    typeRef t s = foundOr (typeRow t) (addTypeRow t) (s.typeRows.get? t) s := by
  unfold typeRef
  rw [get_bind_apply]
  simp only [foundOr, typeRow, bind_assoc, pure_bind]
  rfl

theorem addTypeRow_run {t : TypeId} {row : TypeRow} (hc : Catalogued s c) (hrow : consult (typeRow t) s.unit = .ok row) :
    ∃ i s', addTypeRow t row s = .ok i s' ∧ (c.add (.type row)).At (.type row) i ∧ Catalogued s' (c.add (.type row)) ∧
      s.Untouched s' := by
  have hrows (i : Nat) (hat : (c.add (.type row)).At (.type row) i) : ∀ t' j, (s.typeRows.insert t i).get? t' = some j →
      ∃ row', consult (typeRow t') s.unit = .ok row' ∧ (c.add (.type row)).At (.type row') j := by
    intro t' j hj
    rw [IdMap.get?_insert] at hj
    split at hj
    · cases hj
      subst t'
      exact ⟨row, hrow, hat⟩
    · obtain ⟨row', hrow', hat'⟩ := hc.typeRows t' j hj
      exact ⟨row', hrow', hat'.mono (c.grows_add _)⟩
  refine ⟨_, _, rfl, ?_⟩
  unfold Assembler.addType
  cases hfind : s.asm.types.findIdx? (fun u => Assembler.typeKey u == Assembler.typeKey row) with
  | some i =>
    obtain ⟨hi, hx, _⟩ := Array.findIdx?_eq_some_iff_getElem.1 hfind
    have hat : c.At (.type row) i := by
      simp only [Catalog.At, List.getElem?_map, ← hc.types, Array.getElem?_toList, Array.getElem?_eq_getElem hi]
      simpa using hx
    rw [add_of_at hat] at hrows ⊢
    exact ⟨hat, { hc with typeRows := hrows i hat }, .of_funcs rfl rfl rfl rfl rfl rfl rfl rfl rfl rfl rfl⟩
  | none =>
    have hnew : (c.add (.type row)).types = s.asm.types.toList ++ [row] := by
      rw [hc.types]
      refine addNew_of_not_mem fun hmem => ?_
      obtain ⟨row', hmem', hkey⟩ := List.mem_map.1 hmem
      rw [← hc.types, Array.mem_toList_iff] at hmem'
      simpa [hkey] using Array.findIdx?_eq_none_iff.1 hfind row' hmem'
    have hat : (c.add (.type row)).At (.type row) s.asm.types.size := by simp [Catalog.At, hnew]
    refine ⟨hat, ?_, .of_funcs rfl rfl rfl rfl rfl rfl rfl rfl rfl rfl rfl⟩
    exact
      { hc with
        types := by simp [hnew]
        typeRows := hrows _ hat
        distinct := Catalog.distinct_add hc.distinct _ }

theorem answers_typeRef (t : TypeId) : Answers (typeRef t) .type fun u => (consult (typeRow t) u).map .type := by
  refine .of_row (.typeRow t) (fun _ => rfl) fun s c hc => ?_
  rw [typeRef_run]
  cases hget : s.typeRows.get? t with
  | some i =>
    obtain ⟨row, hrow, hat⟩ := hc.typeRows t i hget
    exact .inl ⟨i, row, rfl, hrow, hat⟩
  | none => exact .inr ⟨addTypeRow t, rfl, fun row hrow => addTypeRow_run hc hrow⟩

/-! ### Native functions -/

def addNativeRow (fn : SymbolId) (row : NativeRow) : EmitM Nat :=
  modifyGet fun s => (s.asm.natives.size, { s with
    asm := (s.asm.addNative row).2
    natives := s.natives.insert fn s.asm.natives.size })

theorem nativeRef_run (fn : SymbolId) (s : EmitState) :
    nativeRef fn s = foundOr (nativeRow fn) (addNativeRow fn) (s.natives.get? fn) s := by
  unfold nativeRef
  rw [get_bind_apply]
  have hbind : (nativeRow fn >>= addNativeRow fn) = (do
      let sym ← symbol fn
      let u ← unit
      let n ← declaration sym
      addNativeRow fn (match n.native with
        | some x => { library := x.library, symbol := x.symbol, handle := sym.handle }
        | none => { symbol := u.scopes.symbolName fn, handle := sym.handle })) := by
    simp only [nativeRow, bind_assoc]
    congr 1
    funext sym
    congr 1
    funext u
    congr 1
    funext n
    split <;> rfl
  simp only [foundOr, hbind]
  rfl

/-- A list of distinct numbers with one more, as a map to the places. -/
theorem getElem?_append_singleton_iff {l : List Nat} {m : IdMap Nat} {x y i : Nat} (hm : ∀ y i, m.get? y = some i ↔ l[i]? = some y)
    (hx : m.get? x = none) : (m.insert x l.length).get? y = some i ↔ (l ++ [x])[i]? = some y := by
  rw [IdMap.get?_insert, List.getElem?_append]
  by_cases hi : i < l.length
  · rw [if_pos hi, ← hm]
    by_cases hy : y = x
    · subst hy
      simp [hx, Nat.ne_of_gt hi]
    · rw [if_neg hy]
  · rw [if_neg hi]
    have hnone : m.get? y ≠ some i := fun h => hi (List.getElem?_eq_some_iff.1 ((hm y i).1 h)).1
    by_cases hy : y = x
    · subst hy
      rw [if_pos rfl, List.getElem?_singleton]
      simp
      omega
    · rw [if_neg hy, List.getElem?_singleton]
      simp [hnone, Ne.symm hy]

theorem addNativeRow_run {fn : SymbolId} {row : NativeRow} (hc : Catalogued s c) (hget : s.natives.get? fn = none)
    (hrow : consult (nativeRow fn) s.unit = .ok row) :
    ∃ i s', addNativeRow fn row s = .ok i s' ∧ (c.add (.native fn)).At (.native fn) i ∧ Catalogued s' (c.add (.native fn)) ∧
      s.Untouched s' := by
  have hlen : s.asm.natives.size = c.natives.length := by simpa using hc.natives.length_eq.symm
  have hnew : (c.add (.native fn)).natives = c.natives ++ [fn] := by
    refine addNew_of_not_mem fun hmem => ?_
    obtain ⟨i, hi⟩ := List.getElem?_of_mem hmem
    rw [List.map_id, id, ← hc.nativeIndex, hget] at hi
    cases hi
  refine ⟨_, _, rfl, ?_, ?_, .of_funcs rfl rfl rfl rfl rfl rfl rfl rfl rfl rfl rfl⟩
  · simp [Catalog.At, hnew, hlen]
  · refine { hc with natives := ?_, nativeIndex := fun g i => ?_, distinct := Catalog.distinct_add hc.distinct _ }
    · simp only [hnew, Assembler.addNative, Array.toList_push]
      exact List.rel_append hc.natives (.cons hrow .nil)
    · rw [hnew, hlen]
      exact getElem?_append_singleton_iff hc.nativeIndex hget

theorem answers_nativeRef (fn : SymbolId) :
    Answers (nativeRef fn) .native fun u => (consult (nativeRow fn) u).map fun _ => .native fn := by
  refine .of_row (.nativeRow fn) (fun _ => rfl) fun s c hc => ?_
  rw [nativeRef_run]
  cases hget : s.natives.get? fn with
  | some i =>
    have hi := (hc.nativeIndex fn i).1 hget
    have hlt := (List.getElem?_eq_some_iff.1 hi).1
    have hrow := hc.natives.get hlt (hc.natives.length_eq ▸ hlt)
    rw [List.getElem?_eq_getElem hlt, Option.some.injEq] at hi
    rw [List.get_eq_getElem, hi] at hrow
    exact .inl ⟨i, _, rfl, hrow, by simp [Catalog.At, hlt, hi]⟩
  | none => exact .inr ⟨addNativeRow fn, rfl, fun row hrow => addNativeRow_run hc hget hrow⟩

/-! ### Functions -/

def declareRow (fn : SymbolId) (row : FuncRow) : EmitM Nat :=
  modifyGet fun s => (s.asm.funcs.size, { s with
    asm := { s.asm with
      labels := s.asm.labels.push none
      funcs := s.asm.funcs.push { row, entry := s.asm.labels.size } }
    funcs := s.funcs.insert fn (s.asm.funcs.size, s.asm.labels.size)
    work := s.work.push fn })

theorem funcRef_run (fn : SymbolId) (s : EmitState) :
    funcRef fn s = foundOr (initialRow fn) (declareRow fn) ((s.funcs.get? fn).map (·.1)) s := by
  unfold funcRef
  rw [get_bind_apply]
  cases s.funcs.get? fn with
  | some p => rfl
  | none =>
    simp only [Option.map_none, foundOr, initialRow, bind_assoc, pure_bind]
    rfl

theorem address?_push (a a' : Assembler) (h : a'.labels = a.labels.push none) (l : Label) : a'.address? l = a.address? l := by
  unfold Assembler.address?
  rw [h, Array.getElem?_push]
  split
  · rw [Array.getElem?_eq_none (by omega)]
    rfl
  · rfl

theorem declareRow_untouched {fn : SymbolId} {row : FuncRow} {i : Nat} {s' : EmitState} (hc : Catalogued s c)
    (hget : s.funcs.get? fn = none) (hrow : consult (initialRow fn) s.unit = .ok row) (h : declareRow fn row s = .ok i s') :
    s.Untouched s' := by
  cases h
  have haddress := address?_push s.asm { s.asm with
    labels := s.asm.labels.push none, funcs := s.asm.funcs.push { row, entry := s.asm.labels.size } } rfl
  refine
    { EmitState.Untouched.refl s with
      size := by simp
      address? := haddress
      entryAddress? := fun g => ?_
      rowOf? := fun g => ?_
      fresh := fun g p hp => ?_ }
  · simp only [EmitState.entryAddress?, IdMap.get?_insert]
    split
    · subst g
      rw [hget]
      exact (haddress _).trans (by simp [Assembler.address?])
    · simp only [haddress]
  · simp only [EmitState.rowOf?, IdMap.get?_insert]
    by_cases hne : g = fn
    · subst hne
      simp [hget, hrow, Except.toOption]
    · rw [if_neg hne]
      cases hg : s.funcs.get? g with
      | none => rfl
      | some p => simp [Array.getElem?_push, Nat.ne_of_lt (hc.row_lt hg)]
  · rw [IdMap.get?_insert] at hp
    split at hp
    · cases hp
      exact .inr (Nat.le_refl _)
    · exact .inl hp

theorem declareRow_run {fn : SymbolId} {row : FuncRow} (hc : Catalogued s c) (hget : s.funcs.get? fn = none)
    (hrow : consult (initialRow fn) s.unit = .ok row) :
    ∃ i s', declareRow fn row s = .ok i s' ∧ (c.add (.func fn)).At (.func fn) i ∧ Catalogued s' (c.add (.func fn)) ∧
      s.Untouched s' := by
  have hmem : fn ∉ c.funcs := by
    intro hmem
    obtain ⟨k, hk⟩ := List.getElem?_of_mem hmem
    obtain ⟨hlt, -⟩ := List.getElem?_eq_some_iff.1 hk
    rw [← hc.rows] at hlt
    have := (hc.funcs fn k (s.asm.funcs[k]).entry).2 ⟨hk, by simp [hlt]⟩
    rw [hget] at this
    cases this
  have hnew : (c.add (.func fn)).funcs = c.funcs ++ [fn] := addNew_of_not_mem (by simpa using hmem)
  refine ⟨_, _, rfl, ?_, ?_, declareRow_untouched hc hget hrow rfl⟩
  · simp [Catalog.At, hnew, hc.rows]
  · refine
      { hc with
        work := by simp [hnew, hc.work]
        rows := by simp [hnew, hc.rows]
        funcs := fun g k e => ?_
        declared := fun g hg => ?_
        entries := fun k r hk => ?_
        apart := fun k k' r r' hk hk' he => ?_
        distinct := Catalog.distinct_add hc.distinct _ }
    · rw [hnew, IdMap.get?_insert, List.getElem?_append, Array.getElem?_push, ← hc.rows]
      by_cases hk : k < s.asm.funcs.size
      · rw [if_pos hk, if_neg (Nat.ne_of_lt hk)]
        by_cases hg : g = fn
        · subst hg
          have hg' : c.funcs[k]? ≠ some g := fun h => hmem (List.mem_of_getElem? h)
          simp [hg', Nat.ne_of_gt hk]
        · rw [if_neg hg]
          exact hc.funcs g k e
      · have hnone : s.funcs.get? g ≠ some (k, e) := fun h => hk (hc.row_lt h)
        rw [if_neg hk, List.getElem?_singleton]
        by_cases hg : g = fn
        · subst hg
          simp only [if_true, Option.some.injEq, Prod.mk.injEq]
          constructor
          · rintro ⟨rfl, rfl⟩
            simp
          · rintro ⟨hk', he⟩
            have hk' : k = s.asm.funcs.size := by
              simp at hk'
              omega
            simpa [hk'] using he
        · simp [hg, hnone, Ne.symm hg]
    · rw [hnew] at hg
      rcases List.mem_append.1 hg with hg | hg
      · exact hc.declared g hg
      · exact ⟨row, List.mem_singleton.1 hg ▸ hrow⟩
    · rw [Array.getElem?_push] at hk
      split at hk
      · cases hk
        simp
      · exact Nat.lt_of_lt_of_le (hc.entries k r hk) (by simp)
    · rw [Array.getElem?_push] at hk hk'
      split at hk <;> split at hk'
      · exact ‹k = _›.trans ‹k' = _›.symm
      · cases hk
        exact absurd he (Nat.ne_of_gt (hc.entries k' r' hk'))
      · cases hk'
        exact absurd he (Nat.ne_of_lt (hc.entries k r hk))
      · exact hc.apart k k' r r' hk hk' he

theorem answers_funcRef (fn : SymbolId) :
    Answers (funcRef fn) .func fun u => (consult (initialRow fn) u).map fun _ => .func fn := by
  refine .of_row (.initialRow fn) (fun _ => rfl) fun s c hc => ?_
  rw [funcRef_run]
  cases hget : s.funcs.get? fn with
  | some p =>
    have hp := ((hc.funcs fn p.1 p.2).1 hget).1
    obtain ⟨row, hrow⟩ := hc.declared fn (List.mem_of_getElem? hp)
    exact .inl ⟨p.1, row, rfl, hrow, by simpa [Catalog.At] using hp⟩
  | none => exact .inr ⟨declareRow fn, rfl, fun row hrow => declareRow_run hc hget hrow⟩

end Emit

end TreeCompiler
