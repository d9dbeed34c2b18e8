import Mathlib.Tactic.MkIffOfInductiveProp
import TreeCompiler.Code.Program
import TreeCompiler.Proofs.Except
import TreeCompiler.Proofs.Wire.Record

/-!
# Programs are read back

Each row of a program is read back from its wire form, and so is the program. `Fits` says for each kind of row that its
fields hold numbers of their width and texts of octets, which the types of the fields are too wide to say.
-/

namespace TreeCompiler

open Wire

/-! ## Rows -/

@[mk_iff]
structure Operand.Fits (o : Operand) : Prop where
  number : o.kind.number < Nat.pow 2 8
  kind : .ofNumber o.kind.number = o.kind
  val : IntFits o.val

instance Operand.decidableFits (o : Operand) : Decidable o.Fits := decidable_of_iff' _ o.fits_iff

theorem Operand.Fits.reads {o : Operand} (h : o.Fits) : Reads (Operand.over? {}) o.toWire o :=
  Fills.reads (.append (.step (reads_nat (by omega) h.number) fun _ => rfl)
    (.optional (fun _ => reads_int h.val) of_decide_eq_true fun _ => rfl)) (by rw [h.kind])

@[mk_iff]
structure Instr.Fits (i : Instr) : Prop where
  number : i.op.number < Nat.pow 2 8
  op : .ofNumber i.op.number = i.op
  a : i.a.Fits
  b : i.b.Fits
  c : i.c.Fits

instance Instr.decidableFits (i : Instr) : Decidable i.Fits := decidable_of_iff' _ i.fits_iff

theorem Instr.Fits.reads {i : Instr} (h : i.Fits) : Reads (Instr.over? { op := .nop }) i.toWire i :=
  Fills.reads (.cons (reads_nat (by omega) h.number) (fun _ => rfl) <| .cons h.a.reads (fun _ => rfl) <|
    .cons h.b.reads (fun _ => rfl) <| .step h.c.reads fun _ => rfl) (by rw [h.op])

@[mk_iff]
structure FuncRow.Fits (f : FuncRow) : Prop where
  name : TextFits f.name
  entry : IntFits f.entry
  params : IntFits f.params
  captures : IntFits f.captures
  frame : IntFits f.frame

instance FuncRow.decidableFits (f : FuncRow) : Decidable f.Fits := decidable_of_iff' _ f.fits_iff

theorem FuncRow.Fits.reads {f : FuncRow} (h : f.Fits) : Reads (FuncRow.over? {}) f.toWire f :=
  Fills.reads (.cons (reads_text h.name) (fun _ => rfl) <| .cons (reads_int h.entry) (fun _ => rfl) <|
    .cons (reads_int h.params) (fun _ => rfl) <| .cons (reads_int h.captures) (fun _ => rfl) <|
    .step (reads_int h.frame) fun _ => rfl)

@[mk_iff]
structure NativeRow.Fits (n : NativeRow) : Prop where
  library : TextFits n.library
  symbol : TextFits n.symbol
  handle : n.handle < Nat.pow 2 64

instance NativeRow.decidableFits (n : NativeRow) : Decidable n.Fits := decidable_of_iff' _ n.fits_iff

theorem NativeRow.Fits.reads {n : NativeRow} (h : n.Fits) : Reads (NativeRow.over? {}) n.toWire n :=
  Fills.reads (.cons (reads_text h.library) (fun _ => rfl) <| .cons (reads_text h.symbol) (fun _ => rfl) <|
    .step (reads_nat (Nat.le_refl _) h.handle) fun _ => rfl)

@[mk_iff]
structure TypeRow.Fits (t : TypeRow) : Prop where
  name : TextFits t.name
  kind : TextFits t.kind
  length : t.fields.length < Nat.pow 2 32
  fields : ∀ s ∈ t.fields, TextFits s

instance TypeRow.decidableFits (t : TypeRow) : Decidable t.Fits := decidable_of_iff' _ t.fits_iff

theorem TypeRow.Fits.reads {t : TypeRow} (h : t.Fits) : Reads (TypeRow.over? {}) t.toWire t :=
  Fills.reads (.append (.cons (reads_text h.name) (fun _ => rfl) <| .step (reads_text h.kind) fun _ => rfl)
    (.optional (fun _ => reads_texts [] h.length h.fields) List.isEmpty_iff.1 fun _ => rfl))

/-! ## Programs -/

namespace Program

/-- The numbers of the program have their width, and its tables have fewer rows than a length can tell. -/
@[mk_iff]
structure Fits (p : Program) : Prop where
  codeLength : p.code.size < Nat.pow 2 32
  code : ∀ i ∈ p.code, i.Fits
  stringsLength : p.strings.size < Nat.pow 2 32
  strings : ∀ s ∈ p.strings, TextFits s
  funcsLength : p.funcs.size < Nat.pow 2 32
  funcs : ∀ f ∈ p.funcs, f.Fits
  nativesLength : p.natives.size < Nat.pow 2 32
  natives : ∀ n ∈ p.natives, n.Fits
  typesLength : p.types.size < Nat.pow 2 32
  types : ∀ t ∈ p.types, t.Fits
  globals : p.globals < Nat.pow 2 32

instance decidableFits (p : Program) : Decidable p.Fits := decidable_of_iff' _ p.fits_iff

/-- The draft that reading the program gives. -/
def draft (p : Program) : Draft where
  version := p.version
  code := { rows := p.code.toList }
  strings := p.strings.toList
  funcs := { rows := p.funcs.toList }
  natives := { rows := p.natives.toList }
  types := { rows := p.types.toList }
  globals := p.globals
  entry := p.entry

theorem draft_program (p : Program) : p.draft.program = p := rfl

theorem entry_le {p : Program} (h : p.validate = .ok ()) : 0 ≤ p.entry ∧ p.entry ≤ p.code.size := by
  unfold validate at h
  obtain ⟨-, -, hentry⟩ := Except.bind_ok h
  split at hentry
  · cases hentry
  · rename_i hrange
    simp only [Bool.or_eq_true, decide_eq_true_eq, not_or, Int.not_lt] at hrange
    exact hrange

theorem Fits.reads {p : Program} (h : p.Fits) (hversion : p.version = programVersion) (hvalid : p.validate = .ok ())
    (kept : List String) : Reads (Draft.over? {}) (p.toWire kept) p.draft := by
  have hentry : IntFits p.entry := by
    obtain ⟨hlow, hhigh⟩ := entry_le hvalid
    have hlen : (p.code.size : Int) < Nat.pow 2 32 := Int.ofNat_lt.2 h.codeLength
    exact ⟨Int.le_trans (by decide) hlow, Int.lt_of_le_of_lt hhigh (Int.lt_trans hlen (by decide))⟩
  have hcode (asNil : Bool) := reads_table asNil h.codeLength fun i hi => (h.code i (Array.mem_toList_iff.1 hi)).reads
  have hstrings (asNil : Bool) := reads_textTable asNil h.stringsLength fun s hs => h.strings s (Array.mem_toList_iff.1 hs)
  have hfuncs (asNil : Bool) := reads_table asNil h.funcsLength fun f hf => (h.funcs f (Array.mem_toList_iff.1 hf)).reads
  have hnatives (asNil : Bool) :=
    reads_table asNil h.nativesLength fun n hn => (h.natives n (Array.mem_toList_iff.1 hn)).reads
  have htypes (asNil : Bool) := reads_table asNil h.typesLength fun t ht => (h.types t (Array.mem_toList_iff.1 ht)).reads
  exact Fills.reads (.cons (reads_int (hversion ▸ by decide)) (fun _ => rfl) <| .cons (hcode _) (fun _ => rfl) <|
    .cons (hstrings _) (fun _ => rfl) <| .cons (hfuncs _) (fun _ => rfl) <| .cons (hnatives _) (fun _ => rfl) <|
    .cons (htypes _) (fun _ => rfl) <| .cons (reads_nat (by omega) h.globals) (fun _ => rfl) <|
    .step (reads_int hentry) fun _ => rfl)

theorem checked_eq_ok {p : Program} (hversion : p.version = programVersion) (hvalid : p.validate = .ok ()) :
    p.checked = .ok p := by
  unfold checked
  rw [if_neg (not_not_intro hversion), hvalid]
  rfl

/-- A program of the current version that is valid is read back, whichever of its empty tables are kept as lists. -/
theorem Fits.decode_encode {p : Program} (h : p.Fits) (hversion : p.version = programVersion) (hvalid : p.validate = .ok ())
    (kept : List String) : decode (p.encode kept) = .ok p := by
  obtain ⟨hfits, hread⟩ := h.reads hversion hvalid kept
  have hdecode := decode?_encode hfits []
  rw [List.append_nil] at hdecode
  unfold decode encode ofWire?
  rw [hdecode]
  dsimp only
  rw [hread]
  exact checked_eq_ok hversion hvalid

end Program

end TreeCompiler
