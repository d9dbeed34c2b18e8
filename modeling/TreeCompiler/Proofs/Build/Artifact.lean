import Mathlib.Tactic.MkIffOfInductiveProp
import TreeCompiler.Build.Artifact
import TreeCompiler.Debug.Table
import TreeCompiler.Proofs.Code.Program
import TreeCompiler.Proofs.Tree.Unit

/-!
# Program files are read back

A program, a debug table whose positions and addresses have their width, and a program file that holds both are read back from
what is written of them.
-/

namespace TreeCompiler

open Wire

/-! ## Debug tables -/

@[mk_iff]
structure Pos.Fits (p : Pos) : Prop where
  file : TextFits p.file
  line : p.line < Nat.pow 2 32
  col : p.col < Nat.pow 2 32

instance Pos.decidableFits (p : Pos) : Decidable p.Fits := decidable_of_iff' _ p.fits_iff

theorem Pos.Fits.reads {p : Pos} (h : p.Fits) : Reads (Pos.over? {}) p.toWire p :=
  Fills.reads (.cons (reads_text h.file) (fun _ => rfl) <| .cons (reads_nat (by omega) h.line) (fun _ => rfl) <|
    .step (reads_nat (by omega) h.col) fun _ => rfl)

@[mk_iff]
structure DebugEntry.Fits (e : DebugEntry) : Prop where
  ip : IntFits e.ip
  span : e.span.Fits
  pos : e.pos.Fits

instance DebugEntry.decidableFits (e : DebugEntry) : Decidable e.Fits := decidable_of_iff' _ e.fits_iff

theorem DebugEntry.Fits.reads {e : DebugEntry} (h : e.Fits) : Reads (DebugEntry.over? {}) e.toWire e :=
  Fills.reads (.cons (reads_int h.ip) (fun _ => rfl) <| .cons h.span.reads (fun _ => rfl) <|
    .step h.pos.reads fun _ => rfl)

@[mk_iff]
structure FuncRange.Fits (f : FuncRange) : Prop where
  name : TextFits f.name
  start : IntFits f.start
  stop : IntFits f.stop
  pos : f.pos.Fits

instance FuncRange.decidableFits (f : FuncRange) : Decidable f.Fits := decidable_of_iff' _ f.fits_iff

theorem FuncRange.Fits.reads {f : FuncRange} (h : f.Fits) : Reads (FuncRange.over? {}) f.toWire f :=
  Fills.reads (.cons (reads_text h.name) (fun _ => rfl) <| .cons (reads_int h.start) (fun _ => rfl) <|
    .cons (reads_int h.stop) (fun _ => rfl) <| .step h.pos.reads fun _ => rfl)

namespace DebugTable

@[mk_iff]
structure Fits (t : DebugTable) : Prop where
  entriesLength : t.entries.size < Nat.pow 2 32
  entries : ∀ e ∈ t.entries, e.Fits
  funcsLength : t.funcs.size < Nat.pow 2 32
  funcs : ∀ f ∈ t.funcs, f.Fits

instance decidableFits (t : DebugTable) : Decidable t.Fits := decidable_of_iff' _ t.fits_iff

/-- The draft that reading the table gives. -/
def draft (t : DebugTable) : Draft where
  entries := { rows := t.entries.toList }
  funcs := { rows := t.funcs.toList }

theorem Fits.reads {t : DebugTable} (h : t.Fits) : Reads (Draft.over? {}) t.toWire t.draft := by
  have hentries := reads_slots h.entriesLength fun e he => (h.entries e (Array.mem_toList_iff.1 he)).reads
  have hfuncs := reads_slots h.funcsLength fun f hf => (h.funcs f (Array.mem_toList_iff.1 hf)).reads
  rw [List.map_id'] at hentries hfuncs
  exact Fills.reads (.cons hentries (fun _ => rfl) <| .step hfuncs fun _ => rfl)

/-- A debug table is read back. -/
theorem Fits.decode?_encode {t : DebugTable} (h : t.Fits) : decode? t.encode = some t := by
  obtain ⟨hfits, hread⟩ := h.reads
  have hdecode := Wire.decode?_encode hfits []
  rw [List.append_nil] at hdecode
  unfold decode? encode ofWire?
  rw [hdecode]
  show (Draft.over? {} t.toWire).map _ = _
  rw [hread]
  rfl

end DebugTable

/-! ## Program files -/

namespace Artifact

@[mk_iff]
structure Fits (a : Artifact) : Prop where
  program : a.program.Fits
  debug : ∀ t ∈ a.debug, t.Fits

instance decidableFits (a : Artifact) : Decidable a.Fits := decidable_of_iff' _ a.fits_iff

/-- The draft that reading the artifact gives. -/
def draft (a : Artifact) : Draft where
  program := some a.program.draft
  debug := a.debug.map DebugTable.draft

theorem Fits.reads {a : Artifact} (h : a.Fits) (hversion : a.program.version = programVersion)
    (hvalid : a.program.validate = .ok ()) : Reads Draft.ofWire? a.toWire a.draft := by
  have hprogram := reads_part (h.program.reads hversion hvalid Program.keptTables)
  obtain ⟨program, debug⟩ := a
  cases debug with
  | none => exact Fills.reads (.append (.step hprogram fun _ => rfl) .nil)
  | some t =>
    have hdebug := reads_part (h.debug t rfl).reads
    exact Fills.reads (.append (.step hprogram fun _ => rfl) (.step hdebug fun _ => rfl))

/-- A program file with a valid program of the current version is read back. -/
theorem Fits.decode_encode {a : Artifact} (h : a.Fits) (hversion : a.program.version = programVersion)
    (hvalid : a.program.validate = .ok ()) : decode a.encode = .ok a := by
  obtain ⟨hfits, hread⟩ := h.reads hversion hvalid
  have hdecode := Wire.decode?_encode hfits []
  rw [List.append_nil] at hdecode
  unfold decode encode
  rw [hdecode]
  dsimp only
  rw [hread]
  dsimp only [draft]
  rw [Program.draft_program, Program.checked_eq_ok hversion hvalid]
  obtain ⟨program, debug⟩ := a
  cases debug <;> rfl

end Artifact

/-- What is written of a program, of a debug table and of a program file is read back as it was. Every table of the program
but those in `kept` is written as nil when it is empty. -/
theorem codecs_round_trip :
    (∀ p : Program, p.Fits → p.version = programVersion → p.validate = .ok () →
      ∀ kept, Program.decode (p.encode kept) = .ok p) ∧
    (∀ t : DebugTable, t.Fits → DebugTable.decode? t.encode = some t) ∧
    ∀ a : Artifact, a.Fits → a.program.version = programVersion → a.program.validate = .ok () →
      Artifact.decode a.encode = .ok a :=
  ⟨fun _ h => h.decode_encode, fun _ h => h.decode?_encode, fun _ h => h.decode_encode⟩

/-- A program file with numbers at the ends of their widths, a negative zero and an empty table. -/
def boundaryFile : Artifact where
  program :=
    { code := #[{ op := .mov, a := .global 0, b := .int (-9223372036854775808) },
        { op := .mov, a := { kind := .value, val := 127 }, b := .real 0x8000000000000000 },
        { op := .call, a := .func 0, b := .int 128 }, { op := .halt },
        { op := .reserve, a := .int 65535 }, { op := .ret, a := .text 0 }]
      strings := #["é"]
      funcs := #[{ name := "f", entry := 4, params := 32, frame := 65535 }]
      natives := #[{ library := "m", symbol := "sin", handle := 18446744073709551615 }]
      globals := 1 }
  debug := some
    { entries := #[{ ip := 4, span := { file := 0, start := 255, stop := 4294967295 }, pos := { file := "a", line := 1 } }]
      funcs := #[{ name := "f", start := 4, stop := 6 }] }

theorem boundaryFile_round_trip :
    boundaryFile.Fits ∧ boundaryFile.program.validate = .ok () ∧
    Program.decode (boundaryFile.program.encode []) = .ok boundaryFile.program ∧
    (∀ t ∈ boundaryFile.debug, DebugTable.decode? t.encode = some t) ∧
    Artifact.decode boundaryFile.encode = .ok boundaryFile := by
  have hfits : boundaryFile.Fits := by decide +kernel
  have hvalid : boundaryFile.program.validate = .ok () := by decide +kernel
  obtain ⟨hprogram, htable, hartifact⟩ := codecs_round_trip
  exact ⟨hfits, hvalid, hprogram _ hfits.program rfl hvalid [], fun t ht => htable t (hfits.debug t ht),
    hartifact _ hfits rfl hvalid⟩

end TreeCompiler
