import Mathlib.Tactic.MkIffOfInductiveProp
import TreeCompiler.Proofs.Except
import TreeCompiler.Proofs.Text.Path
import TreeCompiler.Proofs.Wire.Record
import TreeCompiler.Tree.Builder
import TreeCompiler.Tree.Unit

/-!
# Units are read back

A tree that is valid is read back from its unit, up to what a unit does not keep: what the analysis added to the nodes,
whether a file was in memory, and the sign of a zero.

* `Node.stored`, `File.stored`, `Tree.stored` : what a unit keeps;
* `Tree.Fits` : the fields hold numbers of their width and texts of octets, and the files were made from paths;
* `Tree.Fits.decodeUnit_encodeUnit` : what reading a unit gives;
* `Tree.unit_round_trip` : without a negative zero nothing is lost.
-/

namespace TreeCompiler

open Wire

/-! ## Spans and nodes -/

@[mk_iff]
structure Span.Fits (s : Span) : Prop where
  file : s.file < Nat.pow 2 32
  start : s.start < Nat.pow 2 32
  stop : s.stop < Nat.pow 2 32

instance Span.decidableFits (s : Span) : Decidable s.Fits := decidable_of_iff' _ s.fits_iff

/-- A span is written as the list of its numbers. -/
theorem Span.Fits.reads {s : Span} (h : s.Fits) : Reads (Span.over? {}) s.toWire s :=
  Fills.reads_array (.cons (reads_nat (by omega) h.file) (fun _ => rfl) <|
    .cons (reads_nat (by omega) h.start) (fun _ => rfl) <| .step (reads_nat (by omega) h.stop) fun _ => rfl)

@[mk_iff]
structure NativeName.Fits (x : NativeName) : Prop where
  library : TextFits x.library
  symbol : TextFits x.symbol

instance NativeName.decidableFits (x : NativeName) : Decidable x.Fits := decidable_of_iff' _ x.fits_iff

theorem NativeName.Fits.reads {x : NativeName} (h : x.Fits) :
    Reads (NativeName.over? {}) (record [("lib", ofText x.library), ("sym", ofText x.symbol)]) x :=
  Fills.reads (.cons (reads_text h.library) (fun _ => rfl) <| .step (reads_text h.symbol) fun _ => rfl)

/-- A list of texts that can be written. -/
@[mk_iff]
structure TextsFit (ss : List String) : Prop where
  length : ss.length < Nat.pow 2 32
  texts : ∀ s ∈ ss, TextFits s

instance decidableTextsFit (ss : List String) : Decidable (TextsFit ss) := decidable_of_iff' _ (textsFit_iff ss)

/-- A list of node numbers that can be written. -/
@[mk_iff]
structure IdsFit (ids : List NodeId) : Prop where
  length : ids.length < Nat.pow 2 32
  ids : ∀ id ∈ ids, id < Nat.pow 2 32

instance decidableIdsFit (ids : List NodeId) : Decidable (IdsFit ids) := decidable_of_iff' _ (idsFit_iff ids)

@[mk_iff]
structure Node.Fits (n : Node) : Prop where
  kindNumber : n.kind.number < Nat.pow 2 8
  kind : .ofNumber n.kind.number = n.kind
  span : n.span.Fits
  flags : n.flags.bits < Nat.pow 2 16
  opNumber : n.op.number < Nat.pow 2 8
  op : .ofNumber n.op.number = n.op
  name : TextFits n.name
  path : TextsFit n.path
  label : TextFits n.label
  bind : TextFits n.bind
  int : IntFits n.int
  text : TextFits n.text
  params : TextsFit n.params
  typeArgs : IdsFit n.typeArgs
  a : n.a < Nat.pow 2 32
  b : n.b < Nat.pow 2 32
  c : n.c < Nat.pow 2 32
  d : n.d < Nat.pow 2 32
  list : IdsFit n.list
  native : ∀ x ∈ n.native, x.Fits

instance Node.decidableFits (n : Node) : Decidable n.Fits := decidable_of_iff' _ n.fits_iff

/-- The bits of a real without the sign of a zero. -/
def storedReal (bits : UInt64) : UInt64 := if isZeroReal bits then 0 else bits

/-- What a unit keeps of a node. -/
def Node.stored (n : Node) : Node := { n with real := storedReal n.real, valueType := 0, completed := false }

section

variable {n : Node}

/-- The node with the fields that come first. -/
def Node.withHead (n : Node) : Node := { kind := n.kind, span := n.span, flags := n.flags, op := n.op }

def Node.withNames (n : Node) : Node :=
  { n.withHead with name := n.name, path := n.path, label := n.label, bind := n.bind }

def Node.withValues (n : Node) : Node :=
  { n.withNames with int := n.int, real := storedReal n.real, text := n.text, params := n.params, typeArgs := n.typeArgs }

theorem Node.Fits.fillsHead (h : n.Fits) : Fills Node.setField 4
    (("k", ofNat n.kind.number) :: ("s", n.span.toWire) :: (unlessEmpty "f" (n.flags.bits = 0) (ofNat n.flags.bits) ++
      unlessEmpty "o" (n.op.number = 0) (ofNat n.op.number))) Node.blank n.withHead :=
  Fills.leads (.cons (reads_nat (by omega) h.kindNumber) (fun _ => rfl) <| .cons h.span.reads (fun _ => rfl) <|
    .append (.optional (fun _ => reads_nat (by omega) h.flags) of_decide_eq_true fun _ => rfl) <|
    .optional (fun _ => reads_nat (by omega) h.opNumber) of_decide_eq_true fun _ => rfl) (by rw [h.kind, h.op]; rfl)

theorem Node.Fits.fillsNames (h : n.Fits) : Fills Node.setField 4
    (unlessEmpty "n" (n.name = "") (ofText n.name) ++ (unlessEmpty "p" n.path.isEmpty (ofTexts n.path) ++
      (unlessEmpty "l" (n.label = "") (ofText n.label) ++ unlessEmpty "b" (n.bind = "") (ofText n.bind))))
    n.withHead n.withNames :=
  Fills.leads (.append (.optional (fun _ => reads_text h.name) of_decide_eq_true fun _ => rfl) <|
    .append (.optional (fun _ => reads_texts [] h.path.length h.path.texts) List.isEmpty_iff.1 fun _ => rfl) <|
    .append (.optional (fun _ => reads_text h.label) of_decide_eq_true fun _ => rfl) <|
    .optional (fun _ => reads_text h.bind) of_decide_eq_true fun _ => rfl)

theorem reads_storedReal (bits : UInt64) (h : isZeroReal bits = false) :
    Reads toReal? (Wire.real bits) (storedReal bits) := by
  unfold storedReal
  rw [h]
  exact reads_real bits

theorem Node.Fits.fillsValues (h : n.Fits) : Fills Node.setField 5
    (unlessEmpty "i" (n.int = 0) (Wire.int n.int) ++ (unlessEmpty "r" (isZeroReal n.real) (Wire.real n.real) ++
      (unlessEmpty "t" (n.text = "") (ofText n.text) ++ (unlessEmpty "tp" n.params.isEmpty (ofTexts n.params) ++
        unlessEmpty "ta" n.typeArgs.isEmpty (ofNats n.typeArgs)))))
    n.withNames n.withValues :=
  Fills.leads (.append (.optional (fun _ => reads_int h.int) of_decide_eq_true fun _ => rfl) <|
    .append (.optional (reads_storedReal n.real) (if_pos ·) fun _ => rfl) <|
    .append (.optional (fun _ => reads_text h.text) of_decide_eq_true fun _ => rfl) <|
    .append (.optional (fun _ => reads_texts [] h.params.length h.params.texts) List.isEmpty_iff.1 fun _ => rfl) <|
    .optional (fun _ => reads_nats h.typeArgs.length h.typeArgs.ids) List.isEmpty_iff.1 fun _ => rfl)

theorem Node.Fits.fillsChildren (h : n.Fits) : Fills Node.setField 5
    (unlessEmpty "a" (n.a = 0) (ofNat n.a) ++ (unlessEmpty "bb" (n.b = 0) (ofNat n.b) ++
      (unlessEmpty "c" (n.c = 0) (ofNat n.c) ++ (unlessEmpty "d" (n.d = 0) (ofNat n.d) ++
        unlessEmpty "ls" n.list.isEmpty (ofNats n.list)))))
    n.withValues { n.stored with native := none } :=
  Fills.leads (.append (.optional (fun _ => reads_nat (by omega) h.a) of_decide_eq_true fun _ => rfl) <|
    .append (.optional (fun _ => reads_nat (by omega) h.b) of_decide_eq_true fun _ => rfl) <|
    .append (.optional (fun _ => reads_nat (by omega) h.c) of_decide_eq_true fun _ => rfl) <|
    .append (.optional (fun _ => reads_nat (by omega) h.d) of_decide_eq_true fun _ => rfl) <|
    .optional (fun _ => reads_nats h.list.length h.list.ids) List.isEmpty_iff.1 fun _ => rfl)

theorem Node.Fits.fillsNative (h : n.Fits) : Fills Node.setField 1
    (match n.native with
      | some x => [("x", record [("lib", ofText x.library), ("sym", ofText x.symbol)])]
      | none => []) { n.stored with native := none } n.stored := by
  obtain ⟨native, hn⟩ : ∃ x, n.native = x := ⟨_, rfl⟩
  have hstored : n.stored = { n.stored with native } := by rw [← hn]; rfl
  rw [hstored, hn]
  cases native with
  | none => exact { Fills.nil with length := Nat.zero_le _ }
  | some x => exact Fills.leads (.step (reads_part (h.native x hn).reads) fun _ => rfl)

theorem Node.Fits.reads (h : n.Fits) : Reads (Node.over? Node.blank) n.toWire n.stored := by
  have hfills := h.fillsHead.append (h.fillsNames.append (h.fillsValues.append (h.fillsChildren.append h.fillsNative)))
  simp only [List.append_assoc, List.cons_append] at hfills
  unfold Node.toWire
  simp only [List.append_assoc, List.cons_append, List.nil_append]
  exact hfills.reads

end

/-! ## Files -/

/-- The content of a file, where an empty one is as good as none. -/
def File.storedContent (f : File) : Option Bytes := if (f.content.getD []).isEmpty then none else f.content

/-- What a unit keeps of a file. -/
def File.stored (f : File) : File := { f with content := f.storedContent, inMemory := false }

structure File.Fits (f : File) : Prop where
  made : ∃ path content inMemory, f = .ofContent path content inMemory
  path : TextFits f.path
  content : (f.content.getD []).length < Nat.pow 2 32

theorem File.storedContent_getD (f : File) : f.storedContent.getD [] = f.content.getD [] := by
  unfold storedContent
  split
  · rename_i hempty
    rw [List.isEmpty_iff.1 hempty]
    rfl
  · rfl

theorem File.Fits.reads {f : File} (h : f.Fits) : Reads (RawFile.over? ("", none)) f.toWire (f.path, f.storedContent) := by
  have hcontent (hne : (f.content.getD []).isEmpty = false) :
      Reads toBytes? (.blob (f.content.getD [])) f.storedContent := by
    have hread := reads_blob h.content
    unfold storedContent
    rw [hne]
    cases hc : f.content with
    | none =>
      rw [hc] at hne
      cases hne
    | some bs =>
      rw [hc] at hread
      exact hread
  exact Fills.reads (.append (.step (reads_text h.path) fun _ => rfl) (.optional hcontent (if_pos ·) fun _ => rfl))

/-- A file is made again from what is read of it. -/
theorem File.Fits.ofContent {f : File} (h : f.Fits) : File.ofContent f.path f.storedContent false = f.stored := by
  obtain ⟨path, content, inMemory, hf⟩ := h.made
  unfold File.ofContent File.stored
  rw [f.storedContent_getD]
  have hpath : Path.clean f.path = f.path := by
    rw [hf]
    exact Path.clean_clean path
  have hbreaks : f.breaks = lineBreaks 0 (f.content.getD []) := by
    rw [hf]
    rfl
  rw [hpath, hbreaks]

/-- Files that were added to a table fit when their paths and contents do. -/
theorem FileTable.fits_add {fs : FileTable} {path : String} {content : Option Bytes} {inMemory : Bool}
    (h : ∀ f ∈ fs.files, f.Fits) (hpath : TextFits (Path.clean path)) (hcontent : (content.getD []).length < Nat.pow 2 32) :
    ∀ f ∈ (fs.add path content inMemory).files, f.Fits := by
  intro f hf
  rcases Array.mem_push.1 hf with hf | rfl
  · exact h f hf
  · exact ⟨⟨path, content, inMemory, rfl⟩, hpath, hcontent⟩

/-! ## Trees -/

namespace Tree

structure Fits (t : Tree) : Prop where
  filesLength : t.files.files.size < Nat.pow 2 32
  files : ∀ f ∈ t.files.files, f.Fits
  nodesLength : t.nodes.size < Nat.pow 2 32
  nodes : ∀ n ∈ t.nodes, n.Fits
  roots : IdsFit t.roots

/-- What a unit keeps of a tree. -/
def stored (t : Tree) : Tree where
  files := { files := t.files.files.map File.stored }
  nodes := t.nodes.map Node.stored
  roots := t.roots

theorem kind_stored (t : Tree) (id : NodeId) : t.stored.kind id = t.kind id := by
  unfold kind get?
  split
  · rfl
  · show (((t.nodes.map Node.stored)[id - 1]?.map _).getD _) = _
    rw [Array.getElem?_map, Option.map_map]
    rfl

theorem validateNode_stored (t : Tree) (id : NodeId) (n : Node) :
    t.stored.validateNode id n.stored = t.validateNode id n := by
  have hsize : t.stored.size = t.size := Array.size_map
  have hfiles : t.stored.files.size = t.files.size := Array.size_map
  unfold validateNode
  rw [hsize, hfiles]
  rfl

/-- What a unit keeps is valid when the tree is. -/
theorem validate_stored (t : Tree) : t.stored.validate = t.validate := by
  have hroots : t.stored.validateRoot = t.validateRoot := by
    funext r
    unfold validateRoot
    rw [kind_stored]
  unfold validate
  rw [hroots]
  show (do t.roots.forM t.validateRoot; (t.nodes.map Node.stored).toList.zipIdx.forM _) = _
  rw [Array.toList_map, List.zipIdx_map, List.forM_eq_forM, List.forM_eq_forM, List.forM_map]
  exact congrArg _ (funext fun _ => congrArg _ (funext fun p => validateNode_stored t _ p.1))

/-- The unit as it is read back. -/
def storedRaw (t : Tree) : RawUnit where
  version := unitVersion
  files := { rows := t.files.files.toList.map fun f => (f.path, f.storedContent) }
  nodes := { rows := t.nodes.toList.map Node.stored }
  roots := t.roots

theorem foldl_add (rows : List RawFile) (fs : FileTable) : rows.foldl (fun fs (path, content) => fs.add path content false) fs =
    { files := fs.files ++ (rows.map fun f => File.ofContent f.1 f.2 false).toArray } := by
  induction rows generalizing fs with
  | nil => simp
  | cons f rows ih =>
    rw [List.foldl_cons, ih]
    simp [FileTable.add]

variable {t : Tree}

theorem Fits.ofRaw (h : t.Fits) : Tree.ofRaw t.storedRaw = t.stored := by
  have hfiles : (t.files.files.toList.map fun f => (f.path, f.storedContent)).map (fun f => File.ofContent f.1 f.2 false) =
      t.files.files.toList.map File.stored := by
    rw [List.map_map]
    exact List.map_congr_left fun f hf => (h.files f (Array.mem_toList_iff.1 hf)).ofContent
  unfold Tree.ofRaw storedRaw stored
  dsimp only
  rw [foldl_add, hfiles, ← Array.toList_map, ← Array.toList_map, Array.toArray_toList, Array.toArray_toList,
    Array.empty_append]

theorem Fits.reads (h : t.Fits) : Reads RawUnit.ofWire? (record
    [("version", ofNat unitVersion), ("files", orNil array (t.files.files.toList.map File.toWire)),
      ("nodes", array (t.nodes.toList.map Node.toWire)), ("roots", orNil ofNats t.roots)]) t.storedRaw := by
  have hversion : Reads (toSigned? 64) (ofNat unitVersion) unitVersion := reads_int (by decide)
  have hfiles := reads_slots_orNil h.filesLength fun f hf => (h.files f (Array.mem_toList_iff.1 hf)).reads
  have hnodes := reads_slots h.nodesLength fun n hn => (h.nodes n (Array.mem_toList_iff.1 hn)).reads
  have hroots := reads_nats_orNil h.roots.length h.roots.ids
  exact Fills.reads (.cons hversion (fun _ => rfl) <| .cons hfiles (fun _ => rfl) <| .cons hnodes (fun _ => rfl) <|
    .step hroots fun _ => rfl)

/-- A valid tree is read back as what a unit keeps of it. -/
theorem Fits.decodeUnit_encodeUnit (h : t.Fits) (hvalid : t.validate = .ok ()) : decodeUnit t.encodeUnit = .ok t.stored := by
  obtain ⟨hfits, hread⟩ := h.reads
  have hdecode := decode?_encode hfits []
  rw [List.append_nil] at hdecode
  unfold decodeUnit encodeUnit
  rw [hdecode]
  dsimp only
  rw [hread]
  dsimp only
  rw [if_neg (fun hne => hne rfl), h.ofRaw, validate_stored, hvalid]
  rfl

end Tree

/-- A node without what the analysis added to it. -/
def Node.reset (n : Node) : Node := { n with valueType := 0, completed := false }

/-- The bits of the real that is zero and negative. -/
def negativeZero : UInt64 := 0x8000000000000000

theorem Node.stored_eq_reset {n : Node} (h : n.real ≠ negativeZero) : n.stored = n.reset := by
  have hreal : storedReal n.real = n.real := by
    unfold storedReal
    split
    · rename_i hzero
      unfold isZeroReal at hzero
      rw [Bool.or_eq_true, decide_eq_true_eq, decide_eq_true_eq] at hzero
      exact (hzero.resolve_right h).symm
    · rfl
  unfold stored reset
  rw [hreal]

/-- A valid tree without a negative zero is read back from its unit with the same roots, files and nodes. -/
theorem Tree.unit_round_trip {t : Tree} (hfits : t.Fits) (hvalid : t.validate = .ok ())
    (hreal : ∀ n ∈ t.nodes, n.real ≠ negativeZero) :
    ∃ t', decodeUnit t.encodeUnit = .ok t' ∧ t'.roots = t.roots ∧
      t'.files.files.map (fun f => (f.path, f.content.getD [])) = t.files.files.map (fun f => (f.path, f.content.getD [])) ∧
      t'.nodes = t.nodes.map Node.reset := by
  refine ⟨t.stored, hfits.decodeUnit_encodeUnit hvalid, rfl, ?_, ?_⟩
  · show (t.files.files.map File.stored).map _ = _
    rw [Array.map_map]
    refine Array.map_congr_left fun f _ => ?_
    exact congrArg (f.path, ·) f.storedContent_getD
  · exact Array.map_congr_left fun n hn => Node.stored_eq_reset (hreal n hn)

/-- Two files and nodes with many fields, one of them a real that is no number. -/
def twoFiles : Tree where
  files := (({} : FileTable).add "a.loom" (some [108, 10]) true).add "b.loom" none false
  nodes := #[
    .realLit 0xFFF8000000000001, { Node.cast 1 0 with span := { file := 1, start := 65535, stop := 4294967295 } },
    .intLit (-129), { Node.call 2 [3] with typeArgs := [1], label := "é" },
    { Node.nativeFunc { library := "m", symbol := "sin" } "f" [] 0 with params := ["T"], flags := ⟨1023⟩, completed := true },
    { kind := .file, list := [4, 5] }]
  roots := [6]

theorem twoFiles_round_trip :
    twoFiles.Fits ∧ twoFiles.validate = .ok () ∧ (∀ n ∈ twoFiles.nodes, n.real ≠ negativeZero) ∧
    ∃ t', Tree.decodeUnit twoFiles.encodeUnit = .ok t' ∧ t'.roots = [6] ∧ t'.nodes = twoFiles.nodes.map Node.reset := by
  have hfits : twoFiles.Fits :=
    { filesLength := by decide
      files := by
        refine FileTable.fits_add (FileTable.fits_add (fun f hf => absurd hf (Array.not_mem_empty f)) ?_ (by decide)) ?_ (by decide)
        · rw [Path.clean_name (by decide) (by decide)]
          decide
        · rw [Path.clean_name (by decide) (by decide)]
          decide
      nodesLength := by decide
      nodes := by decide +kernel
      roots := by decide }
  have hvalid : twoFiles.validate = .ok () := by decide +kernel
  have hreal : ∀ n ∈ twoFiles.nodes, n.real ≠ negativeZero := by decide
  obtain ⟨t', hdecode, hroots, -, hnodes⟩ := Tree.unit_round_trip hfits hvalid hreal
  exact ⟨hfits, hvalid, hreal, t', hdecode, hroots, hnodes⟩

/-- A variable with a negative zero. -/
def zeroLet : Tree where
  nodes := #[.realLit negativeZero, .letDecl "x" 0 1, { kind := .file, list := [2] }]
  roots := [3]

/-- The sign of a zero is left out of the unit. -/
theorem negative_zero_is_lost :
    zeroLet.validate = .ok () ∧ zeroLet.nodes.toList.map (·.real) = [negativeZero, 0, 0] ∧
    (Tree.decodeUnit zeroLet.encodeUnit).toOption.map (fun t => t.nodes.toList.map (·.real)) = some [0, 0, 0] := by
  decide +kernel

end TreeCompiler
