import Mathlib.Algebra.Ring.Nat
import TreeCompiler.Diagnostic.Pretty
import TreeCompiler.Proofs.Source.Position
import TreeCompiler.Proofs.Text.Chars

/-!
# Where a span is underlined

Tabs are expanded in the whole line for the quoted line, and in the part before the span and in the span by themselves for
the underline. An expansion depends on the cell it starts from only through what is left to the next tab stop.

* `Measure.Additive` : a text takes the cells of its characters;
* `Measure.expandTabsFrom_append` : the expansion of a line is that of its parts, each from the cell where it starts;
* `Measure.total_expandTabsFrom_eq_iff` : from which cells on a text takes the same number of cells;
* `Covers` : a span that stands in a line; `underline_eq` : the underline of such a span;
* `FileTable.snippet_underlines` : it starts below the span, and is as long as the span when no tab is in the span or the
  span starts at a tab stop;
* `FileTable.tab_overmarked` : the underline of a tab that is longer than the tab.
-/

namespace TreeCompiler

open Utf8 (runes Boundary)

/-! ## Tabs -/

namespace Measure

variable {m : Measure} {col : Nat} {cs : List Char}

/-- The cells of characters shown one after the other. -/
def total (m : Measure) (cs : List Char) : Nat := (cs.map m.cells).sum

/-- A text takes the cells of its characters, and a blank takes one. -/
structure Additive (m : Measure) : Prop where
  width : ∀ bs, m.width bs = m.total (runes bs)
  blank : m.cells ' ' = 1

/-- The measure that adds up the cells of characters. -/
def adding (cells : Char → Nat) : Measure := { cells, width := fun bs => ((runes bs).map cells).sum }

theorem additive_adding {cells : Char → Nat} (h : cells ' ' = 1) : (adding cells).Additive := ⟨fun _ => rfl, h⟩

theorem total_append (xs ys : List Char) : m.total (xs ++ ys) = m.total xs + m.total ys := by simp [total]

theorem total_cons (c : Char) (cs : List Char) : m.total (c :: cs) = m.cells c + m.total cs := by simp [total]

theorem total_replicate (hm : m.Additive) (n : Nat) : m.total (List.replicate n ' ') = n := by
  simp [total, hm.blank]

theorem expandTabsFrom_tab (m : Measure) (col : Nat) (cs : List Char) : m.expandTabsFrom col ('\t' :: cs) =
    List.replicate (tabStop - col % tabStop) ' ' ++ m.expandTabsFrom (col + (tabStop - col % tabStop)) cs := by
  simp [expandTabsFrom]

theorem expandTabsFrom_cons {c : Char} (hc : c ≠ '\t') :
    m.expandTabsFrom col (c :: cs) = c :: m.expandTabsFrom (col + m.cells c) cs := by
  simp [expandTabsFrom, hc]

theorem expandTabsFrom_of_notMem (h : '\t' ∉ cs) : m.expandTabsFrom col cs = cs := by
  induction cs generalizing col with
  | nil => rfl
  | cons c cs ih =>
    rw [List.mem_cons, not_or] at h
    rw [expandTabsFrom_cons (Ne.symm h.1), ih h.2]

/-- The second part is expanded from the cell behind the first. -/
theorem expandTabsFrom_append (hm : m.Additive) (xs ys : List Char) : m.expandTabsFrom col (xs ++ ys) =
    m.expandTabsFrom col xs ++ m.expandTabsFrom (col + m.total (m.expandTabsFrom col xs)) ys := by
  induction xs generalizing col with
  | nil => rfl
  | cons c xs ih =>
    rw [List.cons_append]
    by_cases hc : c = '\t'
    · subst hc
      rw [expandTabsFrom_tab, expandTabsFrom_tab, ih, total_append, total_replicate hm, List.append_assoc, Nat.add_assoc]
    · rw [expandTabsFrom_cons hc, expandTabsFrom_cons hc, ih, total_cons, List.cons_append, Nat.add_assoc]

/-- Behind a tab the text goes on at a tab stop, from wherever the tab was reached. -/
theorem mod_after_tab (col : Nat) : (col + (tabStop - col % tabStop)) % tabStop = 0 := by
  unfold tabStop
  omega

/-- A text takes the same cells from two places exactly when it has no tab or the places are equally far from a tab stop. -/
theorem total_expandTabsFrom_eq_iff (hm : m.Additive) {col col' : Nat} :
    m.total (m.expandTabsFrom col cs) = m.total (m.expandTabsFrom col' cs) ↔
      '\t' ∉ cs ∨ col % tabStop = col' % tabStop := by
  induction cs generalizing col col' with
  | nil => simp [expandTabsFrom]
  | cons c cs ih =>
    by_cases hc : c = '\t'
    · subst hc
      have hrest : m.total (m.expandTabsFrom (col + (tabStop - col % tabStop)) cs) =
          m.total (m.expandTabsFrom (col' + (tabStop - col' % tabStop)) cs) :=
        ih.2 (.inr (by rw [mod_after_tab, mod_after_tab]))
      rw [expandTabsFrom_tab, expandTabsFrom_tab, total_append, total_append, total_replicate hm, total_replicate hm, hrest]
      simp only [List.mem_cons, true_or, not_true_eq_false, false_or]
      unfold tabStop
      omega
    · rw [expandTabsFrom_cons hc, expandTabsFrom_cons hc, total_cons, total_cons, Nat.add_left_cancel_iff, ih, List.mem_cons,
        not_or]
      have hshift : (col + m.cells c) % tabStop = (col' + m.cells c) % tabStop ↔ col % tabStop = col' % tabStop := by
        unfold tabStop
        omega
      rw [hshift]
      exact or_congr_left (iff_and_self.2 fun _ => Ne.symm hc)

theorem total_expandTabsFrom_pos (hm : m.Additive) (h : '\t' ∈ cs) : 0 < m.total (m.expandTabsFrom col cs) := by
  induction cs generalizing col with
  | nil => exact absurd h List.not_mem_nil
  | cons c cs ih =>
    by_cases hc : c = '\t'
    · have hrest : col % tabStop < tabStop := Nat.mod_lt _ (by decide)
      subst hc
      rw [expandTabsFrom_tab, total_append, total_replicate hm]
      omega
    · rw [expandTabsFrom_cons hc, total_cons]
      exact Nat.add_pos_right _ (ih ((List.mem_cons.1 h).resolve_left (Ne.symm hc)))

/-- With at least one cell counted, the same holds: a tab takes one. -/
theorem max_total_eq_iff (hm : m.Additive) {col col' : Nat} :
    max 1 (m.total (m.expandTabsFrom col cs)) = max 1 (m.total (m.expandTabsFrom col' cs)) ↔
      '\t' ∉ cs ∨ col % tabStop = col' % tabStop := by
  rw [← total_expandTabsFrom_eq_iff hm]
  by_cases h : '\t' ∈ cs
  · rw [Nat.max_eq_right (total_expandTabsFrom_pos hm h), Nat.max_eq_right (total_expandTabsFrom_pos hm h)]
  · have hcells : m.total (m.expandTabsFrom col cs) = m.total (m.expandTabsFrom col' cs) :=
      (total_expandTabsFrom_eq_iff hm).2 (.inl h)
    exact iff_of_true (congrArg (max 1) hcells) hcells

theorem runes_expandTabs (m : Measure) (bs : Bytes) : runes (m.expandTabs bs) = m.expandTabsFrom 0 (runes bs) := by
  unfold expandTabs
  split
  · rw [Utf8.runes_encode]
    rfl
  · rename_i h
    rw [expandTabsFrom_of_notMem (Utf8.notMem_runes (by simpa using h))]

theorem shownWidth_eq (hm : m.Additive) (bs : Bytes) : m.shownWidth bs = m.total (m.expandTabsFrom 0 (runes bs)) := by
  rw [shownWidth, hm.width, runes_expandTabs]

end Measure

/-! ## Spans within a line -/

/-- The span stands in line `n` of the file, on the octets `b` between `a` and `c`. -/
structure Covers (f : File) (s : Span) (n : Nat) (a b c : Bytes) : Prop where
  line_pos : 1 ≤ n
  line_le : n ≤ f.breaks.length + 1
  line_eq : f.line n = a ++ (b ++ c)
  start_eq : s.start = (f.before n).length + a.length
  stop_eq : s.stop = s.start + b.length
  fits : s.stop + 1 < 2 ^ 32
  atStart : Boundary a (b ++ c)
  atStop : Boundary b c

namespace Covers

variable {f : File} {s : Span} {n : Nat} {a b c : Bytes}

theorem runes_line (h : Covers f s n a b c) : runes (f.line n) = runes a ++ (runes b ++ runes c) := by
  rw [h.line_eq, h.atStart.runes_append, h.atStop.runes_append]

theorem lineCol_eq (hf : f.Indexed) (h : Covers f s n a b c) :
    lineCol f.breaks s.start = { line := n, col := a.length + 1 } ∧
    lineCol f.breaks s.stop = { line := n, col := a.length + b.length + 1 } := by
  obtain ⟨k, rfl⟩ : ∃ k, n = k + 1 := ⟨n - 1, by have := h.line_pos; omega⟩
  have hk : k ≤ f.breaks.length := Nat.le_of_succ_le_succ h.line_le
  have hlength : (f.line (k + 1)).length = a.length + (b.length + c.length) := by
    rw [h.line_eq, List.length_append, List.length_append]
  have hfits := h.fits
  rw [h.stop_eq, h.start_eq, File.length_before hf hk] at hfits ⊢
  rw [Nat.add_assoc]
  exact ⟨File.lineCol_of_line hf hk (by omega) (by omega), File.lineCol_of_line hf hk (by omega) (by omega)⟩

end Covers

/-! ## The underline -/

/-- A row of a snippet: its head, as wide as the numbers of the lines, a bar, and a text. -/
def snippetRow (o : PrettyOptions) (head text : String) : String :=
  " " ++ head ++ " " ++ Style.blue.paint o.color "|" ++ " " ++ text ++ "\n"

/-- A caret and the tildes behind it, `cells` long, `lead` cells into the line. -/
def marking (o : PrettyOptions) (lead cells : Nat) : String :=
  blanks lead ++ Style.boldRed.paint o.color ("^" ++ String.ofList (List.replicate (cells - 1) '~'))

section Marked

variable {f : File} {o : PrettyOptions} {s : Span} {n digits : Nat} {a b c : Bytes}

theorem quotedLine_eq (hwidth : o.width = 0) : quotedLine f o digits n =
    snippetRow o (Style.blue.paint o.color (padLeft digits (toString n)))
      (Utf8.decode (o.measure.expandTabs (f.line n))) := by
  simp [quotedLine, snippetRow, hwidth]

/-- The underline is measured by the expansion of the part before the span and by that of the span alone. -/
theorem underline_eq (hwidth : o.width = 0) (hline : f.line n = a ++ (b ++ c)) :
    underline f o digits { line := n, col := a.length + 1 } { line := n, col := a.length + b.length + 1 } =
      snippetRow o (blanks digits) (marking o (o.measure.shownWidth a) (max 1 (o.measure.shownWidth b))) := by
  have hstart : columnIndex (a ++ (b ++ c)) (a.length + 1) = a.length := by simp [columnIndex]
  have hstop : columnIndex (a ++ (b ++ c)) (a.length + b.length + 1) = a.length + b.length := by
    simp only [columnIndex, List.length_append]
    omega
  have hspan : ((a ++ (b ++ c)).take (max a.length (a.length + b.length))).drop a.length = b := by
    rw [Nat.max_eq_right (Nat.le_add_right _ _), List.take_length_add_append, List.drop_left, List.take_left]
  simp only [underline, hline, hstart, hstop, hspan, hwidth, if_true, List.take_left, lt_irrefl, decide_false,
    Bool.false_and, Bool.false_eq_true, if_false, snippetRow, marking, String.append_assoc]

/-- The last quoted line is the one the span starts on, and the underline stands below it. -/
theorem FileTable.snippet_eq {t : FileTable} {start stop : LineCol} (hcontext : 0 ≤ o.context)
    (hfile : t.get? s.file = some f) (hcontent : f.content.isSome) (hstart : lineCol f.breaks s.start = start)
    (hstop : lineCol f.breaks s.stop = stop) (hpos : 1 ≤ start.line) : ∃ above, t.snippet o s =
      above ++ (quotedLine f o (toString start.line).length start.line ++
        underline f o (toString start.line).length start stop) := by
  have hnone : ¬f.content.isNone := fun h => Option.isSome_iff_ne_none.1 hcontent (Option.isNone_iff_eq_none.1 h)
  have hresolve : t.resolve s = (start, stop) := by
    rw [FileTable.resolve, hfile]
    simp only [hnone, Bool.false_eq_true, if_false, hstart, hstop]
  obtain ⟨m, hm⟩ : ∃ m, start.line = (max 1 ((start.line : Int) - o.context)).toNat + m :=
    ⟨start.line - (max 1 ((start.line : Int) - o.context)).toNat, by omega⟩
  have hcount : start.line + 1 - (max 1 ((start.line : Int) - o.context)).toNat = m + 1 := by omega
  rw [FileTable.snippet, hfile]
  simp only [hnone, Bool.false_eq_true, if_false, hresolve, hcount, List.range_succ, List.map_append, List.map_cons,
    List.map_nil, ← hm, String.join_append, String.join_cons, String.join_nil, String.append_empty]
  exact ⟨_, String.append_assoc ..⟩

end Marked

/-- The underline starts in the cell where the span starts in the expanded line. It is as long as the span alone would be
shown, which is as long as it is shown in the line exactly when no tab is in it or it starts at a tab stop. -/
theorem FileTable.snippet_underlines {t : FileTable} {o : PrettyOptions} {s : Span} {path : String} {content : Bytes}
    {inMemory : Bool} {n : Nat} {a b c : Bytes} (hm : o.measure.Additive) (hwidth : o.width = 0) (hcontext : 0 ≤ o.context)
    (hfile : t.get? s.file = some (File.ofContent path (some content) inMemory))
    (hs : Covers (File.ofContent path (some content) inMemory) s n a b c) :
    let shown := o.measure.expandTabs ((File.ofContent path (some content) inMemory).line n)
    let lead := o.measure.expandTabsFrom 0 (runes a)
    let marked := o.measure.expandTabsFrom (o.measure.total lead) (runes b)
    let cells := max 1 (o.measure.total (o.measure.expandTabsFrom 0 (runes b)))
    let head := toString n
    (∃ rest, runes shown = lead ++ (marked ++ rest)) ∧
    (∃ above, t.snippet o s = above ++
      (snippetRow o (Style.blue.paint o.color (padLeft head.length head)) (Utf8.decode shown) ++
        snippetRow o (blanks head.length) (marking o (o.measure.total lead) cells))) ∧
    (cells = max 1 (o.measure.total marked) ↔ '\t' ∉ runes b ∨ o.measure.total lead % tabStop = 0) := by
  intro shown lead marked cells head
  refine ⟨?shown, ?snippet, ?length⟩
  case shown =>
    refine ⟨o.measure.expandTabsFrom (o.measure.total lead + o.measure.total marked) (runes c), ?_⟩
    rw [Measure.runes_expandTabs, hs.runes_line, Measure.expandTabsFrom_append hm, Measure.expandTabsFrom_append hm,
      Nat.zero_add]
  case snippet =>
    have hpos := hs.lineCol_eq (File.indexed_ofContent path (some content) inMemory)
    obtain ⟨above, habove⟩ := FileTable.snippet_eq hcontext hfile rfl hpos.1 hpos.2 hs.line_pos
    refine ⟨above, ?_⟩
    rw [habove, quotedLine_eq hwidth, underline_eq hwidth hs.line_eq, Measure.shownWidth_eq hm, Measure.shownWidth_eq hm]
  case length => exact (Measure.max_total_eq_iff hm).trans (or_congr_right eq_comm)

/-- A wide character behind a tab and another wide character. -/
theorem FileTable.snippet_underlines_wide :
    let f := File.ofContent "main.tree" (some (Utf8.encode "\tlet 木 = 日;\n")) false
    let t : FileTable := { files := #[f] }
    let o : PrettyOptions := { measure := .adding fun c => if c.toNat < 0x1100 then 1 else 2 }
    o.measure.Additive ∧ Covers f ⟨0, 11, 14⟩ 1 (Utf8.encode "\tlet 木 = ") (Utf8.encode "日") (Utf8.encode ";") ∧
    ∃ above, t.snippet o ⟨0, 11, 14⟩ = above ++ (" 1 |     let 木 = 日;\n" ++ "   |              ^~\n") := by
  intro f t o
  have hm : o.measure.Additive := Measure.additive_adding (by decide +kernel)
  have hs : Covers f ⟨0, 11, 14⟩ 1 (Utf8.encode "\tlet 木 = ") (Utf8.encode "日") (Utf8.encode ";") := by
    constructor <;> decide +kernel
  obtain ⟨-, ⟨above, habove⟩, -⟩ := FileTable.snippet_underlines (t := t) hm rfl (Int.le_refl 0) rfl hs
  exact ⟨hm, hs, above, habove.trans (congrArg (above ++ ·) (by decide +kernel))⟩

/-- The tab takes two cells, from the third cell of the line up to the tab stop, and is underlined with four. -/
theorem FileTable.tab_overmarked :
    let f := File.ofContent "u" (some (Utf8.encode "ab\tc")) true
    let t : FileTable := { files := #[f] }
    let o : PrettyOptions := { measure := .adding Width.cells }
    o.measure.Additive ∧ Covers f ⟨0, 2, 3⟩ 1 (Utf8.encode "ab") (Utf8.encode "\t") (Utf8.encode "c") ∧
    t.snippet o ⟨0, 2, 3⟩ = " 1 | ab  c\n   |   ^~~~\n" ∧
    o.measure.total (o.measure.expandTabsFrom (o.measure.total (o.measure.expandTabsFrom 0 (runes (Utf8.encode "ab"))))
      (runes (Utf8.encode "\t"))) = 2 := by
  refine ⟨Measure.additive_adding (by decide +kernel), ?_, by decide +kernel, by decide +kernel⟩
  constructor <;> decide +kernel

end TreeCompiler
