import TreeCompiler.Proofs.Analysis.Resolve
import TreeCompiler.Tree.Builder

/-!
# Errors and speculation

An analysis opens a buffer for every step that it only tries, and drops the buffer when the step does not succeed. So an
error reaches the user exactly when it was reported while no buffer was open.

* `Sink.Faithful` : what has left the outermost buffer, compared with what was reported;
* `Tree.analyze_hasErrors_iff` : when an analysis ends with errors, and which errors survive;
* `Tree.analyze_error_dropped` : an error of an analysis that ends without any.
-/

namespace TreeCompiler

namespace Sink

/-- Delivered errors were reported outside every buffer, and what was reported there is delivered. -/
structure Faithful (s : Sink) : Prop where
  delivered : ∀ d ∈ s.delivered, d.blocks → ∃ r ∈ s.history, r.depth = 0 ∧ r.diagnostic = d
  reported : ∀ r ∈ s.history, r.depth = 0 → ∃ d ∈ s.delivered, d.identity = r.diagnostic.identity

variable {s : Sink}

@[simp] theorem history_pass (d : Diagnostic) : (s.pass d).history = s.history := by
  unfold pass deliver
  split
  · split <;> rfl
  · rfl

@[simp] theorem mem_history_record {r : Reported} {depth : Nat} {d : Diagnostic} :
    r ∈ (s.record depth d).history ↔ r ∈ s.history ∨ r = ⟨depth, d⟩ := by
  simp [record]

theorem delivered_pass {d e : Diagnostic} (h : e ∈ (s.pass d).delivered) : e ∈ s.delivered ∨ e = d ∧ s.held = [] := by
  unfold pass deliver at h
  split at h
  · split at h
    · exact .inl h
    · simp only [List.mem_append, List.mem_singleton] at h
      exact h.imp_right fun h => ⟨h, ‹_›⟩
  · exact .inl h

theorem delivered_subset_pass {d e : Diagnostic} (h : e ∈ s.delivered) : e ∈ (s.pass d).delivered := by
  unfold pass deliver
  split
  · split
    · exact h
    · exact List.mem_append_left _ h
  · exact h

/-- Outside every buffer a report is delivered, unless the same one was before. -/
theorem exists_delivered_pass (h : s.held = []) (d : Diagnostic) :
    ∃ e ∈ (s.pass d).delivered, e.identity = d.identity := by
  unfold pass deliver
  rw [h]
  dsimp only
  split
  · rename_i hdup
    simp only [Bool.and_eq_true, List.any_eq_true, beq_iff_eq] at hdup
    exact hdup.2
  · exact ⟨d, by simp, rfl⟩

namespace Faithful

theorem pass_quiet (h : s.Faithful) {d : Diagnostic} (hd : d.blocks = false) : (s.pass d).Faithful := by
  refine ⟨fun e he hb => ?_, fun r hr h0 => ?_⟩
  · rw [history_pass]
    rcases delivered_pass he with he | ⟨rfl, -⟩
    · exact h.delivered e he hb
    · rw [hd] at hb
      cases hb
  · rw [history_pass] at hr
    obtain ⟨e, he, hid⟩ := h.reported r hr h0
    exact ⟨e, delivered_subset_pass he, hid⟩

theorem report (h : s.Faithful) (d : Diagnostic) : (s.report d).Faithful := by
  unfold Sink.report
  refine ⟨fun e he hb => ?_, fun r hr h0 => ?_⟩
  · rw [history_pass]
    rcases delivered_pass he with he | ⟨rfl, hheld⟩
    · obtain ⟨r, hr, hd⟩ := h.delivered e he hb
      exact ⟨r, mem_history_record.2 (.inl hr), hd⟩
    · have hheld : s.held = [] := hheld
      exact ⟨_, mem_history_record.2 (.inr rfl), by simp [hheld], rfl⟩
  · rw [history_pass] at hr
    rcases mem_history_record.1 hr with hr | rfl
    · obtain ⟨e, he, hid⟩ := h.reported r hr h0
      exact ⟨e, delivered_subset_pass he, hid⟩
    · have hheld : (s.record s.held.length d).held = [] := List.length_eq_zero_iff.1 h0
      exact exists_delivered_pass hheld d

/-- What a committed buffer passes on holds no error. -/
theorem commit (h : s.Faithful) (hq : s.heldErrors = false) : s.commit.Faithful := by
  unfold Sink.commit
  unfold heldErrors at hq
  have hquiet : ∀ d ∈ s.heldItems, d.blocks = false := by simpa using hq
  refine List.foldlRecOn _ _ ?_ fun t ht d hd => ht.pass_quiet (hquiet d hd)
  exact ⟨h.delivered, h.reported⟩

end Faithful

theorem faithful_empty : ({} : Sink).Faithful := ⟨List.forall_mem_nil _, List.forall_mem_nil _⟩

theorem errorCount_pos : 0 < s.errorCount ↔ ∃ d ∈ s.delivered, d.blocks = true := by
  simp [errorCount, List.length_pos_iff_exists_mem]

end Sink

namespace Analysis

theorem Step.faithful {s s' : Analysis} (h : Step s s') (hs : s.sink.Faithful) : s'.sink.Faithful := by
  cases h with
  | report d => exact hs.report d
  | openBuffer => exact ⟨hs.delivered, hs.reported⟩
  | commit hq => exact hs.commit hq
  | discard => exact ⟨hs.delivered, hs.reported⟩
  | enter scope h => exact hs
  | edit sink => rwa [sink]
  | arrange sink => rwa [sink]
  | intern types h => exact hs
  | default t ds h => exact hs
  | defer st sink => rwa [sink]
  | learn fn info sink => rwa [sink]

theorem Steps.faithful {s s' : Analysis} (h : Steps s s') (hs : s.sink.Faithful) : s'.sink.Faithful := by
  induction h with
  | refl => exact hs
  | tail _ h ih => exact h.faithful ih

end Analysis

theorem Tree.analyze_faithful (tree : Tree) (options : AnalysisOptions) (tracer : Tracer) :
    (tree.analyze options tracer).state.sink.Faithful :=
  (tree.analyze_steps options tracer).faithful Sink.faithful_empty

theorem Diagnostic.blocks_congr {d e : Diagnostic} (h : d.identity = e.identity) : d.blocks = e.blocks := by
  simp only [identity, Prod.mk.injEq] at h
  rw [blocks, blocks, h.2.1]

/-- An analysis ends with errors exactly when an error was reported outside every buffer, and an error is among the
results exactly when it was reported there. -/
theorem Tree.analyze_hasErrors_iff (tree : Tree) (options : AnalysisOptions) (tracer : Tracer) :
    let e := tree.analyze options tracer
    let reports := e.state.sink.history
    (e.hasErrors = true ↔ ∃ r ∈ reports, r.depth = 0 ∧ r.diagnostic.blocks = true) ∧
    ∀ d : Diagnostic, d.blocks = true →
      ((∃ x ∈ e.diagnostics, x.identity = d.identity) ↔ ∃ r ∈ reports, r.depth = 0 ∧ r.diagnostic.identity = d.identity) := by
  intro e reports
  have h : e.state.sink.Faithful := tree.analyze_faithful options tracer
  refine ⟨?_, fun d hd => ⟨?_, ?_⟩⟩
  · rw [AnalysisEnd.hasErrors, decide_eq_true_iff, Sink.errorCount_pos]
    constructor
    · rintro ⟨d, hd, hb⟩
      obtain ⟨r, hr, h0, rfl⟩ := h.delivered d hd hb
      exact ⟨r, hr, h0, hb⟩
    · rintro ⟨r, hr, h0, hb⟩
      obtain ⟨d, hd, hid⟩ := h.reported r hr h0
      exact ⟨d, hd, (Diagnostic.blocks_congr hid).trans hb⟩
  · rintro ⟨x, hx, hid⟩
    obtain ⟨r, hr, h0, rfl⟩ := h.delivered x hx ((Diagnostic.blocks_congr hid).trans hd)
    exact ⟨r, hr, h0, hid⟩
  · rintro ⟨r, hr, h0, hid⟩
    obtain ⟨x, hx, hx'⟩ := h.reported r hr h0
    exact ⟨x, hx, hx'.trans hid⟩

/-- A method of `S` that shares its name with a field and has a parameter of an unknown type. -/
def shadowedMethod : Tree where
  nodes := #[
    .typeName ["int"], .typeName ["int"], .typeFunc 2 [1], .field "m" 3 0, .typeStruct [4], .typeDecl "S" 5,
    .typeName ["S"], .typeName ["int"], .param "x" 8, .typeName ["int"], .ident ["x"], .returnStmt 11, .block [12],
    .func "" [9] 10 13, .field "m" 14 0, .structLit 7 [15], .letDecl "o" 0 16,
    .ident ["o"], .member 18 "m", .intLit 1, .call 19 [20], .exprStmt 21,
    .typeName ["S"], .param "self" 23, { Node.typeName ["Unknown"] with span := ⟨0, 24, 25⟩ }, .param "x" 25,
    .typeName ["int"], .intLit 0, .returnStmt 28, .block [29], .func "m" [24, 26] 27 30, .nameSpace "S" [31],
    { kind := .file, list := [6, 17, 22, 32] }]
  roots := [33]

/-- The error of a type name of the tree that is met first while a method is tried, and never again. -/
theorem Tree.analyze_error_dropped :
    let e := shadowedMethod.analyze {} {}
    e.failure = none ∧ e.hasErrors = false ∧
    ∃ r ∈ e.state.sink.history, r.diagnostic.blocks = true ∧ r.diagnostic.code = (Problem.unknownType "Unknown").code ∧
      ∃ n ∈ shadowedMethod.nodes, n.kind = .typeName ∧ n.span = r.diagnostic.span ∧ n.name = "Unknown" := by
  decide +kernel

end TreeCompiler
