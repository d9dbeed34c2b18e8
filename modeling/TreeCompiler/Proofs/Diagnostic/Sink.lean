import TreeCompiler.Diagnostic.Sink
import TreeCompiler.Proofs.Analysis.Speculation

/-!
# Reports that differ in their texts

A report is worded with the names of a unit. Two sinks are alike when they were given the same reports up to the wording,
and the steps of speculation do not look at the wording.

* `Diagnostic.place` : what a report says besides its texts;
* `Sink.Alike` : sinks that hold the same reports up to their texts; `Alike.report`, `Alike.openBuffer`, `Alike.commit`,
  `Alike.discard` : what the four steps keep;
* `history_report`, `history_commit` : the reports that were made.
-/

namespace TreeCompiler

/-- A report without its texts. -/
def Diagnostic.place (d : Diagnostic) : Severity × Code × Span := (d.severity, d.code, d.span)

theorem Diagnostic.place_of_identity {d e : Diagnostic} (h : d.identity = e.identity) : d.place = e.place := by
  simp only [identity, Prod.mk.injEq] at h
  rw [place, place, h.1, h.2.1, h.2.2.1]

/-- A report and where it was made, without its texts. -/
def Reported.place (r : Reported) : Nat × Severity × Code × Span := (r.depth, r.diagnostic.place)

namespace Sink

/-- Sinks that were given the same reports up to their texts. The user may be shown a report twice that another wording
shows once. -/
structure Alike (k k' : Sink) : Prop where
  history : k'.history.map Reported.place = k.history.map Reported.place
  held : k'.held.map (List.map Diagnostic.place) = k.held.map (List.map Diagnostic.place)
  delivered : ∀ p, p ∈ k'.delivered.map Diagnostic.place ↔ p ∈ k.delivered.map Diagnostic.place

theorem history_report (k : Sink) (d : Diagnostic) : (k.report d).history = k.history ++ [⟨k.held.length, d⟩] := by
  rw [report, history_pass]
  rfl

theorem history_commit (k : Sink) : k.commit.history = k.history := by
  refine List.foldlRecOn (motive := fun l : Sink => l.history = k.history) _ _ rfl fun l hl d _ => ?_
  rw [history_pass, hl]

namespace Alike

variable {k k' : Sink}

theorem refl (k : Sink) : k.Alike k := ⟨rfl, rfl, fun _ => Iff.rfl⟩

theorem length_held (h : k.Alike k') : k'.held.length = k.held.length := by
  have hlen := congrArg List.length h.held
  rwa [List.length_map, List.length_map] at hlen

theorem depth (h : k.Alike k') : k'.depth = k.depth := h.length_held

theorem places_headD (h : k.Alike k') : k'.heldItems.map Diagnostic.place = k.heldItems.map Diagnostic.place := by
  have hheld := h.held
  unfold heldItems
  cases hk : k.held <;> cases hk' : k'.held <;> simp_all

theorem heldErrors (h : k.Alike k') : k'.heldErrors = k.heldErrors := by
  have hany (l : List Diagnostic) :
      l.any (·.blocks) = (l.map Diagnostic.place).any fun p => p.1.blocks := by
    rw [List.any_map]
    rfl
  rw [Sink.heldErrors, Sink.heldErrors, hany, hany, h.places_headD]

/-- The reports of the user after one more, which may be there already. -/
theorem mem_places_deliver (k : Sink) (d : Diagnostic) (p : Severity × Code × Span) :
    p ∈ (k.deliver d).delivered.map Diagnostic.place ↔ p ∈ k.delivered.map Diagnostic.place ∨ p = d.place := by
  unfold deliver
  split
  · rename_i hdup
    simp only [Bool.and_eq_true, List.any_eq_true, beq_iff_eq] at hdup
    obtain ⟨-, e, he, hid⟩ := hdup
    refine ⟨.inl, fun h => h.elim id ?_⟩
    rintro rfl
    exact List.mem_map.2 ⟨e, he, Diagnostic.place_of_identity hid⟩
  · rw [List.map_append, List.mem_append, List.map_singleton, List.mem_singleton]

theorem history_deliver (k : Sink) (d : Diagnostic) : (k.deliver d).history = k.history := by
  unfold deliver
  split <;> rfl

theorem held_deliver (k : Sink) (d : Diagnostic) : (k.deliver d).held = k.held := by
  unfold deliver
  split <;> rfl

theorem deliver (h : k.Alike k') {d d' : Diagnostic} (hd : d'.place = d.place) : (k.deliver d).Alike (k'.deliver d') := by
  refine ⟨?_, ?_, fun p => ?_⟩
  · rw [history_deliver, history_deliver]
    exact h.history
  · rw [held_deliver, held_deliver]
    exact h.held
  · rw [mem_places_deliver, mem_places_deliver, h.delivered, hd]

theorem pass (h : k.Alike k') {d d' : Diagnostic} (hd : d'.place = d.place) : (k.pass d).Alike (k'.pass d') := by
  have hheld := h.held
  unfold Sink.pass
  cases hk : k.held with
  | nil =>
    rw [hk, List.map_nil, List.map_eq_nil_iff] at hheld
    rw [hheld]
    exact h.deliver hd
  | cons b rest =>
    rw [hk, List.map_cons] at hheld
    obtain ⟨b', rest', hk', hb, hrest⟩ := List.map_eq_cons_iff.1 hheld
    rw [hk']
    refine ⟨h.history, ?_, h.delivered⟩
    simp only [List.map_cons, List.map_append, List.map_nil, hb, hrest, hd]

theorem report (h : k.Alike k') {d d' : Diagnostic} (hd : d'.place = d.place) : (k.report d).Alike (k'.report d') := by
  have hrecord : (k.record k.held.length d).Alike (k'.record k'.held.length d') := by
    refine ⟨?_, h.held, h.delivered⟩
    simp only [record, List.map_append, List.map_cons, List.map_nil, h.history, Reported.place, h.length_held, hd]
  exact hrecord.pass hd

theorem openBuffer (h : k.Alike k') : k.openBuffer.Alike k'.openBuffer := by
  refine ⟨h.history, ?_, h.delivered⟩
  simp only [Sink.openBuffer, List.map_cons, h.held]

theorem discard (h : k.Alike k') : k.discard.Alike k'.discard := by
  refine ⟨h.history, ?_, h.delivered⟩
  simp only [Sink.discard, List.map_tail, h.held]

theorem foldl_pass {ds ds' : List Diagnostic} (h : k.Alike k') (hds : ds'.map Diagnostic.place = ds.map Diagnostic.place) :
    (ds.foldl Sink.pass k).Alike (ds'.foldl Sink.pass k') := by
  induction ds generalizing ds' k k' with
  | nil =>
    rw [List.map_nil, List.map_eq_nil_iff] at hds
    rw [hds]
    exact h
  | cons d ds ih =>
    obtain ⟨d', rest', rfl, hd, hrest⟩ := List.map_eq_cons_iff.1 hds
    rw [List.foldl_cons, List.foldl_cons]
    exact ih (h.pass hd) hrest

theorem commit (h : k.Alike k') : k.commit.Alike k'.commit := foldl_pass h.discard h.places_headD

theorem errorCount_pos (h : k.Alike k') : 0 < k'.errorCount ↔ 0 < k.errorCount := by
  have hplace (l : Sink) : 0 < l.errorCount ↔ ∃ p ∈ l.delivered.map Diagnostic.place, p.1.blocks = true := by
    rw [Sink.errorCount_pos]
    simp [Diagnostic.place, Diagnostic.blocks]
  simp only [hplace, h.delivered]

end Alike

end Sink

end TreeCompiler
