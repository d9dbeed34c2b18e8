import Mathlib.Data.List.Rotate
import Mathlib.Data.Nat.ModEq
import TreeCompiler.Trace.Tracer

/-!
# The newest events

A ring appends until it is full and overwrites from then on. Event `i` of all that were pushed goes to place `i` modulo the
capacity, before the ring is full and after, so one statement about places carries over the change.

* `Ring.Holds` : what a ring is made of after some events, place by place; `Holds.push` : one event more;
* `Holds.snapshot` : read around once from the oldest place on, a ring shows the last events;
* `Tracer.Records` : a tracer whose ring was fed with what its level admits; `Records.emit`, `Records.run` : one event, and
  any number of them;
* `Tracer.snapshot_newest` : what has been kept of the events that were emitted, and how many have been overwritten.
-/

namespace TreeCompiler

/-- An event as it was emitted, before it got its number. -/
def TraceEvent.unnumbered (ev : TraceEvent) : TraceEvent := { ev with seq := 0 }

namespace Ring

variable {r : Ring} {pushed : List TraceEvent}

theorem capacity_ofCapacity {capacity : Int} (h : 1 ≤ capacity) : (ofCapacity capacity).capacity = capacity.toNat := by
  unfold ofCapacity
  rw [if_neg (by omega)]

theorem capacity_push (r : Ring) (ev : TraceEvent) : (r.push ev).capacity = r.capacity := by
  unfold push
  split <;> rfl

theorem total_push (r : Ring) (ev : TraceEvent) : (r.push ev).total = r.total + 1 := by
  unfold push
  split <;> rfl

/-- The ring after the events `pushed`: each of the last ones stands at its number modulo the capacity. -/
structure Holds (r : Ring) (pushed : List TraceEvent) : Prop where
  positive : 0 < r.capacity
  total : r.total = pushed.length
  size : r.events.size = min pushed.length r.capacity
  place : ∀ i < pushed.length, pushed.length ≤ i + r.capacity → r.events[i % r.capacity]? = pushed[i]?

theorem holds_ofCapacity (capacity : Int) : (ofCapacity capacity).Holds [] where
  positive := by
    unfold ofCapacity
    dsimp only
    split <;> omega
  total := rfl
  size := by simp [ofCapacity]
  place := by simp

/-- Two of the last numbers have different places. -/
theorem mod_ne_of_lt {i n c : Nat} (hi : i < n) (hn : n < i + c) : i % c ≠ n % c := by
  intro h
  have hdvd : c ∣ n - i := (Nat.modEq_iff_dvd' hi.le).1 h
  exact absurd (Nat.le_of_dvd (by omega) hdvd) (by omega)

namespace Holds

theorem size_push (h : r.Holds pushed) (ev : TraceEvent) :
    (r.push ev).events.size = min (pushed.length + 1) r.capacity := by
  have hsize := h.size
  unfold Ring.push
  split
  · rw [Array.size_push]
    omega
  · rw [Array.size_setIfInBounds]
    omega

theorem place_push (h : r.Holds pushed) (ev : TraceEvent) {i : Nat} (hi : i ≤ pushed.length)
    (hlast : pushed.length < i + r.capacity) : (r.push ev).events[i % r.capacity]? = (pushed ++ [ev])[i]? := by
  have hsize := h.size
  unfold Ring.push
  split
  · -- the ring is not full: no number has been reduced so far
    have hn : pushed.length < r.capacity := by omega
    rw [Nat.mod_eq_of_lt (by omega), Array.getElem?_push, hsize, Nat.min_eq_left hn.le]
    split
    · rename_i hnew
      rw [hnew, List.getElem?_concat_length]
    · have hold := h.place i (by omega) (by omega)
      rw [Nat.mod_eq_of_lt (by omega)] at hold
      rw [hold, List.getElem?_append_left (by omega)]
  · -- the place of the new event was that of the oldest one, which is no longer among the last
    rw [h.total, Array.getElem?_setIfInBounds]
    rcases hi.lt_or_eq with hold | rfl
    · rw [if_neg (mod_ne_of_lt hold hlast).symm, h.place i hold hlast.le, List.getElem?_append_left hold]
    · have hplace := Nat.mod_lt pushed.length h.positive
      rw [if_pos rfl, if_pos (by omega), List.getElem?_concat_length]

theorem push (h : r.Holds pushed) (ev : TraceEvent) : (r.push ev).Holds (pushed ++ [ev]) := by
  have hlength : (pushed ++ [ev]).length = pushed.length + 1 := List.length_append
  constructor
  case positive => rw [capacity_push]; exact h.positive
  case total => rw [total_push, h.total, hlength]
  case size => rw [capacity_push, h.size_push, hlength]
  case place =>
    rw [capacity_push, hlength]
    exact fun i hi hlast => h.place_push ev (Nat.le_of_lt_succ hi) hlast

/-- From the place where the next event would go, the ring is read around once. -/
theorem snapshot (h : r.Holds pushed) : r.snapshot = pushed.drop (pushed.length - r.capacity) := by
  have hsize := h.size
  unfold Ring.snapshot
  split
  · have hn : pushed.length < r.capacity := by omega
    rw [Nat.sub_eq_zero_of_le hn.le, List.drop_zero]
    apply List.ext_getElem?
    intro k
    rw [Array.getElem?_toList]
    by_cases hk : k < pushed.length
    · have hplace := h.place k hk (by omega)
      rwa [Nat.mod_eq_of_lt (by omega)] at hplace
    · rw [Array.getElem?_eq_none (by omega), List.getElem?_eq_none (by omega)]
  · have hn : r.capacity ≤ pushed.length := by omega
    have hlength : r.events.toList.length = r.capacity := by
      rw [Array.length_toList]
      omega
    have hoff : r.total % r.capacity < r.capacity := Nat.mod_lt _ h.positive
    dsimp only
    rw [← List.rotate_eq_drop_append_take (by omega)]
    apply List.ext_getElem?
    intro k
    rw [List.getElem?_drop]
    by_cases hk : k < r.capacity
    · have hturn : (k + r.total % r.capacity) % r.capacity = (pushed.length - r.capacity + k) % r.capacity := by
        rw [h.total, Nat.add_mod_mod, ← Nat.add_mod_right (pushed.length - r.capacity + k)]
        congr 1
        omega
      rw [List.getElem?_rotate (by omega), hlength, hturn, Array.getElem?_toList, h.place _ (by omega) (by omega)]
    · rw [List.getElem?_eq_none (by rw [List.length_rotate]; omega), List.getElem?_eq_none (by omega)]

theorem length_snapshot (h : r.Holds pushed) : r.snapshot.length = min pushed.length r.capacity := by
  rw [h.snapshot, List.length_drop]
  omega

theorem dropped_eq (h : r.Holds pushed) : r.dropped = pushed.length - r.snapshot.length := by
  rw [dropped, h.total, h.size, h.length_snapshot]

end Holds

end Ring

namespace Tracer

variable {t : Tracer} {level : TraceLevel} {capacity : Nat} {evs : List TraceEvent}

/-- The events of a sequence that a level admits. -/
def admitted (level : TraceLevel) (evs : List TraceEvent) : List TraceEvent := evs.filter fun ev => level.admits ev.scope

/-- The tracer has pushed the admitted events onto its ring, in their order and each with a number. -/
structure Records (t : Tracer) (level : TraceLevel) (capacity : Nat) (evs : List TraceEvent) : Prop where
  level_eq : t.level = level
  mode_ne : t.mode ≠ .stream
  capacity_eq : t.ring.capacity = capacity
  pushed : ∃ pushed, t.ring.Holds pushed ∧
    pushed.map TraceEvent.unnumbered = (admitted level evs).map TraceEvent.unnumbered

/-- A tracer with a ring pushes an admitted event, in whatever way it numbers it. -/
theorem emit_admitted (hmode : t.mode ≠ .stream) {ev : TraceEvent} (h : t.level.admits ev.scope = true) :
    ∃ seq, (t.emit ev).level = t.level ∧ (t.emit ev).mode = t.mode ∧
      (t.emit ev).ring = t.ring.push { ev with seq } := by
  unfold emit admits
  rw [h]
  cases hm : t.mode with
  | stream => exact absurd hm hmode
  | ring => exact ⟨t.nextSeq, rfl, hm, rfl⟩
  | both => exact ⟨t.nextSeq + 1, rfl, hm, rfl⟩

theorem Records.emit (h : t.Records level capacity evs) (ev : TraceEvent) :
    (t.emit ev).Records level capacity (evs ++ [ev]) := by
  obtain ⟨rfl, hmode, hcapacity, pushed, hholds, hpushed⟩ := h
  by_cases hadmits : t.level.admits ev.scope = true
  · obtain ⟨seq, hlevel, hmode', hring⟩ := emit_admitted hmode hadmits
    refine ⟨hlevel, hmode' ▸ hmode, ?_, pushed ++ [{ ev with seq }], hring ▸ hholds.push _, ?_⟩
    · rw [hring, Ring.capacity_push, hcapacity]
    · simp [admitted, hadmits, hpushed, TraceEvent.unnumbered]
  · have hsame : t.emit ev = t := if_pos (by simpa [admits] using hadmits)
    rw [hsame]
    exact ⟨rfl, hmode, hcapacity, pushed, hholds, by simpa [admitted, hadmits] using hpushed⟩

theorem Records.run (h : t.Records level capacity []) (evs : List TraceEvent) :
    (evs.foldl Tracer.emit t).Records level capacity evs := by
  induction evs using List.reverseRecOn with
  | nil => exact h
  | append_singleton evs ev ih =>
    rw [List.foldl_append]
    exact ih.emit ev

/-- The ring keeps the newest of the events that the level admits, as they were emitted apart from their numbers, and counts
those that it has overwritten. -/
theorem snapshot_newest {t : Tracer} {capacity : Int} (hcapacity : 1 ≤ capacity) (hmode : t.mode ≠ .stream)
    (hring : t.ring = .ofCapacity capacity) (evs : List TraceEvent) :
    let events := (admitted t.level evs).map TraceEvent.unnumbered
    let ring := (evs.foldl emit t).ring
    ring.snapshot.length = min events.length capacity.toNat ∧
    ring.snapshot.map TraceEvent.unnumbered = events.drop (events.length - ring.snapshot.length) ∧
    ring.dropped = events.length - ring.snapshot.length := by
  intro events ring
  have hcap : t.ring.capacity = capacity.toNat := hring ▸ Ring.capacity_ofCapacity hcapacity
  have hstart : t.Records t.level capacity.toNat [] := ⟨rfl, hmode, hcap, [], hring ▸ Ring.holds_ofCapacity capacity, rfl⟩
  obtain ⟨-, -, hsame, pushed, hholds, hpushed⟩ := hstart.run evs
  have hlength : pushed.length = events.length := by simpa [events] using congrArg List.length hpushed
  have hkept : ring.snapshot.length = min events.length capacity.toNat := by rw [hholds.length_snapshot, hlength, hsame]
  refine ⟨hkept, ?newest, by rw [hholds.dropped_eq, hlength]⟩
  case newest =>
    rw [hkept, hholds.snapshot, List.map_drop, hpushed, hlength, hsame]
    congr 1
    omega

/-- Three points in a ring for two events: the first is overwritten. -/
theorem snapshot_newest_three :
    let t : Tracer := { level := .debug, ring := .ofCapacity 2 }
    let evs : List TraceEvent := ["a", "b", "c"].map fun name => { kind := .point, scope := TraceScope.pass, name }
    let ring := (evs.foldl emit t).ring
    ring.snapshot.map TraceEvent.unnumbered = evs.drop 1 ∧ ring.dropped = 1 := by
  intro t evs ring
  obtain ⟨hlength, hnewest, hdropped⟩ := snapshot_newest (t := t) (by decide : (1 : Int) ≤ 2) (by decide) rfl evs
  have hkept : ring.snapshot.length = 2 := hlength
  rw [hkept] at hnewest hdropped
  exact ⟨hnewest, hdropped⟩

end Tracer

end TreeCompiler
