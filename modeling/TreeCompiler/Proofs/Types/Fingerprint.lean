import Mathlib.Algebra.Group.Nat.Defs
import Mathlib.Data.List.Dedup
import Mathlib.Data.List.Perm.Subperm
import TreeCompiler.Proofs.Text.Hex
import TreeCompiler.Types.Fingerprint

/-!
# Issued values and memo keys

A value that was issued stands for one type, and a type that has a value keeps it. The table is searched for a free value
from the structural one on, so this does not depend on the hash function: as long as there is a free value, it is found.

* `Fingerprints.Issues` : what is kept between queries; `issues_hash`, `issues_hashAll` : each query keeps it;
* `Fingerprints.hashEach` : one query after another, while the type table changes; `hashEach_eq_iff` : which answers agree;
* `Fingerprints.Keyed` : the memo key of a vector of types; `Keyed.inj`, `Keyed.unique` : keys and vectors determine each
  other.
-/

namespace TreeCompiler.Fingerprints

variable {f f' : Fingerprints}

/-- Every type has one value, and when there are enough values, every value stands for one type. -/
structure Issues (f : Fingerprints) : Prop where
  ids : (f.issued.map (·.1)).Nodup
  values : f.issued.length ≤ 2 ^ 64 → (f.issued.map (·.2)).Nodup

/-- More values are issued, and none is taken back. -/
def Grows (f f' : Fingerprints) : Prop := f.issued <:+ f'.issued

namespace Grows

theorem refl (f : Fingerprints) : f.Grows f := List.suffix_refl _

theorem trans {a b c : Fingerprints} (h₁ : a.Grows b) (h₂ : b.Grows c) : a.Grows c := List.IsSuffix.trans h₁ h₂

theorem mem (h : f.Grows f') {e : TypeId × UInt64} (he : e ∈ f.issued) : e ∈ f'.issued := h.subset he

end Grows

theorem issues_empty (digest : Bytes → UInt64) : Issues { digest } := ⟨List.nodup_nil, fun _ => List.nodup_nil⟩

/-! ## Free values -/

theorem isTaken_iff {v : UInt64} : f.isTaken v = true ↔ v ∈ f.issued.map (·.2) := by
  rw [isTaken, List.any_eq_true, List.mem_map]
  simp only [beq_iff_eq]

/-- The values from `v` on differ until all of them have been met. -/
theorem nodup_from (v : UInt64) {n : Nat} (hn : n ≤ 2 ^ 64) : ((List.range n).map fun k => v + UInt64.ofNat k).Nodup := by
  refine List.Nodup.map_on (fun i hi j hj h => ?_) List.nodup_range
  rw [List.mem_range] at hi hj
  have hnat := congrArg UInt64.toNat ((UInt64.add_right_inj v).1 h)
  rw [UInt64.toNat_ofNat_of_lt' (show i < UInt64.size by unfold UInt64.size; omega),
    UInt64.toNat_ofNat_of_lt' (show j < UInt64.size by unfold UInt64.size; omega)] at hnat
  exact hnat

/-- Among one value more than are issued, one is free. -/
theorem exists_free (v : UInt64) (h : f.issued.length < 2 ^ 64) :
    ∃ k < f.issued.length + 1, f.isTaken (v + UInt64.ofNat k) = false := by
  by_contra hall
  push Not at hall
  have hsub : (List.range (f.issued.length + 1)).map (fun k => v + UInt64.ofNat k) ⊆ f.issued.map (·.2) := by
    intro w hw
    obtain ⟨k, hk, rfl⟩ := List.mem_map.1 hw
    refine isTaken_iff.1 ?_
    simpa using hall k (List.mem_range.1 hk)
  have hle := (List.subperm_of_subset (nodup_from v (show f.issued.length + 1 ≤ 2 ^ 64 by omega)) hsub).length_le
  simp only [List.length_map, List.length_range] at hle
  omega

theorem isTaken_probe {fuel : Nat} {v : UInt64} (h : ∃ k < fuel, f.isTaken (v + UInt64.ofNat k) = false) :
    f.isTaken (f.probe fuel v) = false := by
  induction fuel generalizing v with
  | zero =>
    obtain ⟨k, hk, -⟩ := h
    cases hk
  | succ fuel ih =>
    unfold probe
    split
    · obtain ⟨k, hk, hfree⟩ := h
      refine ih ?_
      cases k with
      | zero => simp_all
      | succ k =>
        refine ⟨k, Nat.lt_of_succ_lt_succ hk, ?_⟩
        rw [← hfree, UInt64.ofNat_add, UInt64.add_comm (UInt64.ofNat k), ← UInt64.add_assoc]
        rfl
    · simp_all

/-! ## One query -/

theorem grows_hash (t : TypeTable) (id : TypeId) : f.Grows (f.hash t id).2 := by
  unfold hash
  split
  · exact .refl f
  · exact List.suffix_cons _ _

theorem mem_hash (t : TypeTable) (id : TypeId) : (id, (f.hash t id).1) ∈ (f.hash t id).2.issued := by
  unfold hash
  split
  · rename_i e he
    have hid : e.1 = id := by simpa using List.find?_some he
    rw [← hid]
    exact List.mem_of_find?_eq_some he
  · exact List.mem_cons_self

/-- Only the type that was asked for gets a value. -/
theorem mem_of_hash {t : TypeTable} {id : TypeId} {e : TypeId × UInt64} (h : e ∈ (f.hash t id).2.issued) :
    e ∈ f.issued ∨ e.1 = id := by
  unfold hash at h
  split at h
  · exact .inl h
  · rcases List.mem_cons.1 h with rfl | h
    · exact .inr rfl
    · exact .inl h

theorem issues_hash (h : f.Issues) (t : TypeTable) (id : TypeId) : (f.hash t id).2.Issues := by
  unfold hash
  split
  · exact h
  · rename_i hnone
    have hid : id ∉ f.issued.map (·.1) := by
      intro hmem
      obtain ⟨e, he, rfl⟩ := List.mem_map.1 hmem
      simpa using List.find?_eq_none.1 hnone e he
    refine ⟨List.nodup_cons.2 ⟨hid, h.ids⟩, fun hlen => List.nodup_cons.2 ⟨?_, h.values ?_⟩⟩
    · have hlt : f.issued.length < 2 ^ 64 := Nat.lt_of_succ_le hlen
      rw [← isTaken_iff, isTaken_probe (exists_free _ hlt)]
      exact Bool.false_ne_true
    · exact Nat.le_of_succ_le hlen

theorem Issues.value_unique (h : f.Issues) {id : TypeId} {v w : UInt64} (hv : (id, v) ∈ f.issued)
    (hw : (id, w) ∈ f.issued) : v = w :=
  congrArg Prod.snd (List.inj_on_of_nodup_map h.ids hv hw rfl)

theorem Issues.id_unique (h : f.Issues) (hlen : f.issued.length ≤ 2 ^ 64) {x y : TypeId} {v : UInt64}
    (hx : (x, v) ∈ f.issued) (hy : (y, v) ∈ f.issued) : x = y :=
  congrArg Prod.fst (List.inj_on_of_nodup_map (h.values hlen) hx hy rfl)

/-! ## Queries one after another -/

/-- Asks for the value of one type after another, each in the type table of its time. The answers come with the types. -/
def hashEach (f : Fingerprints) : List (TypeTable × TypeId) → List (TypeId × UInt64) × Fingerprints
  | [] => ([], f)
  | (t, id) :: rest =>
    let (v, f) := f.hash t id
    let (vs, f) := f.hashEach rest
    ((id, v) :: vs, f)

theorem hashEach_cons (t : TypeTable) (id : TypeId) (rest : List (TypeTable × TypeId)) :
    f.hashEach ((t, id) :: rest) =
      ((id, (f.hash t id).1) :: ((f.hash t id).2.hashEach rest).1, ((f.hash t id).2.hashEach rest).2) := rfl

theorem grows_hashEach (qs : List (TypeTable × TypeId)) : f.Grows (f.hashEach qs).2 := by
  induction qs generalizing f with
  | nil => exact .refl f
  | cons q qs ih => exact (grows_hash q.1 q.2).trans ih

theorem issues_hashEach (h : f.Issues) (qs : List (TypeTable × TypeId)) : (f.hashEach qs).2.Issues := by
  induction qs generalizing f with
  | nil => exact h
  | cons q qs ih => exact ih (issues_hash h q.1 q.2)

theorem mem_hashEach {qs : List (TypeTable × TypeId)} {e : TypeId × UInt64} (h : e ∈ (f.hashEach qs).1) :
    e ∈ (f.hashEach qs).2.issued := by
  induction qs generalizing f with
  | nil => cases h
  | cons q qs ih =>
    rw [hashEach_cons] at h ⊢
    rcases List.mem_cons.1 h with rfl | h
    · exact (grows_hashEach qs).mem (mem_hash q.1 q.2)
    · exact ih h

theorem mem_of_hashEach {qs : List (TypeTable × TypeId)} {e : TypeId × UInt64} (h : e ∈ (f.hashEach qs).2.issued) :
    e ∈ f.issued ∨ e.1 ∈ qs.map (·.2) := by
  induction qs generalizing f with
  | nil => exact .inl h
  | cons q qs ih =>
    rw [List.map_cons, List.mem_cons]
    rcases ih h with h | h
    · exact (mem_of_hash h).imp_right .inl
    · exact .inr (.inr h)

/-- Two answers are the same value exactly when they are about the same type. -/
theorem hashEach_eq_iff (digest : Bytes → UInt64) (qs : List (TypeTable × TypeId))
    (hcount : (qs.map (·.2)).dedup.length ≤ 2 ^ 64) {a b : TypeId × UInt64}
    (ha : a ∈ (hashEach { digest } qs).1) (hb : b ∈ (hashEach { digest } qs).1) : a.2 = b.2 ↔ a.1 = b.1 := by
  have hissues := issues_hashEach (issues_empty digest) qs
  have hlen : (hashEach { digest } qs).2.issued.length ≤ 2 ^ 64 := by
    rw [← List.length_map (f := Prod.fst)]
    refine Nat.le_trans (List.subperm_of_subset hissues.ids fun x hx => ?_).length_le hcount
    obtain ⟨e, he, rfl⟩ := List.mem_map.1 hx
    exact List.mem_dedup.2 ((mem_of_hashEach he).resolve_left List.not_mem_nil)
  obtain ⟨x, v⟩ := a
  obtain ⟨y, w⟩ := b
  have ha := mem_hashEach ha
  have hb := mem_hashEach hb
  constructor
  · rintro rfl
    exact hissues.id_unique hlen ha hb
  · rintro rfl
    exact hissues.value_unique ha hb

/-! ## Memo keys -/

/-- The key of the types `ids`, which have values. -/
def Keyed (f : Fingerprints) (ids : List TypeId) (key : String) : Prop :=
  ∃ vs : List UInt64, List.Forall₂ (fun id v => (id, v) ∈ f.issued) ids vs ∧
    key = String.intercalate "," (vs.map fun v => hexText v.toNat)

theorem Keyed.mono {ids : List TypeId} {key : String} (hg : f.Grows f') (h : f.Keyed ids key) : f'.Keyed ids key := by
  obtain ⟨vs, hvs, hkey⟩ := h
  exact ⟨vs, hvs.imp fun _ _ h => hg.mem h, hkey⟩

theorem grows_hashAll (t : TypeTable) (ids : List TypeId) : f.Grows (f.hashAll t ids).2 := by
  induction ids generalizing f with
  | nil => exact .refl f
  | cons id ids ih => exact (grows_hash t id).trans ih

theorem issues_hashAll (h : f.Issues) (t : TypeTable) (ids : List TypeId) : (f.hashAll t ids).2.Issues := by
  induction ids generalizing f with
  | nil => exact h
  | cons id ids ih => exact ih (issues_hash h t id)

theorem forall₂_hashAll (t : TypeTable) (ids : List TypeId) :
    List.Forall₂ (fun id v => (id, v) ∈ (f.hashAll t ids).2.issued) ids (f.hashAll t ids).1 := by
  induction ids generalizing f with
  | nil => exact .nil
  | cons id ids ih => exact .cons ((grows_hashAll t ids).mem (mem_hash t id)) ih

theorem grows_keyOf (t : TypeTable) (ids : List TypeId) : f.Grows (f.keyOf t ids).2 := grows_hashAll t ids

theorem issues_keyOf (h : f.Issues) (t : TypeTable) (ids : List TypeId) : (f.keyOf t ids).2.Issues :=
  issues_hashAll h t ids

theorem keyed_keyOf (t : TypeTable) (ids : List TypeId) : (f.keyOf t ids).2.Keyed ids (f.keyOf t ids).1 :=
  ⟨_, forall₂_hashAll t ids, rfl⟩

/-- A type has one value, so a vector has one key. -/
theorem Keyed.unique (h : f.Issues) {ids : List TypeId} {k k' : String} (hk : f.Keyed ids k) (hk' : f.Keyed ids k') :
    k = k' := by
  obtain ⟨vs, hvs, rfl⟩ := hk
  obtain ⟨vs', hvs', rfl⟩ := hk'
  congr 2
  induction hvs generalizing vs' with
  | nil =>
    cases hvs'
    rfl
  | cons hv _ ih =>
    cases hvs' with
    | cons hv' hvs' => rw [h.value_unique hv hv', ih _ hvs']

/-- The characters of a key. A text of digits is never empty, so the key of no types is no other key. -/
theorem splitOn_key {vs : List UInt64} (h : vs ≠ []) :
    (String.intercalate "," (vs.map fun v => hexText v.toNat)).toList.splitOn ',' =
      vs.map fun v => (hexText v.toNat).toList := by
  rw [String.toList_intercalate, List.map_map]
  refine List.splitOn_intercalate ',' (fun cs hcs => ?_) (by simpa using h)
  obtain ⟨v, -, rfl⟩ := List.mem_map.1 hcs
  exact notMem_hexText v.toNat

theorem key_ne_empty {v : UInt64} {vs : List UInt64} :
    String.intercalate "," ((v :: vs).map fun v => hexText v.toNat) ≠ "" := by
  intro h
  have hsplit := splitOn_key (List.cons_ne_nil v vs)
  rw [h] at hsplit
  have hhead : [] = (hexText v.toNat).toList := (List.cons.inj hsplit).1
  rw [hexText, String.toList_ofList] at hhead
  exact Nat.toDigits_ne_nil hhead.symm

theorem key_inj {vs ws : List UInt64} (h : String.intercalate "," (vs.map fun v => hexText v.toNat) =
    String.intercalate "," (ws.map fun v => hexText v.toNat)) : vs = ws := by
  cases vs with
  | nil =>
    cases ws with
    | nil => rfl
    | cons w ws => exact absurd h.symm key_ne_empty
  | cons v vs =>
    cases ws with
    | nil => exact absurd h key_ne_empty
    | cons w ws =>
      have hsplit := congrArg (fun s : String => s.toList.splitOn ',') h
      simp only [splitOn_key (List.cons_ne_nil _ _)] at hsplit
      refine List.map_injective_iff.2 (fun a b hab => ?_) hsplit
      exact UInt64.toNat_inj.1 (hexText_inj (String.toList_inj.1 hab))

/-- When there are enough values, a key belongs to one vector. -/
theorem Keyed.inj (h : f.Issues) (hlen : f.issued.length ≤ 2 ^ 64) {xs ys : List TypeId} {key : String}
    (hx : f.Keyed xs key) (hy : f.Keyed ys key) : xs = ys := by
  obtain ⟨vs, hvs, rfl⟩ := hx
  obtain ⟨ws, hws, hkey⟩ := hy
  obtain rfl := key_inj hkey
  clear hkey
  induction hvs generalizing ys with
  | nil =>
    cases hws
    rfl
  | cons hv _ ih =>
    cases hws with
    | cons hw hws => rw [h.id_unique hlen hv hw, ih hws]

end TreeCompiler.Fingerprints
