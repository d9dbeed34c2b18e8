import Mathlib.Data.Nat.Digits.Defs
import TreeCompiler.Types.Rules

/-!
# Tables of types only grow

* `TypeTable.Grows` : types are only added, each under its own key. What a number stands for, the number of a type and the
  structure of a type are the same in every later table;
* `Ty.key_cut` : the key of a type tells its structure from the way it is named, so that types of one key have structures of
  one key;
* `TypeTable.underlying?_named` : a type that is named anew keeps its structure.
-/

namespace TreeCompiler

/-! ## Texts -/

/-- A text is cut at the last place of a character in one way only. -/
theorem append_cons_inj {α : Type} {c : α} {xs ys xs' ys' : List α} (hy : c ∉ ys) (hy' : c ∉ ys')
    (h : xs ++ c :: ys = xs' ++ c :: ys') : xs = xs' ∧ ys = ys' := by
  rcases List.append_eq_append_iff.1 h with ⟨as, hxs, hys⟩ | ⟨as, hxs, hys⟩
  · cases as with
    | nil => exact ⟨by simpa using hxs.symm, by simpa using hys⟩
    | cons a as =>
      obtain ⟨-, rfl⟩ := List.cons.inj hys
      simp at hy
  · cases as with
    | nil => exact ⟨by simpa using hxs, by simpa using hys.symm⟩
    | cons a as =>
      obtain ⟨-, rfl⟩ := List.cons.inj hys
      simp at hy'

/-- A text is cut at the first place of a character in one way only. -/
theorem append_cons_inj' {α : Type} {c : α} {xs ys xs' ys' : List α} (hx : c ∉ xs) (hx' : c ∉ xs')
    (h : xs ++ c :: ys = xs' ++ c :: ys') : xs = xs' ∧ ys = ys' := by
  have hrev : ys.reverse ++ c :: xs.reverse = ys'.reverse ++ c :: xs'.reverse := by
    simpa using congrArg List.reverse h
  obtain ⟨hys, hxs⟩ := append_cons_inj (by simpa using hx) (by simpa using hx') hrev
  exact ⟨List.reverse_inj.1 hxs, List.reverse_inj.1 hys⟩

theorem notMem_toString {c : Char} (hc : c.isDigit = false) (n : Nat) : c ∉ (toString n).toList := by
  rw [Nat.toString_eq_ofList_toDigits, String.toList_ofList]
  intro h
  rw [Nat.isDigit_of_mem_toDigits (by decide) (by decide) h] at hc
  cases hc

theorem toString_inj {m n : Nat} (h : toString m = toString n) : m = n := by
  rw [Nat.toString_eq_ofList_toDigits, Nat.toString_eq_ofList_toDigits] at h
  have hdigits := congrArg String.toList h
  rw [String.toList_ofList, String.toList_ofList] at hdigits
  rw [← Nat.ofDigitChars_ten_toDigits (n := m), hdigits, Nat.ofDigitChars_ten_toDigits]

/-! ## Keys -/

namespace Ty

theorem notMem_keyId {c : Char} (hc : c.isDigit = false) (hcomma : c ≠ ',') (n : Nat) : c ∉ (keyId n).toList := by
  rw [keyId, String.toList_append, List.mem_append, not_or]
  exact ⟨notMem_toString hc n, by simpa using hcomma⟩

theorem notMem_join_keyId {c : Char} (hc : c.isDigit = false) (hcomma : c ≠ ',') (ns : List Nat) :
    c ∉ (String.join (ns.map keyId)).toList := by
  rw [String.toList_join]
  intro h
  obtain ⟨s, hs, hmem⟩ := List.mem_flatMap.1 h
  obtain ⟨n, -, rfl⟩ := List.mem_map.1 hs
  exact notMem_keyId hc hcomma n hmem

/-- The text of a key that comes from the structure. -/
def shapeText (s : Shape) : String :=
  String.singleton (Char.ofNat ((65 + s.kind.number) % 256)) ++ keyId s.elem ++ keyId s.key ++ keyId s.result ++ "(" ++
    String.join (s.params.map keyId) ++ (if s.variadic then "..." else "") ++ ")\x7b" ++
    String.join (s.fields.map fun f => f.name ++ ":" ++ keyId f.type) ++ "\x7d"

/-- The text of a key behind its structure. -/
def nameText (t : Ty) : String :=
  "<" ++ String.join (t.args.map keyId) ++ ">" ++ (if t.kind = .param then t.name else "")

theorem key_eq (t : Ty) : t.key = shapeText t.shape ++ ("#" ++ toString t.sym ++ nameText t) := by
  have hmark : "\x7d#" = "\x7d" ++ "#" := by decide
  unfold key
  dsimp only
  rw [hmark]
  unfold shapeText nameText kind
  simp only [String.append_assoc]

theorem toList_key (t : Ty) :
    t.key.toList = (shapeText t.shape).toList ++ '#' :: ((toString t.sym).toList ++ (nameText t).toList) := by
  rw [key_eq]
  simp only [String.toList_append, List.append_assoc]
  rfl

theorem toList_nameText (t : Ty) : (nameText t).toList =
    '<' :: ((String.join (t.args.map keyId)).toList ++ '>' :: (if t.kind = .param then t.name else "").toList) := by
  simp only [nameText, String.toList_append, List.append_assoc]
  rfl

/-- A type that is no placeholder has no further mark of a number in its key. -/
theorem notMem_tail {t : Ty} (h : t.kind ≠ .param) : '#' ∉ (toString t.sym).toList ++ (nameText t).toList := by
  rw [toList_nameText, if_neg h]
  simp only [List.mem_append, List.mem_cons, not_or]
  exact ⟨notMem_toString rfl _, by decide, notMem_join_keyId rfl (by decide) _, by decide, by decide⟩

theorem toList_shapeText_head (s : Shape) :
    (shapeText s).toList.head? = some (Char.ofNat ((65 + s.kind.number) % 256)) := by
  simp [shapeText, String.toList_append]

/-- A structure without fields has no mark of a number in its text. -/
theorem notMem_shapeText {s : Shape} (hf : s.fields = []) (hk : s.kind.number % 256 = TypeKind.param.number) :
    '#' ∉ (shapeText s).toList := by
  have hletter : (65 + s.kind.number) % 256 = 80 := by
    rw [Nat.add_mod, hk]
    rfl
  have hdots : '#' ∉ (if s.variadic then "..." else "").toList := by split <;> decide
  simp only [shapeText, hf, hletter, String.toList_append, List.mem_append, not_or, List.map_nil, String.join_nil]
  exact ⟨⟨⟨⟨⟨⟨⟨⟨⟨by decide, notMem_keyId rfl (by decide) _⟩, notMem_keyId rfl (by decide) _⟩,
    notMem_keyId rfl (by decide) _⟩, by decide⟩, notMem_join_keyId rfl (by decide) _⟩, hdots⟩, by decide⟩, by decide⟩, by decide⟩

theorem fields_of_number {s : Shape} (h : s.kind.number % 256 = TypeKind.param.number) : s.fields = [] := by
  cases s with
  | struct fs => exact absurd (show TypeKind.struct.number % 256 = TypeKind.param.number from h) (by decide)
  | union vs => exact absurd (show TypeKind.union.number % 256 = TypeKind.param.number from h) (by decide)
  | _ => rfl

theorem number_of_head {s s' : Shape} (h : (shapeText s).toList.head? = (shapeText s').toList.head?) :
    s.kind.number % 256 = s'.kind.number % 256 := by
  rw [toList_shapeText_head, toList_shapeText_head] at h
  have hn (n : Nat) (hlt : n < 256) : (Char.ofNat n).toNat = n := by
    have hvalid : n.isValidChar := .inl (by omega)
    rw [Char.ofNat, dif_pos hvalid]
    rfl
  have hchar := congrArg Char.toNat (Option.some.inj h)
  rw [hn _ (Nat.mod_lt _ (by decide)), hn _ (Nat.mod_lt _ (by decide))] at hchar
  omega

/-- Types of one key have structures of one text and one declaring symbol. -/
theorem key_cut {x y : Ty} (h : x.key = y.key) : shapeText x.shape = shapeText y.shape ∧ x.sym = y.sym := by
  have hlist : (shapeText x.shape).toList ++ '#' :: ((toString x.sym).toList ++ (nameText x).toList) =
      (shapeText y.shape).toList ++ '#' :: ((toString y.sym).toList ++ (nameText y).toList) := by
    rw [← toList_key, ← toList_key, h]
  have hhead : (shapeText x.shape).toList.head? = (shapeText y.shape).toList.head? := by
    have := congrArg List.head? hlist
    rwa [List.head?_append, List.head?_append, toList_shapeText_head, toList_shapeText_head, Option.some_or, Option.some_or,
      ← toList_shapeText_head, ← toList_shapeText_head] at this
  have hnum := number_of_head hhead
  -- a placeholder keeps its name at the end of its key, which may hold any mark; but then neither has fields
  have hcut : (shapeText x.shape).toList = (shapeText y.shape).toList ∧
      (toString x.sym).toList ++ (nameText x).toList = (toString y.sym).toList ++ (nameText y).toList := by
    by_cases hp : x.shape.kind.number % 256 = TypeKind.param.number
    · have hp' := hnum ▸ hp
      exact append_cons_inj' (notMem_shapeText (fields_of_number hp) hp) (notMem_shapeText (fields_of_number hp') hp') hlist
    · refine append_cons_inj (notMem_tail fun hk => hp ?_) (notMem_tail fun hk => hp ?_) hlist
      · rw [show x.shape.kind = .param from hk]
        rfl
      · rw [hnum, show y.shape.kind = .param from hk]
        rfl
  refine ⟨String.toList_inj.1 hcut.1, ?_⟩
  have hname := hcut.2
  rw [toList_nameText, toList_nameText] at hname
  have hsym := (append_cons_inj' (notMem_toString rfl _) (notMem_toString rfl _) hname).1
  exact toString_inj (String.toList_inj.1 hsym)

theorem key_shape (s : Shape) : ({ shape := s } : Ty).key = shapeText s ++ "#0<>" := by
  rw [key_eq]
  congr 1
  simp only [nameText]
  split <;> rfl

/-- Types of one key that have a name have structures of one key. -/
theorem key_bare {x y : Ty} (h : x.key = y.key) (hx : x.isNamed = true) : x.bare.key = y.bare.key := by
  obtain ⟨hshape, hsym⟩ := key_cut h
  have hy : y.isNamed = true := by
    rw [isNamed, ← hsym]
    exact hx
  rw [bare, if_pos hx, bare, if_pos hy, key_shape, key_shape, hshape]

end Ty

/-! ## Tables -/

namespace TypeTable

variable {t t' : TypeTable}

/-- Every type is entered under its own key. -/
def Keyed (t : TypeTable) : Prop := ∀ e ∈ t.entries, e.1 = e.2.key

def Grows (t t' : TypeTable) : Prop := ∃ more, t'.entries = t.entries ++ more ∧ ∀ e ∈ more, e.1 = e.2.key

namespace Grows

theorem refl (t : TypeTable) : t.Grows t := ⟨#[], by simp, by simp⟩

theorem trans {a b c : TypeTable} (h₁ : a.Grows b) (h₂ : b.Grows c) : a.Grows c := by
  obtain ⟨more₁, he₁, hk₁⟩ := h₁
  obtain ⟨more₂, he₂, hk₂⟩ := h₂
  refine ⟨more₁ ++ more₂, by rw [he₂, he₁, Array.append_assoc], fun e he => ?_⟩
  rcases Array.mem_append.1 he with he | he
  · exact hk₁ e he
  · exact hk₂ e he

theorem keyed (h : t.Grows t') (hk : t.Keyed) : t'.Keyed := by
  obtain ⟨more, he, hmore⟩ := h
  intro e hmem
  rw [he] at hmem
  rcases Array.mem_append.1 hmem with hmem | hmem
  · exact hk e hmem
  · exact hmore e hmem

theorem lookup? (h : t.Grows t') {id : TypeId} {ty : Ty} (hl : t.lookup? id = some ty) : t'.lookup? id = some ty := by
  obtain ⟨more, he, -⟩ := h
  unfold TypeTable.lookup? at hl ⊢
  split at hl
  · cases hl
  · rename_i h0
    obtain ⟨e, hget, rfl⟩ := Option.map_eq_some_iff.1 hl
    rw [if_neg h0, he, Array.getElem?_append_left (Array.getElem?_eq_some_iff.1 hget).1, hget]
    rfl

theorem find? (h : t.Grows t') {ty : Ty} {id : TypeId} (hf : t.find? ty = some id) : t'.find? ty = some id := by
  obtain ⟨more, he, -⟩ := h
  obtain ⟨i, hi, rfl⟩ := Option.map_eq_some_iff.1 hf
  unfold TypeTable.find?
  dsimp only
  rw [he, Array.findIdx?_append, hi]
  rfl

theorem underlying? (h : t.Grows t') {id b : TypeId} {ty : Ty} (hl : t.lookup? id = some ty)
    (hu : t.underlying? id = some b) : t'.underlying? id = some b := by
  unfold TypeTable.underlying? at hu ⊢
  rw [hl] at hu
  rw [h.lookup? hl]
  dsimp only at hu ⊢
  split at hu
  · rename_i hn
    rw [if_pos hn]
    exact h.find? hu
  · rename_i hn
    rw [if_neg hn]
    exact hu

end Grows

/-! ### Entering types -/

theorem lookup?_pos {id : Nat} {ty : Ty} (h : t.lookup? id = some ty) : id ≠ 0 := by
  rintro rfl
  cases h

theorem lookup?_le {id : Nat} {ty : Ty} (h : t.lookup? id = some ty) : id ≤ t.size := by
  unfold lookup? at h
  split at h
  · cases h
  · obtain ⟨e, he, -⟩ := Option.map_eq_some_iff.1 h
    have hlt := (Array.getElem?_eq_some_iff.1 he).1
    unfold size
    omega

theorem lookup?_beyond {id : Nat} (h : t.size < id) : t.lookup? id = none := by
  cases hl : t.lookup? id with
  | none => rfl
  | some ty => exact absurd (lookup?_le hl) (Nat.not_le.2 h)

/-- A table grows by one type at most. -/
theorem lookup?_intern {id : Nat} {ty f : Ty} (h : (t.intern ty).2.lookup? id = some f) :
    t.lookup? id = some f ∨ f = ty ∧ id = t.size + 1 := by
  have h0 := lookup?_pos h
  unfold TypeTable.intern at h
  split at h
  · exact .inl h
  · split at h
    · exact .inl h
    · rw [lookup?, if_neg h0, Array.getElem?_push] at h
      split at h
      · rename_i hid
        cases h
        refine .inr ⟨rfl, ?_⟩
        unfold size
        omega
      · refine .inl ?_
        rw [lookup?, if_neg h0]
        exact h

theorem grows_intern (t : TypeTable) (ty : Ty) : t.Grows (t.intern ty).2 := by
  unfold intern
  split
  · exact .refl t
  · split
    · exact .refl t
    · exact ⟨#[(ty.key, ty)], rfl, by simp⟩

theorem grows_named? {base : TypeId} {sym : Nat} {name : String} {args : List TypeId} {r : TypeId × TypeTable}
    (h : t.named? base sym name args = some r) : t.Grows r.2 := by
  obtain ⟨ty, -, rfl⟩ := Option.map_eq_some_iff.1 h
  exact grows_intern t _

theorem grows_underlying (t : TypeTable) (id : TypeId) : t.Grows (t.underlying id).2 := by
  unfold underlying
  split
  · exact .refl t
  · split
    · exact grows_intern t _
    · exact .refl t

theorem grows_explicitCast (t : TypeTable) (source target : TypeId) : t.Grows (t.explicitCast source target).2 := by
  have h := (grows_underlying t source).trans (grows_underlying (t.underlying source).2 target)
  unfold explicitCast
  split
  · exact .refl t
  · split
    · exact .refl t
    · dsimp only
      split <;> exact h

/-- A type that was entered is found under its number. -/
theorem find?_intern {ty : Ty} (hk : ty.kind ≠ .invalid) : (t.intern ty).2.find? ty = some (t.intern ty).1 := by
  unfold intern
  rw [if_neg hk]
  cases hf : t.find? ty with
  | some id => exact hf
  | none =>
    have hnone : t.entries.findIdx? (fun e => e.1 == ty.key) = none := by simpa [find?] using hf
    simp [find?, Array.findIdx?_push, hnone]

/-- The type under the number that was found has the key that was looked for. -/
theorem lookup?_of_find? (hk : t.Keyed) {ty : Ty} {id : TypeId} (h : t.find? ty = some id) :
    ∃ ty', t.lookup? id = some ty' ∧ ty'.key = ty.key := by
  obtain ⟨i, hi, rfl⟩ := Option.map_eq_some_iff.1 h
  obtain ⟨hlt, hkey, -⟩ := Array.findIdx?_eq_some_iff_getElem.1 hi
  refine ⟨t.entries[i].2, ?_, ?_⟩
  · unfold lookup?
    rw [if_neg (Nat.succ_ne_zero i), Nat.add_sub_cancel, Array.getElem?_eq_getElem hlt]
    rfl
  · rw [← hk _ (Array.getElem_mem hlt)]
    simpa using hkey

theorem find?_congr_key {x y : Ty} (h : x.key = y.key) : t.find? x = t.find? y := by
  unfold find?
  rw [h]

/-- A structure that was found is its own structure. -/
theorem underlying?_of_find? (hk : t.Keyed) {s : Shape} {id : TypeId} (h : t.find? { shape := s } = some id) :
    t.underlying? id = some id := by
  obtain ⟨ty, hl, hkey⟩ := lookup?_of_find? hk h
  unfold underlying?
  rw [hl]
  dsimp only
  rw [if_neg]
  rw [Ty.isNamed, (Ty.key_cut hkey).2]
  simp

/-- The number of a structure is found from the type under it. -/
theorem find?_shape (hk : t.Keyed) {s : Shape} {id : TypeId} {ty : Ty} (h : t.find? { shape := s } = some id)
    (hl : t.lookup? id = some ty) : t.find? { shape := ty.shape } = some id := by
  obtain ⟨ty', hl', hkey⟩ := lookup?_of_find? hk h
  rw [hl] at hl'
  cases hl'
  rw [← h]
  refine find?_congr_key ?_
  rw [Ty.key_shape, Ty.key_shape, (Ty.key_cut hkey).1]

/-- Structures under one number are of one kind. -/
theorem kind_of_find? (hk : t.Keyed) {s s' : Shape} {id : TypeId} (h : t.find? { shape := s } = some id)
    (h' : t.find? { shape := s' } = some id) : s.kind.number % 256 = s'.kind.number % 256 := by
  obtain ⟨ty, hl, hkey⟩ := lookup?_of_find? hk h
  obtain ⟨ty', hl', hkey'⟩ := lookup?_of_find? hk h'
  cases hl.symm.trans hl'
  refine Ty.number_of_head ?_
  rw [← (Ty.key_cut hkey).1, ← (Ty.key_cut hkey').1]

/-- A type has a structure of its own, or it is one. -/
theorem underlying?_cases {id b : TypeId} {ty : Ty} (hl : t.lookup? id = some ty) (hu : t.underlying? id = some b) :
    t.find? { shape := ty.shape } = some b ∨ id = b := by
  unfold underlying? at hu
  rw [hl] at hu
  dsimp only at hu
  split at hu
  · rename_i hn
    rw [Ty.bare, if_pos hn] at hu
    exact .inl hu
  · exact .inr (Option.some.inj hu)

/-- The structure of a type is its own structure. -/
theorem underlying?_underlying (hk : t.Keyed) {id b : TypeId} (hu : t.underlying? id = some b) : t.underlying? b = some b := by
  cases hl : t.lookup? id with
  | none =>
    have hid : t.underlying? id = some id := by rw [underlying?, hl]
    cases hu.symm.trans hid
    exact hid
  | some ty =>
    rcases underlying?_cases hl hu with hbare | rfl
    · exact underlying?_of_find? hk hbare
    · exact hu

/-- A type that is named anew keeps its structure, if that has a number. -/
theorem underlying?_named (hk : t.Keyed) {id b : TypeId} {ty : Ty} {sym : Nat} {name : String} {args : List TypeId}
    (hsym : sym ≠ 0) (hbare : t.find? { shape := ty.shape } = some b) (h : t.find? { ty with sym, name, args } = some id) :
    t.underlying? id = some b := by
  obtain ⟨ty', hl, hkey⟩ := lookup?_of_find? hk h
  have hnamed : ({ ty with sym, name, args } : Ty).isNamed = true := by simp [Ty.isNamed, hsym]
  have hbare' := Ty.key_bare hkey.symm hnamed
  have hnamed' : ty'.isNamed = true := by
    rw [Ty.isNamed, (Ty.key_cut hkey).2]
    exact hnamed
  unfold underlying?
  rw [hl]
  dsimp only
  rw [if_pos hnamed', find?_congr_key hbare'.symm]
  simpa [Ty.bare, hnamed] using hbare

end TypeTable

end TreeCompiler
