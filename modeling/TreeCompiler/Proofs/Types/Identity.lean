import TreeCompiler.Proofs.Types.Growth

/-!
# Which types share a number

A type is entered under its key, a text that runs its parts together. All parts can be read back from the key but the
fields, as the name of a field may hold what ends a field.

* `Ty.Alike` : types that agree in all that keys show besides fields; `Ty.key_eq_iff` : types of one key;
* `TyField.IsPlain` : a field whose name holds no end of a field; `Ty.fieldText_inj` : these can be read back;
* `TypeCall`, `TypeTable.issue` : constructor calls one after another, with the types they ask for and the numbers they
  give;
* `TypeTable.Indexed` : every type is found under its own number; `call_indexed` : a call keeps it;
* `TypeTable.issued_eq_iff` : which of the numbers are equal, and what they stand for later on;
* `TypeTable.struct_conflates` : a struct whose field has any other name shares its number with another struct.
-/

namespace TreeCompiler

namespace TypeKind

/-- One of the kinds that have a name. -/
def Known (k : TypeKind) : Prop := ∀ n, k ≠ other n

theorem Known.ofNumber_number {k : TypeKind} (h : k.Known) : ofNumber k.number = k ∧ k.number < 256 := by
  cases k with
  | other n => exact absurd rfl (h n)
  | _ => exact ⟨rfl, by decide⟩

theorem Known.eq_of_number {k k' : TypeKind} (h : k.Known) (h' : k'.Known)
    (hn : k.number % 256 = k'.number % 256) : k = k' := by
  obtain ⟨hk, hlt⟩ := h.ofNumber_number
  obtain ⟨hk', hlt'⟩ := h'.ofNumber_number
  rw [Nat.mod_eq_of_lt hlt, Nat.mod_eq_of_lt hlt'] at hn
  rw [← hk, hn, hk']

end TypeKind

/-! ## Keys read back -/

namespace Ty

theorem toList_keyId (n : Nat) : (keyId n).toList = (toString n).toList ++ [','] := by
  rw [keyId, String.toList_append]
  rfl

/-- A number ends at the first comma. -/
theorem keyId_append_inj {m n : Nat} {xs ys : List Char} (h : (keyId m).toList ++ xs = (keyId n).toList ++ ys) :
    m = n ∧ xs = ys := by
  rw [toList_keyId, toList_keyId, List.append_assoc, List.append_assoc] at h
  obtain ⟨htext, hrest⟩ := append_cons_inj' (notMem_toString rfl m) (notMem_toString rfl n) h
  exact ⟨toString_inj (String.toList_inj.1 htext), hrest⟩

theorem keyId_append_ne_nil (n : Nat) (xs : List Char) : (keyId n).toList ++ xs ≠ [] := by
  simp [toList_keyId]

theorem toList_join_keyId (ns : List Nat) :
    (String.join (ns.map keyId)).toList = ns.flatMap fun n => (keyId n).toList := by
  rw [String.toList_join, List.flatMap_map]

theorem join_keyId_inj {ms ns : List Nat}
    (h : (String.join (ms.map keyId)).toList = (String.join (ns.map keyId)).toList) : ms = ns := by
  rw [toList_join_keyId, toList_join_keyId] at h
  induction ms generalizing ns with
  | nil =>
    cases ns with
    | nil => rfl
    | cons n ns => exact absurd h.symm (keyId_append_ne_nil n _)
  | cons m ms ih =>
    cases ns with
    | nil => exact absurd h (keyId_append_ne_nil m _)
    | cons n ns =>
      obtain ⟨rfl, hrest⟩ := keyId_append_inj h
      rw [ih hrest]

/-- The text of the fields in a key. -/
def fieldText (fs : List TyField) : String := String.join (fs.map fun f => f.name ++ ":" ++ keyId f.type)

theorem toList_fieldText (fs : List TyField) :
    (fieldText fs).toList = fs.flatMap fun f => f.name.toList ++ ':' :: (keyId f.type).toList := by
  rw [fieldText, String.toList_join, List.flatMap_map]
  simp [String.toList_append]

/-- The mark behind the parameters of a function that takes more. -/
def dots (variadic : Bool) : List Char := if variadic then ['.', '.', '.'] else []

theorem mem_dots {c : Char} {variadic : Bool} : c ∈ dots variadic ↔ variadic = true ∧ c = '.' := by
  cases variadic <;> simp [dots]

/-- The parameters of a key and whether there may be more. -/
theorem params_inj {ms ns : List Nat} {v w : Bool}
    (h : (String.join (ms.map keyId)).toList ++ dots v = (String.join (ns.map keyId)).toList ++ dots w) :
    ms = ns ∧ v = w := by
  have hdot (ks : List Nat) : '.' ∉ (String.join (ks.map keyId)).toList := notMem_join_keyId rfl (by decide) ks
  have hmem (ks : List Nat) (u : Bool) : '.' ∈ (String.join (ks.map keyId)).toList ++ dots u ↔ u = true := by
    rw [List.mem_append, or_iff_right (hdot ks), mem_dots, and_iff_left rfl]
  obtain rfl : v = w := by
    rw [Bool.eq_iff_iff, ← hmem ms v, ← hmem ns w, h]
  exact ⟨join_keyId_inj (List.append_cancel_right h), rfl⟩

/-- The types agree in all that a key shows besides their fields. -/
structure Alike (x y : Ty) : Prop where
  kind : x.kind = y.kind
  elem : x.shape.elem = y.shape.elem
  key : x.shape.key = y.shape.key
  result : x.shape.result = y.shape.result
  params : x.shape.params = y.shape.params
  variadic : x.shape.variadic = y.shape.variadic
  sym : x.sym = y.sym
  args : x.args = y.args
  name : x.kind = .param → x.name = y.name

theorem toList_shapeText (s : Shape) : (shapeText s).toList =
    Char.ofNat ((65 + s.kind.number) % 256) ::
      ((keyId s.elem).toList ++ ((keyId s.key).toList ++ ((keyId s.result).toList ++
        '(' :: (((String.join (s.params.map keyId)).toList ++ dots s.variadic) ++
          ')' :: '\x7b' :: ((fieldText s.fields).toList ++ ['\x7d']))))) := by
  have hdots : (if s.variadic then "..." else "").toList = dots s.variadic := by
    cases s.variadic <;> rfl
  have hclose : ")\x7b".toList = [')', '\x7b'] := by decide
  simp only [shapeText, fieldText, String.toList_append, hdots, hclose, String.toList_singleton, List.append_assoc,
    List.cons_append, List.nil_append]
  rfl

/-- The parts of a structure, read off its text from the front. -/
theorem shapeText_inj {s s' : Shape} (hk : s.kind.Known) (hk' : s'.kind.Known) (h : shapeText s = shapeText s') :
    s.kind = s'.kind ∧ s.elem = s'.elem ∧ s.key = s'.key ∧ s.result = s'.result ∧ s.params = s'.params ∧
      s.variadic = s'.variadic ∧ fieldText s.fields = fieldText s'.fields := by
  have hnum : s.kind.number % 256 = s'.kind.number % 256 := number_of_head (by rw [h])
  have hlist := congrArg String.toList h
  rw [toList_shapeText, toList_shapeText] at hlist
  obtain ⟨helem, hlist⟩ := keyId_append_inj (List.cons.inj hlist).2
  obtain ⟨hkey, hlist⟩ := keyId_append_inj hlist
  obtain ⟨hresult, hlist⟩ := keyId_append_inj hlist
  have hclose (ks : List Nat) (v : Bool) : ')' ∉ (String.join (ks.map keyId)).toList ++ dots v := by
    rw [List.mem_append, mem_dots, not_or]
    exact ⟨notMem_join_keyId rfl (by decide) ks, fun h => absurd h.2 (by decide)⟩
  obtain ⟨hparams, hlist⟩ := append_cons_inj' (hclose _ _) (hclose _ _) (List.cons.inj hlist).2
  obtain ⟨hparams, hvariadic⟩ := params_inj hparams
  have hfields := List.append_cancel_right (List.cons.inj hlist).2
  exact ⟨hk.eq_of_number hk' hnum, helem, hkey, hresult, hparams, hvariadic, String.toList_inj.1 hfields⟩

theorem nameText_inj {x y : Ty} (hk : x.kind = y.kind) (h : nameText x = nameText y) :
    x.args = y.args ∧ (x.kind = .param → x.name = y.name) := by
  have hlist := congrArg String.toList h
  rw [toList_nameText, toList_nameText] at hlist
  have hend (ks : List Nat) : '>' ∉ (String.join (ks.map keyId)).toList := notMem_join_keyId rfl (by decide) ks
  obtain ⟨hargs, hname⟩ := append_cons_inj' (hend _) (hend _) (List.cons.inj hlist).2
  refine ⟨join_keyId_inj hargs, fun hp => ?_⟩
  rw [if_pos hp, if_pos (hk ▸ hp)] at hname
  exact String.toList_inj.1 hname

/-- A key shows everything but where a field ends. -/
theorem key_eq_iff {x y : Ty} (hx : x.kind.Known) (hy : y.kind.Known) :
    x.key = y.key ↔ x.Alike y ∧ fieldText x.shape.fields = fieldText y.shape.fields := by
  constructor
  · intro h
    obtain ⟨hshape, hsym⟩ := key_cut h
    obtain ⟨hkind, helem, hkey, hresult, hparams, hvariadic, hfields⟩ := shapeText_inj hx hy hshape
    have hlist := congrArg String.toList h
    rw [toList_key, toList_key, hshape, hsym, List.append_cancel_left_eq, List.cons.injEq, List.append_cancel_left_eq,
      String.toList_inj] at hlist
    obtain ⟨hargs, hname⟩ := nameText_inj hkind hlist.2
    exact ⟨⟨hkind, helem, hkey, hresult, hparams, hvariadic, hsym, hargs, hname⟩, hfields⟩
  · rintro ⟨h, hfields⟩
    have hkind : x.shape.kind = y.shape.kind := h.kind
    have hshape : shapeText x.shape = shapeText y.shape := by
      apply String.toList_inj.1
      rw [toList_shapeText, toList_shapeText, hkind, h.elem, h.key, h.result, h.params, h.variadic, hfields]
    have hname : nameText x = nameText y := by
      unfold nameText
      rw [h.args]
      by_cases hp : x.kind = .param
      · rw [if_pos hp, if_pos (h.kind ▸ hp), h.name hp]
      · rw [if_neg hp, if_neg (h.kind ▸ hp)]
    rw [key_eq, key_eq, hshape, h.sym, hname]

end Ty

/-! ## Names of fields -/

/-- No part of the name reads as the end of a field: a colon, a number and a comma. -/
def TyField.IsPlain (f : TyField) : Prop := ∀ n : Nat, ¬(':' :: (Ty.keyId n).toList) <:+: f.name.toList

theorem TyField.isPlain_of_notMem {f : TyField} (h : ':' ∉ f.name.toList) : f.IsPlain :=
  fun _ hn => h (hn.subset List.mem_cons_self)

namespace Ty

/-- A plain name cannot reach over the end of a field that starts with the same characters. -/
theorem plain_cut {f : TyField} (hf : f.IsPlain) {as xs ys : List Char} {m n : Nat}
    (h : f.name.toList ++ ':' :: ((keyId m).toList ++ xs) = as ++ ':' :: ((keyId n).toList ++ ys)) :
    ¬∃ c cs, f.name.toList = as ++ c :: cs := by
  rintro ⟨c, cs, hname⟩
  rw [hname, List.append_assoc, List.append_cancel_left_eq, List.cons_append, List.cons.injEq] at h
  obtain ⟨rfl, h⟩ := h
  have hcolon : ':' ∉ (keyId n).toList := notMem_keyId rfl (by decide) n
  -- the number behind the shorter name ends within the longer one, or it would hold a colon
  rcases List.append_eq_append_iff.1 h with ⟨bs, hn, htail⟩ | ⟨bs, hcs, -⟩
  · cases bs with
    | nil =>
      refine hf n ⟨as, [], ?_⟩
      rw [hname, hn]
      simp
    | cons b bs =>
      obtain ⟨rfl, -⟩ := List.cons.inj htail
      exact hcolon (hn ▸ by simp)
  · refine hf n ⟨as, bs, ?_⟩
    rw [hname, hcs]
    simp

/-- A field of a plain name ends at the first place where a field can end. -/
theorem cut_field {f g : TyField} (hf : f.IsPlain) (hg : g.IsPlain) {xs ys : List Char}
    (h : f.name.toList ++ ':' :: ((keyId f.type).toList ++ xs) = g.name.toList ++ ':' :: ((keyId g.type).toList ++ ys)) :
    f = g ∧ xs = ys := by
  have hname : f.name.toList = g.name.toList := by
    have hlong := plain_cut hf h
    have hlong' := plain_cut hg h.symm
    rcases List.append_eq_append_iff.1 h with ⟨bs, hbs, -⟩ | ⟨bs, hbs, -⟩
    · cases bs with
      | nil => simpa using hbs.symm
      | cons b bs => exact absurd ⟨b, bs, hbs⟩ hlong'
    · cases bs with
      | nil => simpa using hbs
      | cons b bs => exact absurd ⟨b, bs, hbs⟩ hlong
  rw [hname, List.append_cancel_left_eq, List.cons.injEq] at h
  obtain ⟨htype, hrest⟩ := keyId_append_inj h.2
  obtain ⟨name, type⟩ := f
  obtain ⟨name', type'⟩ := g
  obtain rfl : name = name' := String.toList_inj.1 hname
  obtain rfl : type = type' := htype
  exact ⟨rfl, hrest⟩

theorem fieldText_inj {fs gs : List TyField} (hf : ∀ f ∈ fs, f.IsPlain) (hg : ∀ g ∈ gs, g.IsPlain)
    (h : fieldText fs = fieldText gs) : fs = gs := by
  have hlist := congrArg String.toList h
  rw [toList_fieldText, toList_fieldText] at hlist
  clear h
  induction fs generalizing gs with
  | nil =>
    cases gs with
    | nil => rfl
    | cons g gs => simp at hlist
  | cons f fs ih =>
    cases gs with
    | nil => simp at hlist
    | cons g gs =>
      simp only [List.flatMap_cons, List.append_assoc, List.cons_append] at hlist
      obtain ⟨rfl, hrest⟩ := cut_field (hf f List.mem_cons_self) (hg g List.mem_cons_self) hlist
      rw [ih (fun f hmem => hf f (List.mem_cons_of_mem _ hmem)) (fun g hmem => hg g (List.mem_cons_of_mem _ hmem)) hrest]

/-- A field of any other name reads as two fields. -/
theorem fieldText_conflates {f : TyField} (h : ¬f.IsPlain) : ∃ g g' : TyField, fieldText [f] = fieldText [g, g'] := by
  unfold TyField.IsPlain at h
  push Not at h
  obtain ⟨n, as, bs, hname⟩ := h
  refine ⟨⟨String.ofList as, n⟩, ⟨String.ofList bs, f.type⟩, ?_⟩
  apply String.toList_inj.1
  rw [toList_fieldText, toList_fieldText]
  simp [← hname]

end Ty

/-! ## Calls -/

/-- A call of one of the constructors of types. -/
inductive TypeCall
  | array (elem : TypeId)
  | map (key elem : TypeId)
  | tuple (elems : List TypeId)
  | func (params : List TypeId) (variadic : Bool) (result : TypeId)
  | struct (fields : List TyField)
  | union (variants : List TyField)
  | param (name : String) (index : Nat)
  | named (base : TypeId) (sym : Nat) (name : String) (args : List TypeId)
  | underlying (id : TypeId)
deriving DecidableEq, Repr

namespace TypeTable

variable {t : TypeTable}

/-- The type that a call asks for; none when the call is about a number that stands for no type. -/
def asked? (t : TypeTable) : TypeCall → Option Ty
  | .array elem => some { shape := .array elem }
  | .map key elem => some { shape := .map key elem }
  | .tuple elems => some { shape := .tuple elems }
  | .func params variadic result => some { shape := .func params variadic result }
  | .struct fields => some { shape := .struct fields }
  | .union variants => some { shape := .union variants }
  | .param name index => some { shape := .param index, name }
  | .named base sym name args => (t.lookup? base).map fun ty => { ty with sym, name, args }
  | .underlying id => t.bare? id

/-- The number that a call gives. A new name for no type is refused. -/
def call (t : TypeTable) : TypeCall → TypeId × TypeTable
  | .array elem => t.array elem
  | .map key elem => t.map key elem
  | .tuple elems => t.tuple elems
  | .func params variadic result => t.func params variadic result
  | .struct fields => t.struct fields
  | .union variants => t.union variants
  | .param name index => t.param name index
  | .named base sym name args => (t.named? base sym name args).getD (0, t)
  | .underlying id => t.underlying id

/-- One call after another: the types asked for with the numbers given, and the table at the end. -/
def issue (t : TypeTable) : List TypeCall → List (Ty × TypeId) × TypeTable
  | [] => ([], t)
  | c :: cs =>
    let (id, t') := t.call c
    let (log, last) := t'.issue cs
    ((t.asked? c).toList.map (·, id) ++ log, last)

/-- Every type is found under its own number. -/
structure Indexed (t : TypeTable) : Prop where
  keyed : t.Keyed
  own : ∀ id ty, t.lookup? id = some ty → t.find? ty = some id
  known : ∀ id ty, t.lookup? id = some ty → ty.kind.Known ∧ ty.kind ≠ .invalid

/-- A number that was not in use is the number of the type that was entered. -/
theorem intern_new {ty x : Ty} (h : (t.intern ty).2.lookup? (t.size + 1) = some x) : (t.intern ty).1 = t.size + 1 := by
  have hfree : t.lookup? (t.size + 1) ≠ some x := by
    intro hx
    have := lookup?_le hx
    omega
  unfold TypeTable.intern at h ⊢
  by_cases hk : ty.kind = .invalid
  · rw [if_pos hk] at h
    exact absurd h hfree
  · rw [if_neg hk] at h ⊢
    cases hf : t.find? ty with
    | some id =>
      rw [hf] at h
      exact absurd h hfree
    | none => rfl

theorem Indexed.intern (h : t.Indexed) {ty : Ty} (hk : ty.kind.Known) (hi : ty.kind ≠ .invalid) :
    (t.intern ty).2.Indexed where
  keyed := (grows_intern t ty).keyed h.keyed
  own id x hx := by
    rcases lookup?_intern hx with hx' | ⟨rfl, rfl⟩
    · exact (grows_intern t ty).find? (h.own id x hx')
    · rw [find?_intern hi, intern_new hx]
  known id x hx := by
    rcases lookup?_intern hx with hx | ⟨rfl, -⟩
    · exact h.known id x hx
    · exact ⟨hk, hi⟩

theorem indexed_initial : initial.Indexed := by
  have hempty : Indexed {} :=
    ⟨fun e he => by simp at he, fun id ty h => by simp [lookup?] at h, fun id ty h => by simp [lookup?] at h⟩
  have hstep (ks : List TypeKind) (hks : ∀ k ∈ ks, k.Known ∧ k ≠ .invalid) (t : TypeTable) (ht : t.Indexed) :
      (ks.foldl (fun t k => (t.intern { shape := .scalar k }).2) t).Indexed := by
    induction ks generalizing t with
    | nil => exact ht
    | cons k ks ih =>
      obtain ⟨hk, hi⟩ := hks k List.mem_cons_self
      exact ih (fun k hmem => hks k (List.mem_cons_of_mem _ hmem)) _ (ht.intern hk hi)
  apply hstep _ _ _ hempty
  intro k hk
  simp only [List.mem_cons, List.not_mem_nil, or_false] at hk
  rcases hk with rfl | rfl | rfl | rfl | rfl | rfl | rfl | rfl <;> exact ⟨by rintro n ⟨⟩, by decide⟩

theorem grows_call (t : TypeTable) (c : TypeCall) : t.Grows (t.call c).2 := by
  cases c with
  | named base sym name args =>
    show t.Grows ((t.named? base sym name args).getD (0, t)).2
    cases hn : t.named? base sym name args with
    | none => exact .refl t
    | some r => exact grows_named? hn
  | underlying id => exact grows_underlying t id
  | _ => exact grows_intern t _

/-- A call that asks for a type enters it. -/
theorem call_indexed (h : t.Indexed) {c : TypeCall} {ty : Ty} (hc : t.asked? c = some ty) :
    (t.call c).2.Indexed ∧ (t.call c).2.find? ty = some (t.call c).1 ∧ ty.kind.Known := by
  have hintern (x : Ty) (hk : x.kind.Known) (hi : x.kind ≠ .invalid) :
      (t.intern x).2.Indexed ∧ (t.intern x).2.find? x = some (t.intern x).1 ∧ x.kind.Known :=
    ⟨h.intern hk hi, find?_intern hi, hk⟩
  cases c with
  | named base sym name args =>
    obtain ⟨x, hx, rfl⟩ := Option.map_eq_some_iff.1 hc
    obtain ⟨hk, hi⟩ := h.known base x hx
    have hcall : t.call (.named base sym name args) = t.intern { x with sym, name, args } := by
      simp [call, named?, hx]
    rw [hcall]
    exact hintern _ hk hi
  | underlying id =>
    obtain ⟨x, hx, rfl⟩ := Option.map_eq_some_iff.1 hc
    obtain ⟨hk, hi⟩ := h.known id x hx
    have hcall : t.call (.underlying id) = if x.isNamed then t.intern x.bare else (id, t) := by
      simp [call, underlying, hx]
    rw [hcall]
    by_cases hn : x.isNamed = true
    · rw [if_pos hn, Ty.bare, if_pos hn]
      exact hintern _ hk hi
    · rw [if_neg hn, Ty.bare, if_neg hn]
      exact ⟨h, h.own id x hx, hk⟩
  | _ =>
    obtain rfl := Option.some.inj hc
    exact hintern _ (by rintro n ⟨⟩) (by rintro ⟨⟩)

/-- A call that asks for nothing changes nothing. -/
theorem call_refused {c : TypeCall} (hc : t.asked? c = none) : (t.call c).2 = t := by
  cases c with
  | named base sym name args =>
    have hbase : t.lookup? base = none := Option.map_eq_none_iff.1 hc
    simp [call, named?, hbase]
  | underlying id =>
    have hid : t.lookup? id = none := Option.map_eq_none_iff.1 hc
    simp [call, underlying, hid]
  | _ => cases hc

theorem Indexed.call (h : t.Indexed) (c : TypeCall) : (t.call c).2.Indexed := by
  cases hc : t.asked? c with
  | none => exact (call_refused hc).symm ▸ h
  | some ty => exact (call_indexed h hc).1

theorem Indexed.issue (h : t.Indexed) (cs : List TypeCall) : (t.issue cs).2.Indexed := by
  induction cs generalizing t with
  | nil => exact h
  | cons c cs ih => exact ih (h.call c)

theorem grows_issue (t : TypeTable) (cs : List TypeCall) : t.Grows (t.issue cs).2 := by
  induction cs generalizing t with
  | nil => exact .refl t
  | cons c cs ih => exact (grows_call t c).trans (ih _)

theorem issue_append (t : TypeTable) (cs more : List TypeCall) :
    (t.issue (cs ++ more)).2 = ((t.issue cs).2.issue more).2 := by
  induction cs generalizing t with
  | nil => rfl
  | cons c cs ih => exact ih _

/-- At the end, the type of every call is found under the number that the call gave. -/
theorem find?_of_issued (h : t.Indexed) {cs : List TypeCall} {x : Ty} {a : TypeId} (hx : (x, a) ∈ (t.issue cs).1) :
    (t.issue cs).2.find? x = some a ∧ x.kind.Known := by
  induction cs generalizing t with
  | nil => cases hx
  | cons c cs ih =>
    rcases List.mem_append.1 hx with hx | hx
    · obtain ⟨ty, hty, heq⟩ := List.mem_map.1 hx
      obtain ⟨rfl, rfl⟩ := Prod.mk.inj heq
      obtain ⟨-, hfind, hk⟩ := call_indexed h (Option.mem_toList.1 hty)
      exact ⟨(grows_issue _ cs).find? hfind, hk⟩
    · exact ih (h.call c) hx

/-- Types that are found under numbers have one number when they have one key. -/
theorem number_eq_iff (hk : t.Keyed) {x y : Ty} {a b : TypeId} (hx : t.find? x = some a) (hy : t.find? y = some b) :
    a = b ↔ x.key = y.key := by
  constructor
  · rintro rfl
    obtain ⟨x', hx', hkey⟩ := lookup?_of_find? hk hx
    obtain ⟨y', hy', hkey'⟩ := lookup?_of_find? hk hy
    obtain rfl := Option.some.inj (hx'.symm.trans hy')
    rw [← hkey, hkey']
  · intro h
    rw [find?_congr_key h, hy] at hx
    exact (Option.some.inj hx).symm

/-- A struct whose field has a name that is not plain gets the number of a struct of two fields. -/
theorem struct_conflates (t : TypeTable) {f : TyField} (h : ¬f.IsPlain) :
    ∃ g g' : TyField, ((t.struct [g, g']).2.struct [f]).1 = (t.struct [g, g']).1 := by
  obtain ⟨g, g', htext⟩ := Ty.fieldText_conflates h
  have hkey : ({ shape := .struct [f] } : Ty).key = ({ shape := .struct [g, g'] } : Ty).key := by
    have hshape : Ty.shapeText (.struct [f]) = Ty.shapeText (.struct [g, g']) := by
      apply String.toList_inj.1
      rw [Ty.toList_shapeText, Ty.toList_shapeText]
      simp [Shape.fields, Shape.kind, Shape.elem, Shape.key, Shape.result, Shape.params, Shape.variadic, htext]
    rw [Ty.key_shape, Ty.key_shape, hshape]
  refine ⟨g, g', ?_⟩
  have hfind : (t.struct [g, g']).2.find? { shape := .struct [f] } = some (t.struct [g, g']).1 := by
    rw [find?_congr_key hkey]
    exact find?_intern nofun
  have hkind : ({ shape := .struct [f] } : Ty).kind ≠ .invalid := nofun
  show ((t.struct [g, g']).2.intern { shape := .struct [f] }).1 = _
  unfold TypeTable.intern
  rw [if_neg hkind, hfind]

/-- Two calls give one number when the types they ask for agree in all but fields and the texts of their fields are the
same, which for plain names are the same fields; any other name makes two structs share a number. A number stands for what
was asked for, and for the same type ever after. -/
theorem issued_eq_iff (cs : List TypeCall) :
    (∀ x a y b, (x, a) ∈ (initial.issue cs).1 → (y, b) ∈ (initial.issue cs).1 →
      (a = b ↔ x.Alike y ∧ Ty.fieldText x.shape.fields = Ty.fieldText y.shape.fields) ∧
      ((∀ f ∈ x.shape.fields, f.IsPlain) → (∀ f ∈ y.shape.fields, f.IsPlain) →
        (a = b ↔ x.Alike y ∧ x.shape.fields = y.shape.fields))) ∧
    (∀ (t : TypeTable) (f : TyField), ¬f.IsPlain →
      ∃ g g' : TyField, ((t.struct [g, g']).2.struct [f]).1 = (t.struct [g, g']).1) ∧
    (∀ x a, (x, a) ∈ (initial.issue cs).1 → ∃ ty, (initial.issue cs).2.lookup? a = some ty ∧ x.Alike ty ∧
      Ty.fieldText x.shape.fields = Ty.fieldText ty.shape.fields) ∧
    ∀ more id ty, (initial.issue cs).2.lookup? id = some ty → (initial.issue (cs ++ more)).2.lookup? id = some ty := by
  have hi : (initial.issue cs).2.Indexed := indexed_initial.issue cs
  refine ⟨fun x a y b hx hy => ?_, fun t f hf => struct_conflates t hf, fun x a hx => ?_, fun more id ty hl => ?_⟩
  · obtain ⟨hx, hkx⟩ := find?_of_issued indexed_initial hx
    obtain ⟨hy, hky⟩ := find?_of_issued indexed_initial hy
    have htext := (number_eq_iff hi.keyed hx hy).trans (Ty.key_eq_iff hkx hky)
    refine ⟨htext, fun hf hg => htext.trans (and_congr_right fun _ => ⟨Ty.fieldText_inj hf hg, congrArg _⟩)⟩
  · obtain ⟨hx, hkx⟩ := find?_of_issued indexed_initial hx
    obtain ⟨ty, hl, hkey⟩ := lookup?_of_find? hi.keyed hx
    exact ⟨ty, hl, (Ty.key_eq_iff hkx (hi.known a ty hl).1).1 hkey.symm⟩
  · rw [issue_append]
    exact (grows_issue _ more).lookup? hl

/-- Two names for a struct, and the structure behind one of them. -/
def twoNames : List TypeCall :=
  [.struct [⟨"x", int⟩], .named 9 10 "Point" [], .named 9 11 "Other" [], .underlying 11]

def pair : Ty := { shape := .struct [⟨"x", int⟩] }

/-- The names differ in their symbol and have two numbers; the structure behind a name has the number of the struct. -/
theorem twoNames_numbered :
    ({ pair with sym := 10, name := "Point" }, 10) ∈ (initial.issue twoNames).1 ∧
    ({ pair with sym := 11, name := "Other" }, 11) ∈ (initial.issue twoNames).1 ∧
    (initial.issue twoNames).1.count (pair, 9) = 2 ∧
    ¬({ pair with sym := 10, name := "Point" } : Ty).Alike { pair with sym := 11, name := "Other" } ∧
    ∃ ty, (initial.issue twoNames).2.lookup? 11 = some ty ∧ ({ pair with sym := 11, name := "Other" } : Ty).Alike ty := by
  have hpoint : ({ pair with sym := 10, name := "Point" }, 10) ∈ (initial.issue twoNames).1 := by decide +kernel
  have hother : ({ pair with sym := 11, name := "Other" }, 11) ∈ (initial.issue twoNames).1 := by decide +kernel
  have hplain : ∀ f ∈ pair.shape.fields, f.IsPlain := by
    intro f hf
    obtain rfl := List.mem_singleton.1 hf
    exact TyField.isPlain_of_notMem (by decide)
  obtain ⟨hnumbers, -, hstands, -⟩ := issued_eq_iff twoNames
  refine ⟨hpoint, hother, by decide +kernel, fun halike => ?_, ?_⟩
  · have heq := ((hnumbers _ _ _ _ hpoint hother).2 hplain hplain).2 ⟨halike, rfl⟩
    exact absurd heq (by decide)
  · obtain ⟨ty, hl, halike, -⟩ := hstands _ _ hother
    exact ⟨ty, hl, halike⟩

/-- A struct of two fields and a struct of one share a number. -/
theorem oddName_conflated :
    let log := (initial.issue [.struct [⟨"a", int⟩, ⟨"b", int⟩], .struct [⟨"a:5,b", int⟩]]).1
    ∃ x y : Ty, (x, 9) ∈ log ∧ (y, 9) ∈ log ∧ x.shape.fields ≠ y.shape.fields :=
  ⟨{ shape := .struct [⟨"a", int⟩, ⟨"b", int⟩] }, { shape := .struct [⟨"a:5,b", int⟩] }, by decide +kernel⟩

end TypeTable

end TreeCompiler
