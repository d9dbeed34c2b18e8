import TreeCompiler.Proofs.Text.Utf8
import TreeCompiler.Proofs.Wire.Value
import TreeCompiler.Wire.Record

/-!
# Records are read back

* `Reads` : the wire value fits, and a reader makes a given value of it;
* `reads_nat`, `reads_int`, `reads_text`, `reads_nats`, `reads_texts` : numbers, texts and lists of them;
* `Fills` : a list of fields fits, and reading them one after the other leads from one record to another. `Fills.step` and
  `Fills.optional` are the fields that are always there and those that are left out when they are empty;
* `Fills.reads` : a record from its fields;
* `reads_slots`, `reads_table` : lists of records.
-/

namespace TreeCompiler.Wire

variable {α β : Type}

/-- The value fits and is read as `x`. -/
structure Reads (read : Wire → Option α) (w : Wire) (x : α) : Prop where
  fits : w.Fits
  read : read w = some x

/-! ## Lists of values that fit -/

theorem allFit_iff {ws : List Wire} : AllFit ws ↔ ∀ w ∈ ws, w.Fits := by
  induction ws with
  | nil => exact ⟨fun _ _ h => absurd h List.not_mem_nil, fun _ => trivial⟩
  | cons w ws ih => rw [AllFit, ih, List.forall_mem_cons]

theorem entriesFit_iff {es : List (Wire × Wire)} : EntriesFit es ↔ ∀ e ∈ es, e.1.Fits ∧ e.2.Fits := by
  induction es with
  | nil => exact ⟨fun _ _ h => absurd h List.not_mem_nil, fun _ => trivial⟩
  | cons e es ih => rw [EntriesFit, ih, List.forall_mem_cons, and_assoc]

theorem fits_array {α : Type} {write : α → Wire} {xs : List α} (hlen : xs.length < Nat.pow 2 32)
    (h : ∀ x ∈ xs, (write x).Fits) : (array (xs.map write)).Fits := by
  refine ⟨by rwa [List.length_map], allFit_iff.2 fun w hw => ?_⟩
  obtain ⟨x, hx, rfl⟩ := List.mem_map.1 hw
  exact h x hx

/-! ## Numbers and texts -/

/-- A text of fewer octets than a length can tell. -/
abbrev TextFits (s : String) : Prop := Utf8.Carries (Nat.pow 2 32) s

/-- A number of 64 bits with a sign. -/
def IntFits (n : Int) : Prop := -(Nat.pow 2 63 : Int) ≤ n ∧ n < (Nat.pow 2 63 : Nat)

instance (n : Int) : Decidable (IntFits n) := inferInstanceAs (Decidable (_ ∧ _))

theorem reads_text {s : String} (h : TextFits s) : Reads toText? (ofText s) s where
  fits := (Utf8.carries_iff.1 h).2
  read := by
    show some (Utf8.decode (Utf8.encode s)) = _
    rw [(Utf8.carries_iff.1 h).1]

theorem reads_nat {bits n : Nat} (hbits : bits ≤ 64) (h : n < Nat.pow 2 bits) : Reads (toNat? bits) (ofNat n) n where
  fits := by
    have hle : Nat.pow 2 bits ≤ Nat.pow 2 64 := Nat.pow_le_pow_right (by omega) hbits
    exact ⟨by omega, by omega⟩
  read := by
    show some ((n : Int) % ((Nat.pow 2 bits : Nat) : Int)).toNat = _
    rw [Int.emod_eq_of_lt (by omega) (by omega), Int.toNat_natCast]

theorem reads_int {n : Int} (h : IntFits n) : Reads (toSigned? 64) (int n) n := by
  obtain ⟨hlow, hhigh⟩ := h
  have hpow : Nat.pow 2 64 = 2 * Nat.pow 2 63 := rfl
  refine ⟨⟨hlow, by omega⟩, ?_⟩
  show some (n.bmod (Nat.pow 2 64)) = _
  rw [Int.bmod_eq_of_le (by omega) (by omega)]

theorem reads_real (bits : UInt64) : Reads toReal? (real bits) bits := ⟨trivial, rfl⟩

theorem reads_blob {bs : Bytes} (h : bs.length < Nat.pow 2 32) : Reads toBytes? (blob bs) (some bs) := ⟨h, rfl⟩

theorem reads_elements {write : α → Wire} {read : Wire → Option α} {xs : List α} (hlen : xs.length < Nat.pow 2 32)
    (h : ∀ x ∈ xs, Reads read (write x) x) : Reads (elements? read) (array (xs.map write)) xs := by
  refine ⟨fits_array hlen fun x hx => (h x hx).fits, ?_⟩
  show (xs.map write).mapM read = _
  clear hlen
  induction xs with
  | nil => rfl
  | cons x xs ih =>
    rw [List.forall_mem_cons] at h
    rw [List.map_cons, List.mapM_cons, h.1.read, ih h.2]
    rfl

theorem reads_nats {ns : List Nat} (hlen : ns.length < Nat.pow 2 32) (h : ∀ n ∈ ns, n < Nat.pow 2 32) :
    Reads (elements? (toNat? 32)) (ofNats ns) ns :=
  reads_elements hlen fun n hn => reads_nat (by omega) (h n hn)

theorem reads_nats_orNil {ns : List Nat} (hlen : ns.length < Nat.pow 2 32) (h : ∀ n ∈ ns, n < Nat.pow 2 32) :
    Reads (elements? (toNat? 32)) (orNil ofNats ns) ns := by
  cases ns with
  | nil => exact ⟨trivial, rfl⟩
  | cons n ns => exact reads_nats hlen h

theorem reads_texts (old : List String) {ss : List String} (hlen : ss.length < Nat.pow 2 32) (h : ∀ s ∈ ss, TextFits s) :
    Reads (overTexts? old) (ofTexts ss) ss := by
  obtain ⟨hfits, hread⟩ := reads_elements hlen fun s hs => reads_text (h s hs)
  exact ⟨hfits, hread⟩

/-! ## Records -/

/-- At most `n` fields that fit; read one after the other into `r`, they give `r'`. -/
structure Fills (set : String → Wire → α → Option α) (n : Nat) (fields : List (String × Wire)) (r r' : α) : Prop where
  length : fields.length ≤ n
  names : ∀ f ∈ fields, TextFits f.1
  fits : ∀ f ∈ fields, f.2.Fits
  read : fields.foldlM (fun r f => set f.1 f.2 r) r = some r'

namespace Fills

variable {set : String → Wire → α → Option α} {fields fields' : List (String × Wire)} {k : String} {v : Wire}
  {r r' r'' : α} {read : Wire → Option β} {x x₀ : β} {put : β → α} {n m : Nat}

theorem nil : Fills set 0 [] r r where
  length := Nat.le_refl _
  names _ h := absurd h List.not_mem_nil
  fits _ h := absurd h List.not_mem_nil
  read := rfl

theorem append (h : Fills set n fields r r') (h' : Fills set m fields' r' r'') :
    Fills set (n + m) (fields ++ fields') r r'' where
  length := by
    rw [List.length_append]
    exact Nat.add_le_add h.length h'.length
  names f hf := (List.mem_append.1 hf).elim (h.names f) (h'.names f)
  fits f hf := (List.mem_append.1 hf).elim (h.fits f) (h'.fits f)
  read := by
    rw [List.foldlM_append, h.read]
    exact h'.read

theorem step (h : Reads read v x) (hset : ∀ w, set k w r = (read w).bind fun x => some (put x))
    (hname : TextFits k := by decide) : Fills set 1 [(k, v)] r (put x) where
  length := Nat.le_refl _
  names f hf := by
    rw [List.mem_singleton.1 hf]
    exact hname
  fits f hf := by
    rw [List.mem_singleton.1 hf]
    exact h.fits
  read := by
    rw [List.foldlM_cons, hset, h.read]
    rfl

theorem cons (h : Reads read v x) (hset : ∀ w, set k w r = (read w).bind fun x => some (put x))
    (hrest : Fills set n fields (put x) r') (hname : TextFits k := by decide) : Fills set (1 + n) ((k, v) :: fields) r r' :=
  (step h hset hname).append hrest

/-- A field that is left out is as it was before. -/
theorem optional {empty : Bool} (h : empty = false → Reads read v x) (hempty : empty = true → x = x₀)
    (hset : ∀ w, set k w r = (read w).bind fun x => some (put x)) (hr : r = put x₀ := by rfl) (hname : TextFits k := by decide) :
    Fills set 1 (unlessEmpty k empty v) r (put x) := by
  cases empty with
  | true =>
    rw [hr, hempty rfl]
    exact { nil with length := Nat.zero_le _ }
  | false => exact step (h rfl) hset hname

/-- Names the record that the fields lead to. -/
theorem leads (h : Fills set n fields r r') (hr : r' = r'' := by rfl) : Fills set n fields r r'' := hr ▸ h

theorem fits_record (h : Fills set n fields r r') (hn : n < Nat.pow 2 32) : (record fields).Fits := by
  have hlen := h.length
  refine ⟨by rw [List.length_map]; omega, entriesFit_iff.2 fun e he => ?_⟩
  obtain ⟨f, hf, rfl⟩ := List.mem_map.1 he
  exact ⟨(reads_text (h.names f hf)).fits, h.fits f hf⟩

theorem overRecord? (names : List String) {zero : α} (h : Fills set n fields r r') :
    Wire.overRecord? names zero set r (record fields) = some r' := by
  obtain ⟨-, hnames, -, hread⟩ := h
  rw [← hread]
  show (fields.map fun f => (ofText f.1, f.2)).foldlM _ r = _
  rw [List.foldlM_map]
  clear hread
  induction fields generalizing r with
  | nil => rfl
  | cons f fields ih =>
    rw [List.forall_mem_cons] at hnames
    rw [List.foldlM_cons, List.foldlM_cons]
    dsimp only
    rw [(reads_text hnames.1).read]
    exact Option.bind_congr fun r _ => ih hnames.2

theorem reads {names : List String} {zero : α} (h : Fills set n fields r r') (hr : r' = r'' := by rfl)
    (hn : n < Nat.pow 2 32 := by decide) : Reads (Wire.overRecord? names zero set r) (record fields) r'' :=
  ⟨(h.leads hr).fits_record hn, (h.leads hr).overRecord? names⟩

/-- A record that is written as the list of its fields in their order. -/
theorem reads_array {names : List String} {items : List Wire} {zero : α} (h : Fills set n (names.zip items) r r')
    (hr : r' = r'' := by rfl) (hlen : items.length = names.length := by rfl) (hitems : items ≠ [] := by simp)
    (hn : n < Nat.pow 2 32 := by decide) :
    Reads (Wire.overRecord? names zero set r) (array items) r'' := by
  cases hr
  refine ⟨⟨?_, allFit_iff.2 fun w hw => ?_⟩, ?_⟩
  · have hshort := h.length
    rw [List.length_zip, hlen, Nat.min_self] at hshort
    omega
  · rw [← List.map_snd_zip (Nat.le_of_eq hlen)] at hw
    obtain ⟨f, hf, rfl⟩ := List.mem_map.1 hw
    exact h.fits f hf
  · cases items with
    | nil => exact absurd rfl hitems
    | cons w ws =>
      show (if _ then _ else _) = _
      rw [if_pos hlen]
      exact h.read

end Fills

/-- A part that is there is read over one without anything in it. -/
theorem reads_part {zero : α} {read : α → Wire → Option α} {fields : List (String × Wire)} {x : α}
    (h : Reads (read zero) (record fields) x) : Reads (overOptional? zero read none) (record fields) (some x) where
  fits := h.fits
  read := by
    show (read zero (record fields)).map some = _
    rw [h.read]
    rfl

/-! ## Lists of records -/

section

variable {zero : β} {read : β → Wire → Option β} {write : α → Wire} {value : α → β} {xs : List α}

theorem overEach?_map (h : ∀ x ∈ xs, Reads (read zero) (write x) (value x)) :
    Slots.overEach? zero read [] (xs.map write) = some (xs.map value) := by
  induction xs with
  | nil => rfl
  | cons x xs ih =>
    rw [List.forall_mem_cons] at h
    rw [List.map_cons, Slots.overEach?]
    show (read zero (write x)).bind _ = _
    rw [h.1.read]
    show (Slots.overEach? zero read [] (xs.map write)).bind _ = _
    rw [ih h.2]
    rfl

theorem reads_slots (hlen : xs.length < Nat.pow 2 32) (h : ∀ x ∈ xs, Reads (read zero) (write x) (value x)) :
    Reads (Slots.over? zero read {}) (array (xs.map write)) { rows := xs.map value } where
  fits := fits_array hlen fun x hx => (h x hx).fits
  read := by
    show (Slots.overEach? zero read [] (xs.map write)).bind _ = _
    rw [overEach?_map h]
    show some _ = some _
    rw [List.append_nil, List.drop_nil]

theorem reads_slots_orNil (hlen : xs.length < Nat.pow 2 32) (h : ∀ x ∈ xs, Reads (read zero) (write x) (value x)) :
    Reads (Slots.over? zero read {}) (orNil array (xs.map write)) { rows := xs.map value } := by
  cases xs with
  | nil => exact ⟨trivial, rfl⟩
  | cons x xs => exact reads_slots hlen h

end

/-- An empty list may be written as nil. -/
theorem reads_table {zero : α} {read : α → Wire → Option α} {write : α → Wire} {xs : List α} (asNil : Bool)
    (hlen : xs.length < Nat.pow 2 32) (h : ∀ x ∈ xs, Reads (read zero) (write x) x) :
    Reads (Slots.over? zero read {}) (if (xs.map write).isEmpty && asNil then nil else array (xs.map write))
      { rows := xs } := by
  split
  · rename_i hempty
    rw [Bool.and_eq_true, List.isEmpty_iff, List.map_eq_nil_iff] at hempty
    rw [hempty.1]
    exact ⟨trivial, rfl⟩
  · have hreads := reads_slots hlen h
    rwa [List.map_id'] at hreads

theorem reads_textTable {ss : List String} (asNil : Bool) (hlen : ss.length < Nat.pow 2 32) (h : ∀ s ∈ ss, TextFits s) :
    Reads (overTexts? []) (if (ss.map ofText).isEmpty && asNil then nil else array (ss.map ofText)) ss := by
  split
  · rename_i hempty
    rw [Bool.and_eq_true, List.isEmpty_iff, List.map_eq_nil_iff] at hempty
    rw [hempty.1]
    exact ⟨trivial, rfl⟩
  · exact reads_texts [] hlen h

end TreeCompiler.Wire
