import Mathlib.Data.List.Basic
import TreeCompiler.Build.Digest
import TreeCompiler.Proofs.Text.Hex
import TreeCompiler.Proofs.Types.Growth
import TreeCompiler.Settings.Basic

/-!
# What cache keys tell apart

The key of a unit is a hash of its octets and of the digest of the settings, and that digest is a hash of a text: four
numbers, then an entry for each native symbol. Where the hashes do not collide, keys of different units differ, and so do
keys under different numbers. The entries can be read back when no name holds the character that ends it.

* `Collide` : two inputs that a hash does not tell apart;
* `Settings.Defines`, `Settings.Plain` : the handles that settings define, and that their names can be read back;
* `Settings.encode_digestText` : the octets that a digest is taken of; `cut_numbers`, `cut_entries` : their parts;
* `Settings.unitDigest_separates` : settings and units of one key;
* `Settings.unitDigest_conflates` : two settings that define different handles and have one digest.
-/

namespace TreeCompiler

/-- Two inputs that a hash does not tell apart. -/
def Collide {α β : Type} (h : α → β) (x y : α) : Prop := x ≠ y ∧ h x = h y

theorem not_collide_self {α β : Type} (h : α → β) (x : α) : ¬Collide h x x := fun hc => hc.1 rfl

theorem eq_of_not_collide {α β : Type} {h : α → β} {x y : α} (hc : ¬Collide h x y) (heq : h x = h y) : x = y := by
  by_contra hne
  exact hc ⟨hne, heq⟩

/-- What the key of a unit is the hash of. -/
def keyInput (content : Bytes) (configDigest : String) : Bytes :=
  content ++ [configDigest, toString unitVersion, toString programVersion, toString cacheSchema].flatMap fun p =>
    0 :: Utf8.encode p

/-- The texts behind the content have one length, so the content ends at one place. -/
theorem keyInput_inj {c c' : Bytes} {d d' : String} (hd : Utf8.Basic d) (hd' : Utf8.Basic d')
    (hlen : d.toList.length = d'.toList.length) (h : keyInput c d = keyInput c' d') : c = c' ∧ d = d' := by
  have hbytes : (Utf8.encode d).length = (Utf8.encode d').length := by
    rw [Utf8.encode_of_basic hd, Utf8.encode_of_basic hd', List.length_map, List.length_map, hlen]
  unfold keyInput at h
  obtain ⟨hc, hparts⟩ := List.append_inj' h (by simp [hbytes])
  refine ⟨hc, Utf8.encode_inj_of_basic hd hd' ?_⟩
  rw [List.flatMap_cons, List.flatMap_cons] at hparts
  exact (List.cons.inj (List.append_inj hparts (by simp [hbytes])).1).2

namespace Settings

/-! ## Handles -/

/-- A table of the settings gives the symbol of a library a handle. -/
def Defines (s : Settings) (lib sym : String) (handle : Nat) : Prop :=
  ∃ syms, (lib, some syms) ∈ s.externs.getD [] ∧ (sym, handle) ∈ syms

/-- A name that is a text of octets and does not hold the character that ends it. -/
structure EndsAt (stop : Char) (name : String) : Prop where
  carried : Utf8.decode (Utf8.encode name) = name
  free : stop ∉ name.toList

instance (stop : Char) (name : String) : Decidable (EndsAt stop name) :=
  decidable_of_iff (Utf8.decode (Utf8.encode name) = name ∧ stop ∉ name.toList) ⟨fun h => ⟨h.1, h.2⟩, fun h => ⟨h.1, h.2⟩⟩

/-- No library has a dot in its name and no symbol an equals sign. -/
def Plain (s : Settings) : Prop :=
  ∀ t ∈ s.externs.getD [], EndsAt '.' t.1 ∧ ∀ e ∈ t.2.getD [], EndsAt '=' e.1

instance (s : Settings) : Decidable s.Plain :=
  inferInstanceAs (Decidable (∀ t ∈ s.externs.getD [], EndsAt '.' t.1 ∧ ∀ e ∈ t.2.getD [], EndsAt '=' e.1))

/-- Library, symbol and handle of each entry, in the order in which the digest takes them. -/
def entries (s : Settings) : List (String × String × Nat) :=
  s.handles.flatMap fun t => t.2.map fun e => (t.1, e.1, e.2)

theorem mem_entries {s : Settings} {lib sym : String} {handle : Nat} :
    (lib, sym, handle) ∈ s.entries ↔ s.Defines lib sym handle := by
  simp only [entries, handles, List.mem_flatMap, List.mem_map, List.mem_mergeSort, Prod.mk.injEq, Defines]
  constructor
  · rintro ⟨_, ⟨⟨l, o⟩, ho, rfl⟩, ⟨y, h⟩, hmem, rfl, rfl, rfl⟩
    rw [List.mem_mergeSort] at hmem
    cases o with
    | none => cases hmem
    | some syms => exact ⟨syms, ho, hmem⟩
  · rintro ⟨syms, hsyms, hmem⟩
    refine ⟨_, ⟨(lib, some syms), hsyms, rfl⟩, (sym, handle), ?_, rfl, rfl, rfl⟩
    rw [List.mem_mergeSort]
    exact hmem

theorem Plain.endsAt {s : Settings} (h : s.Plain) {e : String × String × Nat} (he : e ∈ s.entries) :
    EndsAt '.' e.1 ∧ EndsAt '=' e.2.1 := by
  obtain ⟨lib, sym, handle⟩ := e
  obtain ⟨syms, hsyms, hmem⟩ := mem_entries.1 he
  obtain ⟨hlib, hsym⟩ := h _ hsyms
  exact ⟨hlib, hsym _ hmem⟩

/-! ## The text of a digest -/

/-- The numbers that change compiled programs. -/
def shaping (s : Settings) : List Int :=
  [s.compile.valueRegisters, s.compile.refRegisters, s.compile.maxTryDepth, s.compile.maxSweeps]

def numberBytes (n : Int) : Bytes := Utf8.encode (toString n) ++ [59]

def entryBytes (e : String × String × Nat) : Bytes :=
  Utf8.encode e.1 ++ 46 :: (Utf8.encode e.2.1 ++ 61 :: numberBytes e.2.2)

theorem encode_digestText (s : Settings) :
    Utf8.encode s.digestText = s.shaping.flatMap numberBytes ++ s.entries.flatMap entryBytes := by
  have hsemi : Utf8.encode ";" = [59] := by decide
  have hdot : Utf8.encode "." = [46] := by decide
  have heq : Utf8.encode "=" = [61] := by decide
  have hentry (e : String × String × Nat) :
      Utf8.encode (e.1 ++ "." ++ e.2.1 ++ "=" ++ toString e.2.2 ++ ";") = entryBytes e := by
    simp only [Utf8.encode_append, hdot, heq, hsemi, entryBytes, numberBytes, List.append_assoc, List.singleton_append]
    rfl
  simp only [digestText, Utf8.encode_append, Utf8.encode_join, List.flatMap_map, List.flatMap_assoc, entries, ← hentry, hsemi]
  rfl

theorem basic_toString (n : Int) : Utf8.Basic (toString n) ∧ ';' ∉ (toString n).toList := by
  have hdigits (m : Nat) : Utf8.Basic m.repr ∧ ';' ∉ m.repr.toList := by
    refine ⟨fun c hc => ?_, notMem_toString (by decide) m⟩
    rw [Nat.toList_repr] at hc
    have hdigit := Nat.isDigit_of_mem_toDigits (by decide) (by decide) hc
    simp only [Char.isDigit, Bool.and_eq_true, decide_eq_true_eq] at hdigit
    have hle : c.val.toNat ≤ 57 := hdigit.2
    show c.val.toNat < 0x80
    omega
  rw [Int.toString_eq_repr, Int.repr_eq_if]
  split
  · exact hdigits _
  · obtain ⟨hbasic, hsemi⟩ := hdigits (-n).toNat
    simp only [Utf8.Basic, String.toList_append, List.mem_append, not_or] at hbasic ⊢
    refine ⟨fun c hc => ?_, by decide, hsemi⟩
    rcases hc with hc | hc
    · have hsign : c = '-' := by simpa using hc
      rw [hsign]
      decide
    · exact hbasic c hc

theorem int_toString_inj {m n : Int} (h : toString m = toString n) : m = n := by
  have hminus (a b : Nat) : a.repr ≠ "-" ++ b.repr := by
    intro hab
    refine notMem_toString (c := '-') (by decide) a ?_
    rw [Nat.toString_eq_repr, hab, String.toList_append]
    exact List.mem_append_left _ (by decide)
  rw [Int.toString_eq_repr, Int.toString_eq_repr, Int.repr_eq_if, Int.repr_eq_if] at h
  split at h <;> split at h
  · have := toString_inj h
    omega
  · exact absurd h (hminus _ _)
  · exact absurd h.symm (hminus _ _)
  · have := toString_inj (String.append_right_inj _ |>.1 h)
    omega

/-- A number ends at the first semicolon. -/
theorem cut_number {m n : Int} {r r' : Bytes} (h : numberBytes m ++ r = numberBytes n ++ r') : m = n ∧ r = r' := by
  have hstop (k : Int) : (59 : UInt8) ∉ Utf8.encode (toString k) :=
    fun hk => (basic_toString k).2 (Utf8.mem_of_mem_encode (c := ';') (by decide) hk)
  simp only [numberBytes, List.append_assoc, List.singleton_append] at h
  obtain ⟨htext, hrest⟩ := append_cons_inj' (hstop m) (hstop n) h
  exact ⟨int_toString_inj (Utf8.encode_inj_of_basic (basic_toString m).1 (basic_toString n).1 htext), hrest⟩

theorem cut_numbers {ms ns : List Int} {r r' : Bytes} (hlen : ms.length = ns.length)
    (h : ms.flatMap numberBytes ++ r = ns.flatMap numberBytes ++ r') : ms = ns ∧ r = r' := by
  induction ms generalizing ns with
  | nil =>
    rw [List.eq_nil_of_length_eq_zero hlen.symm] at h ⊢
    exact ⟨rfl, h⟩
  | cons m ms ih =>
    cases ns with
    | nil => cases hlen
    | cons n ns =>
      rw [List.flatMap_cons, List.flatMap_cons, List.append_assoc, List.append_assoc] at h
      obtain ⟨rfl, htail⟩ := cut_number h
      obtain ⟨rfl, hrest⟩ := ih (Nat.succ.inj hlen) htail
      exact ⟨rfl, hrest⟩

/-- A name ends at the first place of its end character. -/
theorem cut_name {stop : Char} (hstop : stop.toNat < 0x80) {a b : String} (ha : EndsAt stop a) (hb : EndsAt stop b)
    {octet : UInt8} (hoctet : octet = UInt8.ofNat stop.toNat) {r r' : Bytes}
    (h : Utf8.encode a ++ octet :: r = Utf8.encode b ++ octet :: r') : a = b ∧ r = r' := by
  subst hoctet
  obtain ⟨htext, hrest⟩ := append_cons_inj' (fun hk => ha.free (Utf8.mem_of_mem_encode hstop hk))
    (fun hk => hb.free (Utf8.mem_of_mem_encode hstop hk)) h
  exact ⟨by rw [← ha.carried, ← hb.carried, htext], hrest⟩

theorem cut_entries {es fs : List (String × String × Nat)} (hes : ∀ e ∈ es, EndsAt '.' e.1 ∧ EndsAt '=' e.2.1)
    (hfs : ∀ e ∈ fs, EndsAt '.' e.1 ∧ EndsAt '=' e.2.1) (h : es.flatMap entryBytes = fs.flatMap entryBytes) : es = fs := by
  induction es generalizing fs with
  | nil =>
    cases fs with
    | nil => rfl
    | cons f fs => simp [entryBytes] at h
  | cons e es ih =>
    cases fs with
    | nil => simp [entryBytes] at h
    | cons f fs =>
      obtain ⟨lib, sym, handle⟩ := e
      obtain ⟨lib', sym', handle'⟩ := f
      obtain ⟨hlib, hsym⟩ : EndsAt '.' lib ∧ EndsAt '=' sym := hes _ (List.mem_cons_self ..)
      obtain ⟨hlib', hsym'⟩ : EndsAt '.' lib' ∧ EndsAt '=' sym' := hfs _ (List.mem_cons_self ..)
      simp only [List.flatMap_cons, entryBytes, List.append_assoc, List.cons_append] at h
      obtain ⟨rfl, hafterLib⟩ := cut_name (by decide) hlib hlib' rfl h
      obtain ⟨rfl, hafterSym⟩ := cut_name (by decide) hsym hsym' rfl hafterLib
      obtain ⟨hhandle, hrest⟩ := cut_number hafterSym
      rw [Int.ofNat_inj.1 hhandle, ih (fun e he => hes e (List.mem_cons_of_mem _ he))
        (fun e he => hfs e (List.mem_cons_of_mem _ he)) hrest]

/-! ## Keys -/

theorem digest_spec (s : Settings) : Utf8.Basic s.digest ∧ s.digest.toList.length = 16 :=
  ⟨basic_hexPadded _ _, length_hexPadded (by decide) (UInt64.toNat_lt _)⟩

/-- Where the hashes do not collide, one key means one content and one choice of the numbers that change programs, and, when
names can be read back, the same handles. -/
theorem unitDigest_separates {c c' : Bytes} {s s' : Settings}
    (hkey : ¬Collide Sha256.hash (keyInput c s.digest) (keyInput c' s'.digest))
    (htext : ¬Collide Xxh3.hash (Utf8.encode s.digestText) (Utf8.encode s'.digestText))
    (h : unitDigest c s.digest = unitDigest c' s'.digest) :
    c = c' ∧ s.compile.valueRegisters = s'.compile.valueRegisters ∧ s.compile.refRegisters = s'.compile.refRegisters ∧
    s.compile.maxTryDepth = s'.compile.maxTryDepth ∧ s.compile.maxSweeps = s'.compile.maxSweeps ∧
    (s.Plain → s'.Plain → ∀ lib sym handle, s.Defines lib sym handle ↔ s'.Defines lib sym handle) := by
  obtain ⟨hbasic, hlen⟩ := digest_spec s
  obtain ⟨hbasic', hlen'⟩ := digest_spec s'
  obtain ⟨hcontent, hdigest⟩ := keyInput_inj hbasic hbasic' (hlen.trans hlen'.symm) (eq_of_not_collide hkey h)
  have hbytes := eq_of_not_collide htext (UInt64.toNat_inj.1 (hexPadded_inj hdigest))
  rw [encode_digestText, encode_digestText] at hbytes
  obtain ⟨hnumbers, hentries⟩ := cut_numbers (show s.shaping.length = s'.shaping.length from rfl) hbytes
  simp only [shaping, List.cons.injEq, and_true] at hnumbers
  obtain ⟨hvalues, hrefs, hdepth, hsweeps⟩ := hnumbers
  refine ⟨hcontent, hvalues, hrefs, hdepth, hsweeps, fun hplain hplain' lib sym handle => ?_⟩
  rw [← mem_entries, ← mem_entries, cut_entries (fun e => hplain.endsAt) (fun e => hplain'.endsAt) hentries]

/-- Two libraries, one of them without symbols, in the order of their names; the other settings are of no account. -/
def twoLibraries : Settings where
  compile := { jobs := 4 }
  diagnostics := { format := "json" }
  externs := some [("m", some [("sin", 3)]), ("n", none)]

/-- The handles of `twoLibraries` alone. -/
def oneLibrary : Settings where
  externs := some [("m", some [("sin", 3)])]

theorem oneLibrary_separates :
    oneLibrary.Plain ∧ twoLibraries.Plain ∧
    ∀ lib sym handle, oneLibrary.Defines lib sym handle ↔ twoLibraries.Defines lib sym handle := by
  have htext : oneLibrary.digestText = twoLibraries.digestText := by
    have hsorted : ([("m", [("sin", 3)]), ("n", [])] : List (String × List (String × Nat))).mergeSort
        (fun a b => textLe a.1 b.1) = [("m", [("sin", 3)]), ("n", [])] :=
      List.mergeSort_of_pairwise (by decide)
    simp [digestText, handles, oneLibrary, twoLibraries, hsorted]
  have hdigest : oneLibrary.digest = twoLibraries.digest := by rw [digest, digest, htext]
  have hplain : oneLibrary.Plain ∧ twoLibraries.Plain := by decide
  refine ⟨hplain.1, hplain.2, ?_⟩
  refine (@unitDigest_separates [1, 2] [1, 2] oneLibrary twoLibraries ?_ ?_ ?_).2.2.2.2.2 hplain.1 hplain.2
  · rw [hdigest]
    exact not_collide_self _ _
  · rw [htext]
    exact not_collide_self _ _
  · rw [hdigest]

/-! ## Names with dots -/

/-- A symbol `c` of the library `a.b`. -/
def dottedLibrary : Settings where
  externs := some [("a.b", some [("c", 7)])]

/-- A symbol `b.c` of the library `a`. -/
def dottedSymbol : Settings where
  externs := some [("a", some [("b.c", 7)])]

/-- Library and symbol are joined by a dot, and both may hold one. -/
theorem unitDigest_conflates :
    dottedLibrary.validate = .ok () ∧ dottedSymbol.validate = .ok () ∧
    (∀ content, unitDigest content dottedLibrary.digest = unitDigest content dottedSymbol.digest) ∧
    dottedLibrary.Defines "a.b" "c" 7 ∧ ¬dottedSymbol.Defines "a.b" "c" 7 := by
  have hlibrary : dottedLibrary.handles = [("a.b", [("c", 7)])] := by simp [handles, dottedLibrary]
  have hsymbol : dottedSymbol.handles = [("a", [("b.c", 7)])] := by simp [handles, dottedSymbol]
  refine ⟨?_, ?_, fun content => ?_, ?_, ?_⟩
  · rw [validate, hlibrary]
    rfl
  · rw [validate, hsymbol]
    rfl
  · rw [digest, digest, digestText, digestText, hlibrary, hsymbol]
    rfl
  · exact ⟨_, List.mem_singleton_self _, List.mem_singleton_self _⟩
  · rintro ⟨syms, hsyms, -⟩
    simp [dottedSymbol] at hsyms

end Settings

end TreeCompiler
