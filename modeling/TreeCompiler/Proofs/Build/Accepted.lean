import TreeCompiler.Proofs.Build.Artifact
import TreeCompiler.Proofs.Emit.Valid

/-!
# What readers of programs accept

A program is read from its bytes alone or as a part of a program file. Both readers check it in the same way.

* `Program.IsIn`, `Artifact.IsIn` : what the bytes hold, before anything is checked;
* `Program.checked_eq_ok_iff` : the check asks for the current version and for `Program.Valid`, and changes nothing;
* `Program.Valid.of_code` : neither the types nor what the rows of functions hold is looked at;
* `decode_accepts_iff` : what is accepted, and what then is in range;
* `unlinked_accepted` : a type that is not there, a function behind the code, and an entry at its end.
-/

namespace TreeCompiler

namespace Program

variable {p q : Program} {bs : Bytes}

/-- The bytes begin with a value that holds the program. -/
def IsIn (p : Program) (bs : Bytes) : Prop := ∃ w rest, Wire.decode? bs = some (w, rest) ∧ ofWire? w = some p

theorem checked_eq_ok_iff : p.checked = .ok q ↔ q = p ∧ p.version = programVersion ∧ p.Valid := by
  constructor
  · intro h
    unfold checked at h
    by_cases hversion : p.version = programVersion
    · rw [if_neg (not_not_intro hversion)] at h
      obtain ⟨⟨⟩, hvalid, hsame⟩ := Except.bind_ok h
      cases hsame
      exact ⟨rfl, hversion, validate_eq_ok_iff.1 hvalid⟩
    · rw [if_pos hversion] at h
      cases h
  · rintro ⟨rfl, hversion, hvalid⟩
    exact checked_eq_ok hversion (validate_eq_ok_iff.2 hvalid)

theorem decode_eq_ok_iff : decode bs = .ok p ↔ p.IsIn bs ∧ p.version = programVersion ∧ p.Valid := by
  unfold decode IsIn
  cases hwire : Wire.decode? bs with
  | none => exact ⟨nofun, nofun⟩
  | some x =>
    obtain ⟨w, rest⟩ := x
    dsimp only
    cases hread : ofWire? w with
    | none =>
      refine ⟨nofun, ?_⟩
      rintro ⟨⟨_, _, hsame, hp⟩, -⟩
      cases hsame
      rw [hread] at hp
      cases hp
    | some read =>
      refine checked_eq_ok_iff.trans ⟨?_, ?_⟩
      · rintro ⟨rfl, hvalid⟩
        exact ⟨⟨w, rest, rfl, hread⟩, hvalid⟩
      · rintro ⟨⟨_, _, hsame, hp⟩, hvalid⟩
        cases hsame
        rw [hread] at hp
        cases hp
        exact ⟨rfl, hvalid⟩

theorem InRange.of_limit {o : Operand} (hlimit : p.limit? o.kind = q.limit? o.kind) (h : p.InRange o) : q.InRange o :=
  ⟨h.1, fun limit hl => h.2 limit (hlimit.trans hl)⟩

/-- Neither the types nor what the rows of functions hold is looked at. -/
theorem Valid.of_code (h : p.Valid) (funcs : Array FuncRow) (types : Array TypeRow) (hfuncs : funcs.size = p.funcs.size) :
    { p with funcs, types }.Valid where
  known := h.known
  operands i hi o ho := by
    refine (h.operands i hi o ho).of_limit ?_
    cases o.kind <;> simp only [limit?, hfuncs]
  entry := h.entry

/-- What an operand names is the row with its number. -/
theorem Valid.names (h : p.Valid) {i : Instr} (hi : i ∈ p.code) {o : Operand} (ho : o ∈ i.operands) {limit : Nat}
    (hlimit : p.limit? o.kind = some limit) : ∃ k < limit, o = ⟨o.kind, (k : Int)⟩ := by
  obtain ⟨hlow, hhigh⟩ := (h.operands i (Array.mem_toList_iff.2 hi) o ho).2 limit hlimit
  obtain ⟨kind, val⟩ := o
  obtain ⟨k, rfl⟩ := Int.eq_ofNat_of_zero_le hlow
  exact ⟨k, Int.ofNat_lt.1 hhigh, rfl⟩

end Program

namespace Artifact

variable {a : Artifact} {bs : Bytes}

/-- The bytes begin with a value that holds the artifact. -/
def IsIn (a : Artifact) (bs : Bytes) : Prop :=
  ∃ w rest parts, Wire.decode? bs = some (w, rest) ∧ Draft.ofWire? w = some parts ∧
    parts.program.map (·.program) = some a.program ∧ parts.debug.map (·.table) = a.debug

theorem decode_eq_ok_iff : decode bs = .ok a ↔ a.IsIn bs ∧ a.program.version = programVersion ∧ a.program.Valid := by
  unfold decode IsIn
  cases hwire : Wire.decode? bs with
  | none => exact ⟨nofun, nofun⟩
  | some x =>
    obtain ⟨w, rest⟩ := x
    dsimp only
    cases hread : Draft.ofWire? w with
    | none =>
      refine ⟨nofun, ?_⟩
      rintro ⟨⟨_, _, _, hsame, hparts, -⟩, -⟩
      cases hsame
      rw [hread] at hparts
      cases hparts
    | some parts =>
      have hin : (∃ w' rest' parts', some (w, rest) = some (w', rest') ∧ Draft.ofWire? w' = some parts' ∧
          parts'.program.map (·.program) = some a.program ∧ parts'.debug.map (·.table) = a.debug) ↔
          parts.program.map (·.program) = some a.program ∧ parts.debug.map (·.table) = a.debug := by
        constructor
        · rintro ⟨_, _, _, hsame, hparts, h⟩
          cases hsame
          rw [hread] at hparts
          cases hparts
          exact h
        · exact fun h => ⟨w, rest, parts, rfl, hread, h⟩
      rw [hin]
      dsimp only
      cases hprogram : parts.program with
      | none => exact ⟨nofun, nofun⟩
      | some draft =>
        dsimp only
        rw [Option.map_some, Option.some.injEq]
        cases hchecked : draft.program.checked with
        | error e =>
          refine ⟨nofun, ?_⟩
          rintro ⟨⟨hsame, -⟩, hvalid⟩
          rw [Program.checked_eq_ok_iff.2 ⟨hsame.symm, hsame ▸ hvalid⟩] at hchecked
          cases hchecked
        | ok program =>
          obtain ⟨rfl, hvalid⟩ := Program.checked_eq_ok_iff.1 hchecked
          constructor
          · rintro ⟨⟩
            exact ⟨⟨rfl, rfl⟩, hvalid⟩
          · rintro ⟨⟨hsame, hdebug⟩, -⟩
            obtain ⟨_, _⟩ := a
            cases hsame
            cases hdebug
            rfl

end Artifact

/-- Both readers accept a program exactly when it has the current version and is valid; types and the rows of functions have
no part in that. Every operand of an accepted program that names a string, a function, a native, a global or an address names
one that is there, no label is left, and the entry is an address or the end of the code. -/
theorem decode_accepts_iff (bs : Bytes) :
    (∀ p, Program.decode bs = .ok p ↔ p.IsIn bs ∧ p.version = programVersion ∧ p.Valid) ∧
    (∀ a, Artifact.decode bs = .ok a ↔ a.IsIn bs ∧ a.program.version = programVersion ∧ a.program.Valid) ∧
    ∀ p, (Program.decode bs = .ok p ∨ ∃ debug, Artifact.decode bs = .ok { program := p, debug }) →
      (∀ funcs types, funcs.size = p.funcs.size → { p with funcs, types }.Valid) ∧
      (∀ i ∈ p.code, i.op.isKnown = true ∧ ∀ o ∈ i.operands, o.kind ≠ .label ∧
        (o.kind = .text → ∃ k < p.strings.size, o = .text k) ∧
        (o.kind = .func → ∃ k < p.funcs.size, o = .func k) ∧
        (o.kind = .native → ∃ k < p.natives.size, o = .native k) ∧
        (o.kind = .global → ∃ k < p.globals, o = .global (k : Int)) ∧
        (o.kind = .address → ∃ ip < p.code.size, o = .address ip)) ∧
      ∃ ip ≤ p.code.size, p.entry = (ip : Int) := by
  refine ⟨fun p => Program.decode_eq_ok_iff, fun a => Artifact.decode_eq_ok_iff, fun p hp => ?_⟩
  have hvalid : p.Valid := by
    rcases hp with hp | ⟨debug, hp⟩
    · exact (Program.decode_eq_ok_iff.1 hp).2.2
    · exact (Artifact.decode_eq_ok_iff.1 hp).2.2
  refine ⟨fun funcs types => hvalid.of_code funcs types, fun i hi => ⟨hvalid.known i (Array.mem_toList_iff.2 hi), ?_⟩, ?_⟩
  · intro o ho
    have names {kind : OperandKind} {limit : Nat} (hlimit : p.limit? kind = some limit) (hkind : o.kind = kind) :
        ∃ k < limit, o = ⟨kind, (k : Int)⟩ := by
      subst hkind
      exact hvalid.names hi ho hlimit
    exact ⟨(hvalid.operands i (Array.mem_toList_iff.2 hi) o ho).1, names rfl, names rfl, names rfl, names rfl, names rfl⟩
  · obtain ⟨hlow, hhigh⟩ := hvalid.entry
    obtain ⟨ip, hip⟩ := Int.eq_ofNat_of_zero_le hlow
    exact ⟨ip, Int.ofNat_le.1 (hip ▸ hhigh), hip⟩

/-- A program that jumps, names what is in its tables and builds a struct. The type of the struct is not there, the function
starts behind the code, and the program starts at the end of it. -/
def unlinked : Program where
  code := #[{ op := .jump, a := .address 1 }, { op := .call, a := .func 0, b := .int 0 },
    { op := .callNative, a := .native 0, b := .text 0 }, { op := .makeStruct, a := .type 5 }]
  strings := #["é"]
  funcs := #[{ name := "f", entry := 9 }]
  natives := #[{ library := "m", symbol := "sin" }]
  entry := 4

theorem unlinked_decoded :
    Program.decode unlinked.encode = .ok unlinked ∧
    Artifact.decode (Artifact.encode { program := unlinked }) = .ok { program := unlinked } := by
  have hfits : unlinked.Fits := by decide +kernel
  have hvalid : unlinked.validate = .ok () := by decide +kernel
  have hartifact : Artifact.Fits { program := unlinked } := ⟨hfits, nofun⟩
  exact ⟨hfits.decode_encode rfl hvalid _, hartifact.decode_encode rfl hvalid⟩

theorem unlinked_in_range :
    unlinked.IsIn unlinked.encode ∧ (∃ k < unlinked.natives.size, Operand.native 0 = .native k) ∧
      ∃ ip < unlinked.code.size, Operand.address 1 = .address ip := by
  obtain ⟨hprogram, -, hrange⟩ := decode_accepts_iff unlinked.encode
  obtain ⟨-, hoperands, -⟩ := hrange unlinked (.inl unlinked_decoded.1)
  have hcall := (hoperands { op := .callNative, a := .native 0, b := .text 0 } (by simp [unlinked])).2
  have hjump := (hoperands { op := .jump, a := .address 1 } (by simp [unlinked])).2
  obtain ⟨-, -, -, hnative, -⟩ := hcall (.native 0) (by decide)
  obtain ⟨-, -, -, -, -, haddress⟩ := hjump (.address 1) (by decide)
  exact ⟨((hprogram unlinked).1 unlinked_decoded.1).1, hnative rfl, haddress rfl⟩

/-- Accepted programs may build structs of a type that is not there, and functions and the program itself may start where no
instruction is. -/
theorem unlinked_accepted :
    (¬∀ bs p, Program.decode bs = .ok p → ∀ i ∈ p.code, i.op = .makeStruct → ∃ k < p.types.size, i.a = .type k) ∧
    (¬∀ bs p, Program.decode bs = .ok p → ∀ f ∈ p.funcs, ∃ ip < p.code.size, f.entry = (ip : Int)) ∧
    (¬∀ bs p, Program.decode bs = .ok p → ∃ ip < p.code.size, p.entry = (ip : Int)) ∧
    ¬∀ bs a, Artifact.decode bs = .ok a → ∃ ip < a.program.code.size, a.program.entry = (ip : Int) := by
  refine ⟨fun h => ?_, fun h => ?_, fun h => ?_, fun h => ?_⟩
  · obtain ⟨k, hk, -⟩ := h _ _ unlinked_decoded.1 { op := .makeStruct, a := .type 5 } (by simp [unlinked]) rfl
    exact Nat.not_lt_zero k hk
  · obtain ⟨ip, hip, hentry⟩ := h _ _ unlinked_decoded.1 { name := "f", entry := 9 } (by simp [unlinked])
    have hsize : ip < 4 := hip
    have hnine : (9 : Int) = ip := hentry
    omega
  · obtain ⟨ip, hip, hentry⟩ := h _ _ unlinked_decoded.1
    have hsize : ip < 4 := hip
    have hend : (4 : Int) = ip := hentry
    omega
  · obtain ⟨ip, hip, hentry⟩ := h _ _ unlinked_decoded.2
    have hsize : ip < 4 := hip
    have hend : (4 : Int) = ip := hentry
    omega

end TreeCompiler
