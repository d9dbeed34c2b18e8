import Mathlib.Logic.Basic
import TreeCompiler.Text.Utf8

/-!
# Texts carry their bytes

`decode` makes a text of any byte string, with stand-ins for the octets outside a valid sequence. Nothing is lost by it:
`encode` gives the same octets back.

* `nextChar_some`, `nextChar_none` : what stands at the front of a byte string, by what `nextChar` says of it;
* `encode_decode` : the octets of the text of a byte string;
* `Carries` : a text that some byte string of bounded length gives; whether it is one can be computed;
* `mem_of_mem_encode` : an octet below 0x80 comes from the character of its number only; `encode_inj_of_basic` : texts of
  such characters have different octets.
-/

namespace TreeCompiler

namespace Utf8

/-! ## The octets of a character -/

theorem toNat_ofNat {v : Nat} (h : v.isValidChar) : (Char.ofNat v).val.toNat = v := by
  unfold Char.ofNat
  rw [dif_pos h]
  rfl

theorem octet_eq {b : UInt8} {n : Nat} (h : n = b.toNat) : UInt8.ofNat n = b := by rw [h, UInt8.ofNat_toNat]

theorem encodeChar_one {b : UInt8} (h : b.toNat < 0x80) : String.utf8EncodeChar (Char.ofNat b.toNat) = [b] := by
  have hv := toNat_ofNat (v := b.toNat) (Or.inl (by omega))
  unfold String.utf8EncodeChar
  rw [hv]
  dsimp only
  rw [if_pos (by omega), UInt8.ofNat_toNat]

theorem encodeChar_two {b₀ b₁ : UInt8} (h₀ : 0xC2 ≤ b₀.toNat ∧ b₀.toNat ≤ 0xDF) (h₁ : isCont b₁ = true) :
    String.utf8EncodeChar (Char.ofNat (b₀.toNat % 32 * 64 + low6 b₁)) = [b₀, b₁] := by
  simp only [isCont, contIn, Bool.and_eq_true, decide_eq_true_eq] at h₁
  unfold low6
  have hv := toNat_ofNat (v := b₀.toNat % 32 * 64 + b₁.toNat % 64) (Or.inl (by omega))
  unfold String.utf8EncodeChar
  rw [hv]
  dsimp only
  rw [if_neg (by omega), if_pos (by omega), octet_eq (b := b₀) (by omega), octet_eq (b := b₁) (by omega)]

theorem encodeChar_three {b₀ b₁ b₂ : UInt8} (h₀ : 0xE0 ≤ b₀.toNat ∧ b₀.toNat ≤ 0xEF)
    (h₁ : contIn (if b₀.toNat = 0xE0 then 0xA0 else 0x80) (if b₀.toNat = 0xED then 0x9F else 0xBF) b₁ = true)
    (h₂ : isCont b₂ = true) :
    String.utf8EncodeChar (Char.ofNat (b₀.toNat % 16 * 4096 + low6 b₁ * 64 + low6 b₂)) = [b₀, b₁, b₂] := by
  simp only [isCont, contIn, Bool.and_eq_true, decide_eq_true_eq] at h₁ h₂
  have hb₁ : (0x80 ≤ b₁.toNat ∧ b₁.toNat ≤ 0xBF) ∧ (b₀.toNat = 0xE0 → 0xA0 ≤ b₁.toNat) ∧
      (b₀.toNat = 0xED → b₁.toNat ≤ 0x9F) := by
    split at h₁ <;> split at h₁ <;> omega
  obtain ⟨hcont, hlow, hhigh⟩ := hb₁
  clear h₁
  unfold low6
  have hle : 0x800 ≤ b₀.toNat % 16 * 4096 + b₁.toNat % 64 * 64 + b₂.toNat % 64 := by omega
  have hv := toNat_ofNat (v := b₀.toNat % 16 * 4096 + b₁.toNat % 64 * 64 + b₂.toNat % 64)
    (by unfold Nat.isValidChar; omega)
  clear hlow hhigh
  unfold String.utf8EncodeChar
  rw [hv]
  dsimp only
  rw [if_neg (by omega), if_neg (by omega), if_pos (by omega), octet_eq (b := b₀) (by omega),
    octet_eq (b := b₁) (by omega), octet_eq (b := b₂) (by omega)]

theorem encodeChar_four {b₀ b₁ b₂ b₃ : UInt8} (h₀ : 0xF0 ≤ b₀.toNat ∧ b₀.toNat ≤ 0xF4)
    (h₁ : contIn (if b₀.toNat = 0xF0 then 0x90 else 0x80) (if b₀.toNat = 0xF4 then 0x8F else 0xBF) b₁ = true)
    (h₂ : isCont b₂ = true) (h₃ : isCont b₃ = true) :
    String.utf8EncodeChar (Char.ofNat (b₀.toNat % 8 * 262144 + low6 b₁ * 4096 + low6 b₂ * 64 + low6 b₃)) =
      [b₀, b₁, b₂, b₃] := by
  simp only [isCont, contIn, Bool.and_eq_true, decide_eq_true_eq] at h₁ h₂ h₃
  have hb₁ : (0x80 ≤ b₁.toNat ∧ b₁.toNat ≤ 0xBF) ∧ (b₀.toNat = 0xF0 → 0x90 ≤ b₁.toNat) ∧
      (b₀.toNat = 0xF4 → b₁.toNat ≤ 0x8F) := by
    split at h₁ <;> split at h₁ <;> omega
  obtain ⟨hcont, hlow, hhigh⟩ := hb₁
  clear h₁
  unfold low6
  have hle : 0x10000 ≤ b₀.toNat % 8 * 262144 + b₁.toNat % 64 * 4096 + b₂.toNat % 64 * 64 + b₃.toNat % 64 := by omega
  have hv := toNat_ofNat (v := b₀.toNat % 8 * 262144 + b₁.toNat % 64 * 4096 + b₂.toNat % 64 * 64 + b₃.toNat % 64)
    (by unfold Nat.isValidChar; omega)
  clear hlow hhigh
  unfold String.utf8EncodeChar
  rw [hv]
  dsimp only
  rw [if_neg (by omega), if_neg (by omega), if_neg (by omega), octet_eq (b := b₀) (by omega),
    octet_eq (b := b₁) (by omega), octet_eq (b := b₂) (by omega), octet_eq (b := b₃) (by omega)]

/-! ## The front of a byte string -/

theorem nextChar_some {bs rest : Bytes} {c : Char} (h : nextChar bs = some (some c, rest)) :
    bs = String.utf8EncodeChar c ++ rest := by
  unfold nextChar at h
  split at h
  · cases h
  · rename_i b₀ tail
    dsimp only at h
    split at h
    · rename_i h₀
      cases h
      rw [encodeChar_one h₀]
      rfl
    split at h
    · rename_i h₀
      rw [Bool.and_eq_true, decide_eq_true_eq, decide_eq_true_eq] at h₀
      split at h
      · split at h
        · rename_i h₁
          cases h
          rw [encodeChar_two h₀ h₁]
          rfl
        · cases h
      · cases h
    split at h
    · rename_i h₀
      rw [Bool.and_eq_true, decide_eq_true_eq, decide_eq_true_eq] at h₀
      split at h
      · rename_i b₁ b₂ tail
        by_cases h₁ : (contIn (if b₀.toNat = 0xE0 then 0xA0 else 0x80) (if b₀.toNat = 0xED then 0x9F else 0xBF) b₁ &&
            isCont b₂) = true
        · rw [if_pos h₁] at h
          rw [Bool.and_eq_true] at h₁
          cases h
          rw [encodeChar_three h₀ h₁.1 h₁.2]
          rfl
        · rw [if_neg h₁] at h
          cases h
      · cases h
    split at h
    · rename_i h₀
      rw [Bool.and_eq_true, decide_eq_true_eq, decide_eq_true_eq] at h₀
      split at h
      · rename_i b₁ b₂ b₃ tail
        by_cases h₁ : (contIn (if b₀.toNat = 0xF0 then 0x90 else 0x80) (if b₀.toNat = 0xF4 then 0x8F else 0xBF) b₁ &&
            isCont b₂ && isCont b₃) = true
        · rw [if_pos h₁] at h
          rw [Bool.and_eq_true, Bool.and_eq_true] at h₁
          cases h
          rw [encodeChar_four h₀ h₁.1.1 h₁.1.2 h₁.2]
          rfl
        · rw [if_neg h₁] at h
          cases h
      · cases h
    · cases h

/-- Octets below 0x80 are characters by themselves. -/
theorem nextChar_none {b : UInt8} {bs rest : Bytes} (h : nextChar (b :: bs) = some (none, rest)) : 0x80 ≤ b.toNat := by
  refine Nat.le_of_not_lt fun hb => ?_
  unfold nextChar at h
  dsimp only at h
  rw [if_pos hb] at h
  cases h

theorem nextChar_cons_ne_none (b : UInt8) (bs : Bytes) : nextChar (b :: bs) ≠ none := by
  unfold nextChar
  dsimp only
  repeat' split
  all_goals exact Option.some_ne_none _

/-! ## Texts -/

theorem toNat_standIn (b : UInt8) : (standIn b).toNat = firstStandIn - 0x80 + b.toNat := by
  have := b.toNat_lt
  unfold standIn Char.toNat
  exact toNat_ofNat (Or.inr (by unfold firstStandIn; omega))

/-- A stand-in stands for its octet. -/
theorem encodeChar_standIn {b : UInt8} (h : 0x80 ≤ b.toNat) : encodeChar (standIn b) = [b] := by
  have hstand : isStandIn (standIn b) = true := by
    unfold isStandIn
    rw [toNat_standIn, decide_eq_true_eq]
    unfold firstStandIn
    omega
  unfold encodeChar
  rw [if_pos hstand, toNat_standIn, Nat.add_sub_cancel_left, UInt8.ofNat_toNat]

/-- All octets of the characters that serve as stand-ins have stand-ins themselves. -/
theorem le_of_mem_utf8EncodeChar {c : Char} (hc : isStandIn c = true) : ∀ b ∈ String.utf8EncodeChar c, 0x80 ≤ b.toNat := by
  unfold isStandIn firstStandIn at hc
  rw [decide_eq_true_eq] at hc
  have hv : 0x10FF80 ≤ c.val.toNat := hc
  unfold String.utf8EncodeChar
  dsimp only
  rw [if_neg (by omega), if_neg (by omega), if_neg (by omega)]
  intro b hb
  simp only [List.mem_cons, List.not_mem_nil, or_false] at hb
  rcases hb with rfl | rfl | rfl | rfl <;> rw [UInt8.toNat_ofNat'] <;> omega

theorem encode_carried (c : Char) : (carried c).flatMap encodeChar = String.utf8EncodeChar c := by
  unfold carried
  split
  · rename_i hc
    rw [List.flatMap_map, List.flatMap_def,
      List.map_congr_left fun b hb => encodeChar_standIn (le_of_mem_utf8EncodeChar hc b hb), ← List.flatMap_def]
    exact List.flatMap_singleton' _
  · rename_i hc
    rw [List.flatMap_singleton]
    exact if_neg hc

theorem encode_carriedAux {bs : Bytes} {fuel : Nat} (h : bs.length ≤ fuel) : (carriedAux fuel bs).flatMap encodeChar = bs := by
  induction fuel generalizing bs with
  | zero =>
    rw [List.eq_nil_of_length_eq_zero (Nat.le_zero.1 h)]
    rfl
  | succ fuel ih =>
    cases bs with
    | nil => rfl
    | cons b bs =>
      rw [List.length_cons] at h
      cases hnext : nextChar (b :: bs) with
      | none => exact absurd hnext (nextChar_cons_ne_none b bs)
      | some p =>
        obtain ⟨c, rest⟩ := p
        cases c with
        | none =>
          unfold carriedAux
          rw [hnext]
          rw [List.flatMap_cons, encodeChar_standIn (nextChar_none hnext), ih (by omega)]
          rfl
        | some c =>
          have hbs := nextChar_some hnext
          have hlen : rest.length ≤ fuel := by
            have hshort := congrArg List.length hbs
            have hpos : 0 < (String.utf8EncodeChar c).length := by
              rw [String.length_utf8EncodeChar]
              exact c.utf8Size_pos
            rw [List.length_cons, List.length_append] at hshort
            omega
          unfold carriedAux
          rw [hnext]
          rw [List.flatMap_append, encode_carried, ih hlen, ← hbs]

/-- The text of a byte string gives its octets back. -/
theorem encode_decode (bs : Bytes) : encode (decode bs) = bs := by
  unfold encode decode
  rw [String.toList_ofList]
  exact encode_carriedAux (Nat.le_refl _)

/-- A text that carries a byte string of fewer octets than `bound`. -/
def Carries (bound : Nat) (s : String) : Prop := ∃ bs : Bytes, bs.length < bound ∧ decode bs = s

theorem carries_iff {bound : Nat} {s : String} : Carries bound s ↔ decode (encode s) = s ∧ (encode s).length < bound := by
  constructor
  · rintro ⟨bs, hlen, rfl⟩
    rw [encode_decode]
    exact ⟨rfl, hlen⟩
  · rintro ⟨hdecode, hlen⟩
    exact ⟨encode s, hlen, hdecode⟩

instance (bound : Nat) (s : String) : Decidable (Carries bound s) := decidable_of_iff' _ carries_iff

/-! ## Basic characters -/

theorem encode_append (s t : String) : encode (s ++ t) = encode s ++ encode t := by simp [encode]

theorem encode_join (ss : List String) : encode (String.join ss) = ss.flatMap encode := by
  simp only [encode, String.toList_join, List.flatMap_assoc]
  rfl

theorem toNat_lt_size (c : Char) : c.toNat < 0x110000 := by
  have hvalid := c.valid
  unfold UInt32.isValidChar Nat.isValidChar at hvalid
  have hc : c.toNat = c.val.toNat := rfl
  omega

/-- An octet below 0x80 is a character by itself. -/
theorem toNat_of_mem_utf8EncodeChar {c : Char} {b : UInt8} (h : b ∈ String.utf8EncodeChar c) (hb : b.toNat < 0x80) :
    b.toNat = c.toNat := by
  have hc : c.toNat = c.val.toNat := rfl
  unfold String.utf8EncodeChar at h
  dsimp only at h
  split at h
  · rw [List.mem_singleton] at h
    rw [h, UInt8.toNat_ofNat']
    omega
  · split at h
    · simp only [List.mem_cons, List.not_mem_nil, or_false] at h
      rcases h with rfl | rfl <;> rw [UInt8.toNat_ofNat'] at hb <;> omega
    · split at h
      · simp only [List.mem_cons, List.not_mem_nil, or_false] at h
        rcases h with rfl | rfl | rfl <;> rw [UInt8.toNat_ofNat'] at hb <;> omega
      · simp only [List.mem_cons, List.not_mem_nil, or_false] at h
        rcases h with rfl | rfl | rfl | rfl <;> rw [UInt8.toNat_ofNat'] at hb <;> omega

/-- The octet of a basic character stands for nothing else. -/
theorem mem_of_mem_encode {s : String} {c : Char} (hc : c.toNat < 0x80) (h : UInt8.ofNat c.toNat ∈ encode s) :
    c ∈ s.toList := by
  have hb : (UInt8.ofNat c.toNat).toNat = c.toNat := by
    rw [UInt8.toNat_ofNat']
    omega
  obtain ⟨d, hd, hmem⟩ := List.mem_flatMap.1 h
  unfold encodeChar at hmem
  split at hmem
  · rename_i hstand
    have hlt := toNat_lt_size d
    unfold isStandIn firstStandIn at hstand
    rw [decide_eq_true_eq] at hstand
    have hoctet := congrArg UInt8.toNat (List.mem_singleton.1 hmem)
    rw [hb, UInt8.toNat_ofNat', firstStandIn] at hoctet
    omega
  · have hoctet := toNat_of_mem_utf8EncodeChar hmem (by omega)
    rw [hb] at hoctet
    rwa [Char.toNat_inj.1 hoctet]

/-- A text of basic characters only. -/
def Basic (s : String) : Prop := ∀ c ∈ s.toList, c.toNat < 0x80

theorem encode_of_basic {s : String} (h : Basic s) : encode s = s.toList.map fun c => UInt8.ofNat c.toNat := by
  unfold encode
  rw [List.map_eq_flatMap, List.flatMap_def, List.flatMap_def]
  refine congrArg List.flatten (List.map_congr_left fun c hc => ?_)
  have hlt := h c hc
  have hstand : isStandIn c = false := by
    unfold isStandIn firstStandIn
    rw [decide_eq_false_iff_not]
    omega
  unfold encodeChar
  rw [hstand, if_neg Bool.false_ne_true]
  have hone := encodeChar_one (b := UInt8.ofNat c.toNat) (by rw [UInt8.toNat_ofNat']; omega)
  rwa [UInt8.toNat_ofNat', Nat.mod_eq_of_lt (by omega), Char.ofNat_toNat] at hone

theorem encode_inj_of_basic {s t : String} (hs : Basic s) (ht : Basic t) (h : encode s = encode t) : s = t := by
  have hback {u : String} (hu : Basic u) : (encode u).map (fun b => Char.ofNat b.toNat) = u.toList := by
    rw [encode_of_basic hu, List.map_map, List.map_congr_left, List.map_id]
    intro c hc
    have hlt := hu c hc
    rw [Function.comp_apply, UInt8.toNat_ofNat', Nat.mod_eq_of_lt (by omega), Char.ofNat_toNat, id]
  rw [← String.toList_inj, ← hback hs, ← hback ht, h]

end Utf8

end TreeCompiler
