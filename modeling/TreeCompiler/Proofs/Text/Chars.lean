import TreeCompiler.Proofs.Text.Utf8

/-!
# Characters of byte strings

`chars` cuts a byte string into characters from the front.

* `chars_of_nextChar` : one character after the other, without fuel;
* `nextChar_encodeChar` : a character that was written is read back;
* `runes` : the characters with U+FFFD in the place of ill-formed octets;
* `Boundary` : no character reaches over the place where two byte strings meet.
-/

namespace TreeCompiler

namespace Utf8

/-- An octet that starts no character stands alone. -/
theorem rest_of_nextChar_none {b : UInt8} {bs rest : Bytes} (h : nextChar (b :: bs) = some (none, rest)) : rest = bs := by
  unfold nextChar at h
  dsimp only at h
  repeat' split at h
  all_goals
    first
    | exact absurd (congrArg Prod.fst (Option.some.inj h)) (Option.some_ne_none _)
    | exact (congrArg Prod.snd (Option.some.inj h)).symm

theorem length_lt_of_nextChar {bs rest : Bytes} {c : Option Char} (h : nextChar bs = some (c, rest)) :
    rest.length < bs.length := by
  cases c with
  | some c =>
    have hpos : 0 < (String.utf8EncodeChar c).length := by
      rw [String.length_utf8EncodeChar]
      exact c.utf8Size_pos
    rw [nextChar_some h, List.length_append]
    omega
  | none =>
    cases bs with
    | nil => cases h
    | cons b bs =>
      rw [rest_of_nextChar_none h]
      exact Nat.lt_succ_self _

/-- As much fuel as there are octets is enough. -/
theorem charsAux_eq {fuel : Nat} {bs : Bytes} (h : bs.length ≤ fuel) : charsAux fuel bs = chars bs := by
  have hsame : ∀ {m n : Nat} {bs : Bytes}, bs.length ≤ m → bs.length ≤ n → charsAux m bs = charsAux n bs := by
    intro m
    induction m with
    | zero =>
      intro n bs hm _
      rw [List.eq_nil_of_length_eq_zero (Nat.le_zero.1 hm)]
      cases n <;> rfl
    | succ m ih =>
      intro n bs hm hn
      cases hnext : nextChar bs with
      | none => cases n <;> simp [charsAux, hnext]
      | some p =>
        obtain ⟨c, rest⟩ := p
        have hlt := length_lt_of_nextChar hnext
        obtain ⟨n, rfl⟩ : ∃ n', n = n' + 1 := ⟨n - 1, by omega⟩
        rw [charsAux, charsAux, hnext]
        exact congrArg (c :: ·) (ih (by omega) (by omega))
  exact hsame h (Nat.le_refl _)

theorem chars_of_nextChar {bs rest : Bytes} {c : Option Char} (h : nextChar bs = some (c, rest)) :
    chars bs = c :: chars rest := by
  have hlt := length_lt_of_nextChar h
  obtain ⟨n, hn⟩ : ∃ n, bs.length = n + 1 := ⟨bs.length - 1, by omega⟩
  unfold chars
  rw [hn, charsAux, h]
  exact congrArg (c :: ·) (charsAux_eq (by omega))

/-! ## Characters that were written -/

section Sequences

variable {b₀ b₁ b₂ b₃ : UInt8} (rest : Bytes)

theorem nextChar_one (h : b₀.toNat < 0x80) : nextChar (b₀ :: rest) = some (some (Char.ofNat b₀.toNat), rest) := by
  simp only [nextChar, h, if_true]

theorem nextChar_two (h₀ : 0xC2 ≤ b₀.toNat ∧ b₀.toNat ≤ 0xDF) (h₁ : isCont b₁ = true) :
    nextChar (b₀ :: b₁ :: rest) = some (some (Char.ofNat (b₀.toNat % 32 * 64 + low6 b₁)), rest) := by
  have hlong : ¬b₀.toNat < 0x80 := by omega
  simp only [nextChar, hlong, if_false, h₀, decide_true, Bool.and_self, if_true, h₁]

theorem nextChar_three (h₀ : 0xE0 ≤ b₀.toNat ∧ b₀.toNat ≤ 0xEF)
    (h₁ : contIn (if b₀.toNat = 0xE0 then 0xA0 else 0x80) (if b₀.toNat = 0xED then 0x9F else 0xBF) b₁ = true)
    (h₂ : isCont b₂ = true) :
    nextChar (b₀ :: b₁ :: b₂ :: rest) =
      some (some (Char.ofNat (b₀.toNat % 16 * 4096 + low6 b₁ * 64 + low6 b₂)), rest) := by
  have hlong : ¬b₀.toNat < 0x80 := by omega
  have hskip : ¬b₀.toNat ≤ 0xDF := by omega
  simp only [nextChar, hlong, if_false, hskip, decide_false, Bool.and_false, Bool.false_eq_true, h₀, decide_true,
    Bool.and_self, if_true, h₁, h₂]

theorem nextChar_four (h₀ : 0xF0 ≤ b₀.toNat ∧ b₀.toNat ≤ 0xF4)
    (h₁ : contIn (if b₀.toNat = 0xF0 then 0x90 else 0x80) (if b₀.toNat = 0xF4 then 0x8F else 0xBF) b₁ = true)
    (h₂ : isCont b₂ = true) (h₃ : isCont b₃ = true) :
    nextChar (b₀ :: b₁ :: b₂ :: b₃ :: rest) =
      some (some (Char.ofNat (b₀.toNat % 8 * 262144 + low6 b₁ * 4096 + low6 b₂ * 64 + low6 b₃)), rest) := by
  have hlong : ¬b₀.toNat < 0x80 := by omega
  have hskip : ¬b₀.toNat ≤ 0xDF := by omega
  have hskip' : ¬b₀.toNat ≤ 0xEF := by omega
  simp only [nextChar, hlong, if_false, hskip, hskip', decide_false, Bool.and_false, Bool.false_eq_true, h₀, decide_true,
    Bool.and_self, if_true, h₁, h₂, h₃]

end Sequences

theorem toNat_octet {n : Nat} (h : n < 256) : (UInt8.ofNat n).toNat = n := by
  rw [UInt8.toNat_ofNat', Nat.mod_eq_of_lt h]

theorem contIn_octet {lo hi n : Nat} (hlo : lo ≤ n % 64 + 0x80) (hhi : n % 64 + 0x80 ≤ hi) :
    contIn lo hi (UInt8.ofNat (n % 64 + 0x80)) = true := by
  simp only [contIn, toNat_octet (show n % 64 + 0x80 < 256 by omega), Bool.and_eq_true, decide_eq_true_eq]
  exact ⟨hlo, hhi⟩

theorem isCont_octet (n : Nat) : isCont (UInt8.ofNat (n % 64 + 0x80)) = true := contIn_octet (by omega) (by omega)

theorem low6_octet (n : Nat) : low6 (UInt8.ofNat (n % 64 + 0x80)) = n % 64 := by
  rw [low6, toNat_octet (by omega)]
  omega

/-- A character is read from its octets. It is written with as few octets as possible and is no half of a surrogate pair,
which is what the bounds on the second octet ask for. -/
theorem nextChar_encodeChar (c : Char) (rest : Bytes) :
    nextChar (String.utf8EncodeChar c ++ rest) = some (some c, rest) := by
  have hvalid : c.val.toNat < 0xD800 ∨ 0xDFFF < c.val.toNat ∧ c.val.toNat < 0x110000 := c.valid
  have hback {n : Nat} (h : n = c.val.toNat) : Char.ofNat n = c := by
    rw [h]
    exact Char.ofNat_toNat c
  unfold String.utf8EncodeChar
  generalize c.val.toNat = v at hvalid hback
  dsimp only
  split
  · have h₀ := toNat_octet (show v < 256 by omega)
    rw [List.singleton_append, nextChar_one _ (by omega), h₀, hback rfl]
  split
  · have h₀ := toNat_octet (show v / 64 % 32 + 192 < 256 by omega)
    rw [List.cons_append, List.singleton_append, nextChar_two _ (by omega) (isCont_octet _), h₀, low6_octet,
      hback (by omega)]
  split
  · have h₀ := toNat_octet (show v / 4096 % 16 + 224 < 256 by omega)
    rw [List.cons_append, List.cons_append, List.singleton_append,
      nextChar_three _ (by omega) (contIn_octet (by split <;> omega) (by split <;> omega)) (isCont_octet _), h₀, low6_octet,
      low6_octet, hback (by omega)]
  · have h₀ := toNat_octet (show v / 262144 % 8 + 240 < 256 by omega)
    rw [List.cons_append, List.cons_append, List.cons_append, List.singleton_append,
      nextChar_four _ (by omega) (contIn_octet (by split <;> omega) (by split <;> omega)) (isCont_octet _) (isCont_octet _),
      h₀, low6_octet, low6_octet, low6_octet, hback (by omega)]

/-! ## Characters as they are shown -/

/-- The characters of a byte string, with U+FFFD for an octet outside a valid sequence. -/
def runes (bs : Bytes) : List Char := orReplacement (chars bs)

theorem runes_of_nextChar {bs rest : Bytes} {c : Option Char} (h : nextChar bs = some (c, rest)) :
    runes bs = c.getD replacement :: runes rest := by
  rw [runes, chars_of_nextChar h]
  rfl

/-- Characters that were written are read back. -/
theorem runes_encode (cs : List Char) : runes (cs.flatMap String.utf8EncodeChar) = cs := by
  induction cs with
  | nil => rfl
  | cons c cs ih => rw [List.flatMap_cons, runes_of_nextChar (nextChar_encodeChar c _), ih, Option.getD_some]

/-- A tab is an octet by itself. -/
theorem notMem_runes {bs : Bytes} (h : 9 ∉ bs) : '\t' ∉ runes bs := by
  induction hn : bs.length using Nat.strongRecOn generalizing bs with
  | ind n ih =>
    cases hnext : nextChar bs with
    | none =>
      cases bs with
      | nil => exact List.not_mem_nil
      | cons b bs => exact absurd hnext (nextChar_cons_ne_none b bs)
    | some p =>
      obtain ⟨c, rest⟩ := p
      have hlt := length_lt_of_nextChar hnext
      rw [runes_of_nextChar hnext, List.mem_cons, not_or]
      cases c with
      | none =>
        obtain ⟨b, bs, rfl⟩ : ∃ b bs', bs = b :: bs' := List.exists_cons_of_length_pos (by omega)
        obtain rfl := rest_of_nextChar_none hnext
        exact ⟨by decide, ih _ (by omega) (fun hmem => h (List.mem_cons_of_mem _ hmem)) rfl⟩
      | some c =>
        rw [nextChar_some hnext, List.mem_append, not_or] at h
        refine ⟨?_, ih _ (by omega) h.2 rfl⟩
        rintro rfl
        exact h.1 (by decide)

/-- No character reaches over the place where the two byte strings meet. -/
def Boundary (xs ys : Bytes) : Prop := chars (xs ++ ys) = chars xs ++ chars ys

instance (xs ys : Bytes) : Decidable (Boundary xs ys) :=
  inferInstanceAs (Decidable (chars (xs ++ ys) = chars xs ++ chars ys))

theorem Boundary.runes_append {xs ys : Bytes} (h : Boundary xs ys) : runes (xs ++ ys) = runes xs ++ runes ys := by
  rw [runes, h, orReplacement, List.map_append]
  rfl

end Utf8

end TreeCompiler
