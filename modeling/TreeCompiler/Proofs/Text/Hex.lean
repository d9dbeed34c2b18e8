import Mathlib.Algebra.Group.Nat.Defs
import Mathlib.Data.List.Basic
import TreeCompiler.Proofs.Text.Utf8
import TreeCompiler.Text.Quoted

/-!
# Hexadecimal texts

Numbers are read back from their digits, whether zeros stand before them or not. So different numbers have different texts.

* `hexNumber` : the number that digits stand for;
* `hexText_inj`, `hexPadded_inj` : numbers of one text;
* `basic_hexText`, `notMem_hexText` : the characters of such a text.
-/

namespace TreeCompiler

/-- The number that a list of digits stands for. -/
def hexNumber (cs : List Char) : Nat := cs.foldl (fun v c => 16 * v + (hexValue? c).getD 0) 0

theorem hexNumber_append_digit (cs : List Char) {d : Nat} (hd : d < 16) :
    hexNumber (cs ++ [Nat.digitChar d]) = 16 * hexNumber cs + d := by
  have hvalue : (hexValue? (Nat.digitChar d)).getD 0 = d := by
    revert d
    decide
  rw [hexNumber, List.foldl_append, List.foldl_cons, List.foldl_nil, hvalue]
  rfl

theorem hexNumber_toDigits (n : Nat) : hexNumber (Nat.toDigits 16 n) = n := by
  induction n using Nat.strongRecOn with
  | ind n ih =>
    by_cases h : n < 16
    · rw [Nat.toDigits_of_lt_base h]
      have hdigit := hexNumber_append_digit [] h
      rw [List.nil_append] at hdigit
      rw [hdigit, hexNumber, List.foldl_nil]
      omega
    · rw [Nat.toDigits_of_base_le (by omega) (by omega), hexNumber_append_digit _ (Nat.mod_lt n (by omega)),
        ih (n / 16) (by omega)]
      omega

theorem hexNumber_zeros (k : Nat) (cs : List Char) : hexNumber (List.replicate k '0' ++ cs) = hexNumber cs := by
  induction k with
  | zero => rfl
  | succ k ih => rw [← ih, List.replicate_succ, List.cons_append, hexNumber, List.foldl_cons]; rfl

theorem hexText_inj {m n : Nat} (h : hexText m = hexText n) : m = n := by
  unfold hexText at h
  rw [← hexNumber_toDigits m, ← hexNumber_toDigits n, String.ofList_inj.1 h]

theorem hexPadded_inj {width m n : Nat} (h : hexPadded width m = hexPadded width n) : m = n := by
  have hlist := congrArg (fun s : String => hexNumber s.toList) h
  simp only [hexPadded, hexText, String.toList_append, String.toList_ofList, hexNumber_zeros, hexNumber_toDigits] at hlist
  exact hlist

theorem mem_toDigits {n : Nat} {c : Char} (h : c ∈ Nat.toDigits 16 n) : ∃ d < 16, c = Nat.digitChar d := by
  induction n using Nat.strongRecOn with
  | ind n ih =>
    by_cases hn : n < 16
    · rw [Nat.toDigits_of_lt_base hn, List.mem_singleton] at h
      exact ⟨n, hn, h⟩
    · rw [Nat.toDigits_of_base_le (by omega) (by omega), List.mem_append, List.mem_singleton] at h
      rcases h with h | h
      · exact ih (n / 16) (by omega) h
      · exact ⟨n % 16, Nat.mod_lt n (by omega), h⟩

theorem basic_hexText (n : Nat) : Utf8.Basic (hexText n) := by
  intro c hc
  rw [hexText, String.toList_ofList] at hc
  obtain ⟨d, hd, rfl⟩ := mem_toDigits hc
  clear hc
  revert d
  decide

/-- Commas separate the parts of keys. -/
theorem notMem_hexText (n : Nat) : ',' ∉ (hexText n).toList := by
  intro hc
  rw [hexText, String.toList_ofList] at hc
  obtain ⟨d, hd, hcomma⟩ := mem_toDigits hc
  revert d
  decide

theorem basic_hexPadded (width n : Nat) : Utf8.Basic (hexPadded width n) := by
  intro c hc
  rw [hexPadded, String.toList_append, String.toList_ofList, List.mem_append] at hc
  rcases hc with hc | hc
  · rw [List.eq_of_mem_replicate hc]
    decide
  · exact basic_hexText n c hc

theorem length_hexPadded {width n : Nat} (hw : 0 < width) (hn : n < 16 ^ width) :
    (hexPadded width n).toList.length = width := by
  have hdigits : (hexText n).length ≤ width := by
    rw [hexText, String.length_ofList]
    exact (Nat.length_toDigits_le_iff (by omega) hw).2 hn
  simp only [hexPadded, String.toList_append, String.toList_ofList, List.length_append, List.length_replicate,
    String.length_toList]
  omega

end TreeCompiler
