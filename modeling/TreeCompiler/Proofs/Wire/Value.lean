import TreeCompiler.Wire.Value

/-!
# Wire values are read back

Every value whose numbers and lengths the format has room for is read back from its encoding, whatever follows it.

* `Fits` : integers of 64 bits, signed or not, and lengths of 32 bits, in the value and below it;
* `nat?_bigEndian`, `counted?_append` : the numbers and lengths behind a code octet;
* `decodeAux_int`, `decodeAux_text`, ... : each kind of value, with one case for each of its forms;
* `decode?_encode` : all of them, by induction on the value.
-/

namespace TreeCompiler.Wire

/-! ## Numbers -/

theorem length_bigEndian (count n : Nat) : (bigEndian count n).length = count := by
  induction count with
  | zero => rfl
  | succ count ih => rw [bigEndian, List.length_cons, ih]

theorem foldl_bigEndian (count n acc : Nat) : (bigEndian count n).foldl (fun n b => n * 256 + b.toNat) acc =
    acc * Nat.pow 256 count + n % Nat.pow 256 count := by
  induction count generalizing acc with
  | zero =>
    show acc = acc * 1 + n % 1
    omega
  | succ count ih =>
    have hpow : Nat.pow 256 (count + 1) = Nat.pow 256 count * 256 := rfl
    rw [bigEndian, List.foldl_cons, ih, UInt8.toNat_ofNat', hpow, Nat.mod_mul, Nat.add_mul, Nat.mul_assoc,
      Nat.mul_comm 256, Nat.mul_comm (n / _ % _), Nat.add_assoc, Nat.add_comm (_ * (_ % _))]

theorem ofBigEndian_bigEndian {count n : Nat} (h : n < Nat.pow 256 count) : ofBigEndian (bigEndian count n) = n := by
  unfold ofBigEndian
  rw [foldl_bigEndian, Nat.zero_mul, Nat.zero_add, Nat.mod_eq_of_lt h]

theorem take?_append {n : Nat} {bs : Bytes} (h : bs.length = n) (rest : Bytes) : take? n (bs ++ rest) = some (bs, rest) := by
  unfold take?
  rw [List.take_left' h, List.drop_left' h]
  exact if_pos h

theorem nat?_bigEndian (count : Nat) {n : Nat} (h : n < Nat.pow 256 count) (rest : Bytes) :
    nat? count (bigEndian count n ++ rest) = some (n, rest) := by
  unfold nat?
  rw [take?_append (length_bigEndian count n), Option.map_some]
  dsimp only
  rw [ofBigEndian_bigEndian h]

theorem unsigned?_bigEndian (count : Nat) {n : Nat} (h : n < Nat.pow 256 count) (rest : Bytes) :
    unsigned? count (bigEndian count n ++ rest) = some (int n, rest) := by
  unfold unsigned?
  rw [nat?_bigEndian count h, Option.map_some]

/-- A negative number that fits in the octets is told apart by its highest bit. -/
theorem signed?_bigEndian (count half : Nat) {n : Int} (hpow : Nat.pow 256 count = 2 * half) (hlow : -(half : Int) ≤ n)
    (hneg : n < 0) (rest : Bytes) :
    signed? count (bigEndian count (twosComplement count n) ++ rest) = some (int n, rest) := by
  have htwos : twosComplement count n = (n + (2 * half : Nat)).toNat := by
    unfold twosComplement
    rw [hpow, ← Int.add_emod_right, Int.emod_eq_of_lt (by omega) (by omega)]
  have hlt : twosComplement count n < Nat.pow 256 count := by
    rw [htwos, hpow]
    omega
  unfold signed?
  rw [nat?_bigEndian count hlt, Option.map_some]
  dsimp only
  rw [htwos, hpow, if_neg (by omega)]
  congr 3
  omega

theorem counted?_append {make : Bytes → Wire} (count : Nat) {bs : Bytes} (h : bs.length < Nat.pow 256 count) (rest : Bytes) :
    counted? make count (bigEndian count bs.length ++ bs ++ rest) = some (make bs, rest) := by
  unfold counted?
  rw [List.append_assoc, nat?_bigEndian count h]
  show (take? bs.length (bs ++ rest)).bind _ = _
  rw [take?_append rfl]
  rfl

/-! ## Values that fit -/

mutual

/-- The format has room for the numbers and lengths in the value and below it. -/
def Fits : Wire → Prop
  | int n => -(Nat.pow 2 63 : Int) ≤ n ∧ n < (Nat.pow 2 64 : Nat)
  | text bs => bs.length < Nat.pow 2 32
  | blob bs => bs.length < Nat.pow 2 32
  | array items => items.length < Nat.pow 2 32 ∧ AllFit items
  | map entries => entries.length < Nat.pow 2 32 ∧ EntriesFit entries
  | extension data => data.length < Nat.pow 2 8
  | _ => True

def AllFit : List Wire → Prop
  | [] => True
  | w :: rest => Fits w ∧ AllFit rest

def EntriesFit : List (Wire × Wire) → Prop
  | [] => True
  | (k, v) :: rest => Fits k ∧ Fits v ∧ EntriesFit rest

end

/-! ## Each kind of value -/

theorem decodeAux_cons (fuel : Nat) (c : UInt8) (bs : Bytes) : decodeAux (fuel + 1) (c :: bs) = body? (decodeAux fuel) c.toNat bs :=
  rfl

theorem toNat_octet {n : Nat} (h : n < 256) : (UInt8.ofNat n).toNat = n := by
  rw [UInt8.toNat_ofNat', Nat.mod_eq_of_lt h]

theorem decodeAux_nat (fuel : Nat) {n : Nat} (h : n < Nat.pow 2 64) (rest : Bytes) :
    decodeAux (fuel + 1) (encodeNat n ++ rest) = some (int n, rest) := by
  unfold encodeNat
  split
  · rename_i hn
    show decodeAux _ (UInt8.ofNat (n / 1) :: rest) = _
    rw [Nat.div_one, decodeAux_cons, toNat_octet (by omega)]
    unfold body?
    rw [if_pos (by omega)]
  split
  · rename_i hn
    exact unsigned?_bigEndian 1 hn rest
  split
  · rename_i hn
    exact unsigned?_bigEndian 2 hn rest
  split
  · rename_i hn
    exact unsigned?_bigEndian 4 hn rest
  · exact unsigned?_bigEndian 8 h rest

theorem decodeAux_int (fuel : Nat) {n : Int} (hlow : -(Nat.pow 2 63 : Int) ≤ n) (hhigh : n < (Nat.pow 2 64 : Nat))
    (rest : Bytes) : decodeAux (fuel + 1) (encodeInt n ++ rest) = some (int n, rest) := by
  unfold encodeInt
  split
  · rename_i hn
    obtain ⟨k, rfl⟩ := Int.eq_ofNat_of_zero_le hn
    exact decodeAux_nat fuel (Int.ofNat_lt.1 hhigh) rest
  rename_i hneg
  split
  · rename_i hn
    have htwos : twosComplement 1 n / 1 = (n + 256).toNat := by
      show (n % 256).toNat / 1 = _
      omega
    show decodeAux _ (UInt8.ofNat (twosComplement 1 n / 1) :: rest) = _
    rw [htwos, decodeAux_cons, toNat_octet (by omega)]
    unfold body?
    rw [if_neg (by omega), if_neg (by omega), if_neg (by omega),
      if_neg (by omega), if_pos (by omega)]
    congr 3
    omega
  split
  · rename_i hn
    exact signed?_bigEndian 1 (Nat.pow 2 7) rfl hn (by omega) rest
  split
  · rename_i hn
    exact signed?_bigEndian 2 (Nat.pow 2 15) rfl hn (by omega) rest
  split
  · rename_i hn
    exact signed?_bigEndian 4 (Nat.pow 2 31) rfl hn (by omega) rest
  · exact signed?_bigEndian 8 (Nat.pow 2 63) rfl hlow (by omega) rest

theorem decodeAux_single (fuel : Nat) (bits : UInt32) (rest : Bytes) :
    decodeAux (fuel + 1) (encode (single bits) ++ rest) = some (single bits, rest) := by
  rw [encode]
  show (nat? 4 (bigEndian 4 bits.toNat ++ rest)).map (fun p => (single (UInt32.ofNat p.1), p.2)) = _
  rw [nat?_bigEndian 4 bits.toNat_lt, Option.map_some, UInt32.ofNat_toNat]

theorem decodeAux_real (fuel : Nat) (bits : UInt64) (rest : Bytes) :
    decodeAux (fuel + 1) (encode (real bits) ++ rest) = some (real bits, rest) := by
  rw [encode]
  show (nat? 8 (bigEndian 8 bits.toNat ++ rest)).map (fun p => (real (UInt64.ofNat p.1), p.2)) = _
  rw [nat?_bigEndian 8 bits.toNat_lt, Option.map_some, UInt64.ofNat_toNat]

theorem decodeAux_text (fuel : Nat) {bs : Bytes} (h : bs.length < Nat.pow 2 32) (rest : Bytes) :
    decodeAux (fuel + 1) (textHead bs.length ++ bs ++ rest) = some (text bs, rest) := by
  unfold textHead
  split
  · rename_i hn
    show decodeAux _ (UInt8.ofNat (0xa0 + bs.length) :: (bs ++ rest)) = _
    rw [decodeAux_cons, toNat_octet (by omega)]
    unfold body?
    rw [if_neg (by omega), if_neg (by omega), if_neg (by omega),
      if_pos (by omega), take?_append (by omega), Option.map_some]
  split
  · rename_i hn
    exact counted?_append 1 hn rest
  split
  · rename_i hn
    exact counted?_append 2 hn rest
  · exact counted?_append 4 h rest

theorem decodeAux_blob (fuel : Nat) {bs : Bytes} (h : bs.length < Nat.pow 2 32) (rest : Bytes) :
    decodeAux (fuel + 1) (blobHead bs.length ++ bs ++ rest) = some (blob bs, rest) := by
  unfold blobHead
  split
  · rename_i hn
    exact counted?_append 1 hn rest
  split
  · rename_i hn
    exact counted?_append 2 hn rest
  · exact counted?_append 4 h rest

theorem decodeAux_extension (fuel : Nat) {data : Bytes} (h : data.length < Nat.pow 2 8) (rest : Bytes) :
    decodeAux (fuel + 1) (encode (extension data) ++ rest) = some (extension data, rest) := by
  have hencode : encode (extension data) ++ rest = 0xc7 :: (bigEndian 1 data.length ++ (0 :: (data ++ rest))) := by
    simp [encode]
  rw [hencode]
  show (nat? 1 (bigEndian 1 data.length ++ (0 :: (data ++ rest)))).bind (fun p => tagged? p.1 p.2) = _
  rw [nat?_bigEndian 1 h]
  show (take? data.length (data ++ rest)).bind _ = _
  rw [take?_append rfl]
  rfl

/-- The head of a list is read, and then its items. -/
theorem decodeAux_arrayHead (fuel : Nat) {n : Nat} (h : n < Nat.pow 2 32) (bs : Bytes) :
    decodeAux (fuel + 1) (arrayHead n ++ bs) = array? (decodeAux fuel) n bs := by
  unfold arrayHead
  split
  · rename_i hn
    show decodeAux _ (UInt8.ofNat (0x90 + n) :: bs) = _
    rw [decodeAux_cons, toNat_octet (by omega)]
    unfold body?
    rw [if_neg (by omega), if_neg (by omega), if_pos (by omega),
      Nat.add_sub_cancel_left]
  split
  · rename_i hn
    show (nat? 2 (bigEndian 2 n ++ bs)).bind (fun p => array? (decodeAux fuel) p.1 p.2) = _
    rw [nat?_bigEndian 2 hn, Option.bind_some]
  · show (nat? 4 (bigEndian 4 n ++ bs)).bind (fun p => array? (decodeAux fuel) p.1 p.2) = _
    rw [nat?_bigEndian 4 h, Option.bind_some]

theorem decodeAux_mapHead (fuel : Nat) {n : Nat} (h : n < Nat.pow 2 32) (bs : Bytes) :
    decodeAux (fuel + 1) (mapHead n ++ bs) = map? (decodeAux fuel) n bs := by
  unfold mapHead
  split
  · rename_i hn
    show decodeAux _ (UInt8.ofNat (0x80 + n) :: bs) = _
    rw [decodeAux_cons, toNat_octet (by omega)]
    unfold body?
    rw [if_neg (by omega), if_pos (by omega), Nat.add_sub_cancel_left]
  split
  · rename_i hn
    show (nat? 2 (bigEndian 2 n ++ bs)).bind (fun p => map? (decodeAux fuel) p.1 p.2) = _
    rw [nat?_bigEndian 2 hn, Option.bind_some]
  · show (nat? 4 (bigEndian 4 n ++ bs)).bind (fun p => map? (decodeAux fuel) p.1 p.2) = _
    rw [nat?_bigEndian 4 h, Option.bind_some]

/-! ## All values -/

theorem arrayHead_pos (n : Nat) : 0 < (arrayHead n).length := by
  unfold arrayHead
  repeat' split
  all_goals exact Nat.succ_pos _

theorem mapHead_pos (n : Nat) : 0 < (mapHead n).length := by
  unfold mapHead
  repeat' split
  all_goals exact Nat.succ_pos _

theorem encode_pos (w : Wire) : 0 < (encode w).length := by
  cases w with
  | int n =>
    rw [encode]
    unfold encodeInt encodeNat
    repeat' split
    all_goals exact Nat.succ_pos _
  | text bs =>
    rw [encode, List.length_append]
    refine Nat.add_pos_left ?_ _
    unfold textHead
    repeat' split
    all_goals exact Nat.succ_pos _
  | blob bs =>
    rw [encode, List.length_append]
    refine Nat.add_pos_left ?_ _
    unfold blobHead
    repeat' split
    all_goals exact Nat.succ_pos _
  | array items =>
    rw [encode, List.length_append]
    exact Nat.add_pos_left (arrayHead_pos _) _
  | map entries =>
    rw [encode, List.length_append]
    exact Nat.add_pos_left (mapHead_pos _) _
  | nil | bool | single | real | extension => exact Nat.succ_pos _

mutual

/-- Every level of nesting takes at least one octet of fuel from the encoding. -/
theorem decodeAux_encode (fuel : Nat) (rest : Bytes) :
    (w : Wire) → w.Fits → (encode w).length ≤ fuel → decodeAux fuel (encode w ++ rest) = some (w, rest)
  | w, hfits, hfuel => by
    obtain ⟨fuel, rfl⟩ : ∃ f, fuel = f + 1 := ⟨fuel - 1, by have := encode_pos w; omega⟩
    match w with
    | nil => rfl
    | bool b => cases b <;> rfl
    | int n =>
      rw [encode]
      exact decodeAux_int fuel hfits.1 hfits.2 rest
    | single bits => exact decodeAux_single fuel bits rest
    | real bits => exact decodeAux_real fuel bits rest
    | text bs =>
      rw [encode]
      exact decodeAux_text fuel hfits rest
    | blob bs =>
      rw [encode]
      exact decodeAux_blob fuel hfits rest
    | extension data => exact decodeAux_extension fuel hfits rest
    | array items =>
      obtain ⟨hlen, hitems⟩ := hfits
      have hhead := arrayHead_pos items.length
      rw [encode, List.length_append] at hfuel
      rw [encode, List.append_assoc, decodeAux_arrayHead fuel hlen, array?,
        items?_encodeAll fuel rest items hitems (by omega), Option.map_some]
    | map entries =>
      obtain ⟨hlen, hentries⟩ := hfits
      have hhead := mapHead_pos entries.length
      rw [encode, List.length_append] at hfuel
      rw [encode, List.append_assoc, decodeAux_mapHead fuel hlen, map?,
        entries?_encodeEntries fuel rest entries hentries (by omega), Option.map_some]

theorem items?_encodeAll (fuel : Nat) (rest : Bytes) :
    (ws : List Wire) → AllFit ws → (encodeAll ws).length ≤ fuel →
      items? (decodeAux fuel) ws.length (encodeAll ws ++ rest) = some (ws, rest)
  | [], _, _ => rfl
  | w :: ws, hfits, hfuel => by
    rw [encodeAll, List.length_append] at hfuel
    rw [encodeAll, List.append_assoc, List.length_cons, items?,
      decodeAux_encode fuel (encodeAll ws ++ rest) w hfits.1 (by omega)]
    show (items? (decodeAux fuel) ws.length (encodeAll ws ++ rest)).bind _ = _
    rw [items?_encodeAll fuel rest ws hfits.2 (by omega)]
    rfl

theorem entries?_encodeEntries (fuel : Nat) (rest : Bytes) :
    (es : List (Wire × Wire)) → EntriesFit es → (encodeEntries es).length ≤ fuel →
      entries? (decodeAux fuel) es.length (encodeEntries es ++ rest) = some (es, rest)
  | [], _, _ => rfl
  | (k, v) :: es, hfits, hfuel => by
    obtain ⟨hk, hv, hes⟩ := hfits
    rw [encodeEntries, List.length_append, List.length_append] at hfuel
    rw [encodeEntries, List.append_assoc, List.append_assoc, List.length_cons, entries?,
      decodeAux_encode fuel (encode v ++ (encodeEntries es ++ rest)) k hk (by omega)]
    show (decodeAux fuel (encode v ++ (encodeEntries es ++ rest))).bind _ = _
    rw [decodeAux_encode fuel (encodeEntries es ++ rest) v hv (by omega)]
    show (entries? (decodeAux fuel) es.length (encodeEntries es ++ rest)).bind _ = _
    rw [entries?_encodeEntries fuel rest es hes (by omega)]
    rfl

end

/-- A value that fits is read back from its encoding, and what follows it is left. -/
theorem decode?_encode {w : Wire} (h : w.Fits) (rest : Bytes) : decode? (encode w ++ rest) = some (w, rest) :=
  decodeAux_encode _ rest w h (by rw [List.length_append]; omega)

end TreeCompiler.Wire
