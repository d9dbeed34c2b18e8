import Mathlib.Data.String.Basic
import TreeCompiler.Text.Path

/-!
# Clean paths stay as they are

`clean` gives the shortest spelling of a path, so a second `clean` finds nothing to do.

* `splitOn_slash` : the segments of a path, as lists of characters;
* `Settled` : segments in reverse order that `foldSegments` leaves as they are; each step of it keeps that;
* `clean_clean` : a path that was cleaned is clean.
-/

namespace TreeCompiler.Path

/-! ## Segments -/

theorem splitOnAux_slash (l m r : List Char) (acc : List String) :
    (String.ofList (l ++ m ++ r)).splitOnAux "/" ⟨String.utf8Len l⟩ ⟨String.utf8Len l + String.utf8Len m⟩ 0 acc =
      acc.reverse ++ (List.splitOnPPrepend (· == '/') r m.reverse).map String.ofList := by
  induction r generalizing l m acc with
  | nil =>
    have hend := (String.atEnd_of_valid (l ++ m) []).2 rfl
    have hext := String.extract_of_valid l m []
    rw [String.utf8Len_append] at hend
    rw [String.splitOnAux, if_pos hend, hext, List.splitOnPPrepend_nil, List.reverse_reverse]
    exact List.reverse_cons
  | cons c r ih =>
    have hend := mt (String.atEnd_of_valid (l ++ m) (c :: r)).1 (List.cons_ne_nil c r)
    have hget := String.get_of_valid (l ++ m) (c :: r)
    have hnext := String.next_of_valid (l ++ m) c r
    have hext := String.extract_of_valid l m (c :: r)
    rw [String.utf8Len_append] at hend hget hnext
    rw [List.headD_cons] at hget
    rw [String.splitOnAux, if_neg hend, hget]
    by_cases hc : c = '/'
    · subst hc
      have hrest := ih (l ++ m ++ ['/']) [] (String.ofList m :: acc)
      have hback : String.Pos.Raw.unoffsetBy ⟨String.utf8Len l + (String.utf8Len m + '/'.utf8Size)⟩
          (String.Pos.Raw.next "/" 0) = ⟨String.utf8Len l + String.utf8Len m⟩ := rfl
      simp only [List.append_nil, List.append_assoc, List.singleton_append, String.utf8Len_append, String.utf8Len_cons,
        String.utf8Len_nil, Nat.add_zero, Nat.zero_add, List.reverse_nil, List.reverse_cons] at hrest hext hnext ⊢
      rw [if_pos (by decide), hnext, if_pos (by decide), Nat.add_assoc, hback, hext, hrest,
        List.splitOnPPrepend_cons_pos rfl, List.reverse_reverse]
      rfl
    · have hrest := ih l (m ++ [c]) acc
      have hback : String.Pos.Raw.unoffsetBy ⟨String.utf8Len l + String.utf8Len m⟩ 0 =
          ⟨String.utf8Len l + String.utf8Len m⟩ := rfl
      have hskip : List.splitOnPPrepend (fun x => x == '/') (c :: r) m.reverse =
          List.splitOnPPrepend (fun x => x == '/') r (c :: m.reverse) :=
        List.splitOnPPrepend_cons_neg (beq_false_of_ne hc)
      have hne : ¬(c == String.Pos.Raw.get "/" 0) = true := by
        show ¬(c == '/') = true
        rw [beq_iff_eq]
        exact hc
      simp only [List.append_assoc, List.singleton_append, String.utf8Len_append, String.utf8Len_cons, String.utf8Len_nil,
        Nat.zero_add, List.reverse_append, List.reverse_singleton] at hrest hnext ⊢
      rw [if_neg hne, hback, hnext, Nat.add_assoc, hrest, hskip]

theorem splitOn_slash (p : String) : p.splitOn "/" = (p.toList.splitOn '/').map String.ofList := by
  have haux := splitOnAux_slash [] [] p.toList []
  rw [List.nil_append, List.nil_append, String.ofList_toList] at haux
  rw [List.splitOn_eq_splitOnP, List.splitOnP_eq_splitOnPPrepend]
  exact haux

/-- No segment has a slash in it. -/
theorem slash_not_mem {p : List Char} : ∀ s ∈ p.splitOn '/', '/' ∉ s := by
  induction p with
  | nil => simp
  | cons c p ih =>
    rw [List.splitOn_cons_eq_if_modifyHead]
    split
    · rw [List.forall_mem_cons]
      exact ⟨List.not_mem_nil, ih⟩
    · rename_i hc
      cases hsegs : p.splitOn '/' with
      | nil => exact fun s hs => absurd hs List.not_mem_nil
      | cons s segs =>
        rw [hsegs, List.forall_mem_cons] at ih
        rw [List.modifyHead_cons, List.forall_mem_cons, List.mem_cons, not_or]
        exact ⟨⟨fun h => hc (beq_iff_eq.2 h.symm), ih.1⟩, ih.2⟩

/-- One step of `foldSegments`. -/
def pushSegment (rooted : Bool) (acc : List String) (seg : String) : List String :=
  if seg = "" || seg = "." then acc
  else if seg = ".." then
    match acc with
    | [] => if rooted then [] else [".."]
    | top :: rest => if top = ".." then ".." :: acc else rest
  else seg :: acc

theorem foldSegments_eq (rooted : Bool) (segs : List String) : foldSegments rooted segs = segs.foldl (pushSegment rooted) [] :=
  rfl

theorem pushSegment_word {rooted : Bool} {acc : List String} {seg : String} (hword : seg ≠ "" ∧ seg ≠ ".") (hup : seg ≠ "..") :
    pushSegment rooted acc seg = seg :: acc := by
  unfold pushSegment
  rw [if_neg (by simp [hword]), if_neg hup]

/-- Segments in reverse order that are left as they are. -/
structure Settled (rooted : Bool) (acc : List String) : Prop where
  fold : acc.reverse.foldl (pushSegment rooted) [] = acc
  plain : ∀ s ∈ acc, '/' ∉ s.toList ∧ s ≠ "" ∧ s ≠ "."

namespace Settled

variable {rooted : Bool} {acc rest : List String} {seg top : String}

theorem nil : Settled rooted [] := ⟨rfl, fun _ h => absurd h List.not_mem_nil⟩

theorem cons (h : Settled rooted acc) (hseg : '/' ∉ seg.toList) (hword : seg ≠ "" ∧ seg ≠ ".")
    (hpush : pushSegment rooted acc seg = seg :: acc) : Settled rooted (seg :: acc) where
  fold := by rw [List.reverse_cons, List.foldl_append, h.fold, List.foldl_cons, List.foldl_nil, hpush]
  plain := List.forall_mem_cons.2 ⟨⟨hseg, hword⟩, h.plain⟩

/-- What is left when the last segment is taken back. -/
theorem tail (h : Settled rooted (top :: rest)) (hup : top ≠ "..") : Settled rooted rest := by
  obtain ⟨hfold, hplain⟩ := h
  rw [List.forall_mem_cons] at hplain
  rw [List.reverse_cons, List.foldl_append, List.foldl_cons, List.foldl_nil, pushSegment_word hplain.1.2 hup] at hfold
  exact ⟨(List.cons.inj hfold).2, hplain.2⟩

theorem push (h : Settled rooted acc) (hseg : '/' ∉ seg.toList) : Settled rooted (pushSegment rooted acc seg) := by
  by_cases hword : seg ≠ "" ∧ seg ≠ "."
  · by_cases hup : seg = ".."
    · subst hup
      cases acc with
      | nil =>
        cases rooted with
        | true => exact nil
        | false => exact nil.cons hseg hword rfl
      | cons top rest =>
        by_cases htop : top = ".."
        · subst htop
          exact h.cons hseg hword rfl
        · have hpush : pushSegment rooted (top :: rest) ".." = rest := if_neg htop
          rw [hpush]
          exact h.tail htop
    · rw [pushSegment_word hword hup]
      exact h.cons hseg hword (pushSegment_word hword hup)
  · have hpush : pushSegment rooted acc seg = acc := if_pos (by simpa [or_iff_not_imp_left] using hword)
    rwa [hpush]

theorem foldSegments {segs : List String} (h : ∀ s ∈ segs, '/' ∉ s.toList) : Settled rooted (foldSegments rooted segs) := by
  have hfold (acc : List String) (hacc : Settled rooted acc) : Settled rooted (segs.foldl (pushSegment rooted) acc) := by
    induction segs generalizing acc with
    | nil => exact hacc
    | cons s segs ih =>
      rw [List.forall_mem_cons] at h
      exact ih h.2 _ (hacc.push h.1)
  exact hfold [] nil

end Settled

/-! ## Paths -/

/-- The segments between slashes are found again. -/
theorem splitOn_intercalate {segs : List String} (h : ∀ s ∈ segs, '/' ∉ s.toList) (hne : segs ≠ []) :
    (String.intercalate "/" segs).splitOn "/" = segs := by
  rw [splitOn_slash, String.toList_intercalate]
  show (List.splitOn '/' (['/'].intercalate _)).map _ = _
  rw [List.splitOn_intercalate, List.map_map]
  · simp [Function.comp_def]
  · simpa using h
  · simpa using hne

theorem isAbs_iff {p : String} : isAbs p = true ↔ p.toList.head? = some '/' := by
  unfold isAbs
  rw [String.startsWith_string_iff]
  show ['/'] <+: p.toList ↔ _
  cases p.toList with
  | nil => simp
  | cons c cs => simp [List.cons_prefix_cons, eq_comm]

theorem isAbs_slash (p : String) : isAbs ("/" ++ p) = true := by
  rw [isAbs_iff, String.toList_append]
  rfl

/-- A path of segments does not start with a slash. -/
theorem isAbs_intercalate {segs : List String} (h : ∀ s ∈ segs, '/' ∉ s.toList ∧ s ≠ "") :
    isAbs (String.intercalate "/" segs) = false := by
  rw [Bool.eq_false_iff, ne_eq, isAbs_iff, String.toList_intercalate]
  cases segs with
  | nil => simp
  | cons s segs =>
    obtain ⟨hslash, hempty⟩ := h s List.mem_cons_self
    cases hs : s.toList with
    | nil => exact absurd (String.toList_eq_nil_iff.1 hs) hempty
    | cons c cs =>
      have hne : c ≠ '/' := fun hc => hslash (by rw [hs, hc]; exact List.mem_cons_self)
      cases segs <;> simp [List.intercalate, hs, hne]

namespace Settled

variable {rooted : Bool} {acc : List String}

theorem reverse_plain (h : Settled rooted acc) : ∀ s ∈ acc.reverse, '/' ∉ s.toList ∧ s ≠ "" := fun s hs =>
  ⟨(h.plain s (List.mem_reverse.1 hs)).1, (h.plain s (List.mem_reverse.1 hs)).2.1⟩

theorem clean_rooted (h : Settled true acc) :
    clean ("/" ++ String.intercalate "/" acc.reverse) = "/" ++ String.intercalate "/" acc.reverse := by
  have hsplit : Path.foldSegments true (("/" ++ String.intercalate "/" acc.reverse).splitOn "/") = acc := by
    cases hsegs : acc.reverse with
    | nil =>
      rw [List.reverse_eq_nil_iff] at hsegs
      subst hsegs
      rw [splitOn_slash]
      decide
    | cons s segs =>
      have hjoin : "/" ++ String.intercalate "/" (s :: segs) = String.intercalate "/" ("" :: s :: segs) := by
        apply String.toList_injective
        simp [String.toList_intercalate, List.intercalate]
      have hslash := h.reverse_plain
      rw [hsegs] at hslash
      rw [hjoin, splitOn_intercalate (List.forall_mem_cons.2 ⟨by decide, fun s hs => (hslash s hs).1⟩) (List.cons_ne_nil _ _)]
      show (s :: segs).foldl (pushSegment true) [] = acc
      rw [← hsegs]
      exact h.fold
  unfold clean
  dsimp only
  rw [isAbs_slash, hsplit]
  exact if_pos rfl

theorem clean_relative (h : Settled false acc) (hbody : String.intercalate "/" acc.reverse ≠ "") :
    clean (String.intercalate "/" acc.reverse) = String.intercalate "/" acc.reverse := by
  have hne : acc.reverse ≠ [] := fun hnil => hbody (by rw [hnil]; rfl)
  unfold clean
  dsimp only
  rw [isAbs_intercalate h.reverse_plain, splitOn_intercalate (fun s hs => (h.reverse_plain s hs).1) hne]
  have hfold : Path.foldSegments false acc.reverse = acc := (foldSegments_eq false acc.reverse).trans h.fold
  rw [hfold, if_neg Bool.false_ne_true, if_neg hbody]

end Settled

theorem clean_dot : clean "." = "." := by
  have hsplit : ".".splitOn "/" = ["."] := by
    rw [splitOn_slash]
    decide
  have habs : isAbs "." = false := by
    rw [Bool.eq_false_iff, ne_eq, isAbs_iff]
    decide
  unfold clean
  rw [hsplit, habs]
  decide

theorem clean_clean (p : String) : clean (clean p) = clean p := by
  have hsettled : Settled (isAbs p) (foldSegments (isAbs p) (p.splitOn "/")) := by
    refine .foldSegments fun s hs => ?_
    rw [splitOn_slash] at hs
    obtain ⟨cs, hcs, rfl⟩ := List.mem_map.1 hs
    rw [String.toList_ofList]
    exact slash_not_mem cs hcs
  generalize hacc : foldSegments (isAbs p) (p.splitOn "/") = acc at hsettled
  have hclean : clean p = if isAbs p then "/" ++ String.intercalate "/" acc.reverse
      else if String.intercalate "/" acc.reverse = "" then "." else String.intercalate "/" acc.reverse := by
    rw [← hacc]
    rfl
  rw [hclean]
  cases habs : isAbs p with
  | true =>
    rw [habs] at hsettled
    exact hsettled.clean_rooted
  | false =>
    rw [habs] at hsettled
    rw [if_neg Bool.false_ne_true]
    split
    · exact clean_dot
    · rename_i hbody
      exact hsettled.clean_relative hbody

/-- The name of a file is clean. -/
theorem clean_name {s : String} (hslash : '/' ∉ s.toList) (hword : s ≠ "" ∧ s ≠ ".") : clean s = s := by
  have hsettled : Settled false [s] := by
    by_cases hup : s = ".."
    · subst hup
      exact Settled.nil.cons hslash hword rfl
    · exact Settled.nil.cons hslash hword (pushSegment_word hword hup)
  exact hsettled.clean_relative hword.1

end TreeCompiler.Path
