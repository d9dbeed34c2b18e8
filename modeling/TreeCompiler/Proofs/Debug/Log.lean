import Mathlib.Data.List.TakeWhile
import TreeCompiler.Debug.Recorder

/-!
# What a recorder remembers

A recorder stores an entry only where the span changes. Next to it stands the log that keeps every call, newest first.

* `searchFirst_eq_findIdx` : halving finds the first place where a predicate that stays true begins to hold;
* `lastNoted log ip` : the last call at or before an address; `lastEntry` : the same for the entries of a table;
* `Tells es log` : the entries answer every question about the log; `Cut ip es log` : only those below an address, which is
  what is left when calls at that address were taken back;
* `Recorder.Call`, `Recorder.logOf`, `Recorder.InOrder` : calls, the log they leave, and the order they come in;
* `lookup_tells_log` : a finished table and the log say the same of every address.
-/

namespace TreeCompiler

/-! ## Halving -/

section Halving

variable {p : Nat → Bool}

theorem searchAux_spec (mono : ∀ i j, i ≤ j → p i = true → p j = true) {fuel lo hi : Nat} (hfuel : hi - lo < fuel)
    (hlo : ∀ i < lo, p i = false) (hhi : ∀ i, hi ≤ i → p i = true) :
    (∀ i < searchAux p fuel lo hi, p i = false) ∧ ∀ i, searchAux p fuel lo hi ≤ i → p i = true := by
  induction fuel generalizing lo hi with
  | zero => omega
  | succ fuel ih =>
    unfold searchAux
    by_cases hlt : lo < hi
    · rw [if_pos hlt]
      dsimp only
      by_cases hmid : p ((lo + hi) / 2) = true
      · rw [if_pos hmid]
        exact ih (by omega) hlo fun i hi => mono _ i hi hmid
      · rw [if_neg hmid]
        refine ih (by omega) (fun i hi => ?_) hhi
        by_contra htrue
        exact hmid (mono i _ (by omega) ((Bool.not_eq_false _).mp htrue))
    · rw [if_neg hlt]
      exact ⟨hlo, fun i hi => hhi i (by omega)⟩

/-- Over a list in which `q` stays true, halving finds the first element with `q`. -/
theorem searchFirst_eq_findIdx {α : Type} {l : List α} {q : α → Bool} (hq : l.Pairwise fun a b => q a = true → q b = true)
    (hp : ∀ i, p i = (l[i]?).elim true q) : searchFirst l.length p = l.findIdx q := by
  have mono : ∀ i j, i ≤ j → p i = true → p j = true := by
    intro i j hij hi
    rw [hp] at hi ⊢
    by_cases hj : j < l.length
    · rw [List.getElem?_eq_getElem (by omega)] at hi
      rw [List.getElem?_eq_getElem hj]
      rcases Nat.lt_or_eq_of_le hij with hlt | rfl
      · exact List.pairwise_iff_getElem.1 hq i j (by omega) hj hlt hi
      · exact hi
    · rw [List.getElem?_eq_none (by omega)]
      rfl
  have hend : ∀ i, l.length ≤ i → p i = true := by
    intro i hi
    rw [hp, List.getElem?_eq_none hi]
    rfl
  have hfuel : l.length - 0 < l.length + 1 := by omega
  obtain ⟨hbefore, hafter⟩ := searchAux_spec mono hfuel (fun _ h => absurd h (Nat.not_lt_zero _)) hend
  change (∀ i < searchFirst l.length p, p i = false) at hbefore
  change (∀ i, searchFirst l.length p ≤ i → p i = true) at hafter
  have hle : searchFirst l.length p ≤ l.length := by
    by_contra hgt
    have hfalse := hbefore l.length (by omega)
    rw [hend _ (Nat.le_refl _)] at hfalse
    cases hfalse
  have hskip : ∀ i (hi : i < l.length), i < searchFirst l.length p → q l[i] = false := by
    intro i hi hlt
    have hfalse := hbefore i hlt
    rwa [hp, List.getElem?_eq_getElem hi] at hfalse
  rcases Nat.lt_or_eq_of_le hle with hlt | heq
  · refine ((List.findIdx_eq hlt).2 ⟨?_, fun j hj => hskip j (by omega) hj⟩).symm
    have htrue := hafter _ (Nat.le_refl _)
    rwa [hp, List.getElem?_eq_getElem hlt] at htrue
  · rw [heq, eq_comm, List.findIdx_eq_length]
    intro a ha
    obtain ⟨i, hi, rfl⟩ := List.mem_iff_getElem.1 ha
    exact hskip i hi (by omega)

end Halving

/-! ## Entries and logs -/

/-- An empty span in the first file stands for a node without one. Such nodes are not recorded. -/
def Span.isBlank (s : Span) : Bool := s.isEmpty && s.file = 0

/-- The last call at or before an address, in a log with the newest call first. -/
def lastNoted (log : List Noted) (ip : Int) : Option Noted := log.find? fun n => decide (n.ip ≤ ip)

/-- The last entry at or before an address. -/
def lastEntry (es : List DebugEntry) (ip : Int) : Option DebugEntry := es.reverse.find? fun e => decide (e.ip ≤ ip)

abbrev Rising (es : List DebugEntry) : Prop := es.Pairwise fun e e' => e.ip < e'.ip

/-- The entries answer every question about the log, and each was stored because a call at its address brought another span
than the one before it. -/
structure Tells (es : List DebugEntry) (log : List Noted) : Prop where
  rising : Rising es
  agrees : ∀ ip, (lastEntry es ip).map (·.span) = (lastNoted log ip).map (·.span)
  fresh : ∀ e ∈ es, ∃ n ∈ log, n.ip = e.ip ∧ (lastNoted log (e.ip - 1)).map (·.span) ≠ some n.span

/-- The entries end before `ip` and answer the questions about the addresses there. -/
structure Cut (ip : Int) (es : List DebugEntry) (log : List Noted) : Prop where
  rising : Rising es
  below : ∀ e ∈ es, e.ip < ip
  agrees : ∀ a < ip, (lastEntry es a).map (·.span) = (lastNoted log a).map (·.span)
  fresh : ∀ e ∈ es, ∃ n ∈ log, n.ip = e.ip ∧ (lastNoted log (e.ip - 1)).map (·.span) ≠ some n.span

section Entries

variable {es es' : List DebugEntry} {log new old : List Noted} {ip a : Int} {span : Span} {e : DebugEntry}

theorem lastNoted_cons_of_le {n : Noted} (h : n.ip ≤ ip) : lastNoted (n :: log) ip = some n :=
  List.find?_cons_of_pos (by simpa using h)

theorem lastNoted_cons_of_lt {n : Noted} (h : ip < n.ip) : lastNoted (n :: log) ip = lastNoted log ip :=
  List.find?_cons_of_neg (by simpa using h)

/-- Calls behind the address do not count. -/
theorem lastNoted_append (h : ∀ n ∈ new, ip < n.ip) : lastNoted (new ++ old) ip = lastNoted old ip := by
  have hnone : new.find? (fun n => decide (n.ip ≤ ip)) = none := by
    rw [List.find?_eq_none]
    intro n hn
    simpa using h n hn
  rw [lastNoted, List.find?_append, hnone, Option.none_or]
  rfl

theorem lastEntry_concat_of_le (h : e.ip ≤ ip) : lastEntry (es ++ [e]) ip = some e := by
  rw [lastEntry, List.reverse_concat, List.find?_cons_of_pos (by simpa using h)]

/-- Entries behind the address do not count. -/
theorem lastEntry_append (h : ∀ e ∈ es', ip < e.ip) : lastEntry (es ++ es') ip = lastEntry es ip := by
  have hnone : es'.reverse.find? (fun e => decide (e.ip ≤ ip)) = none := by
    rw [List.find?_eq_none]
    intro e he
    simpa using h e (List.mem_reverse.1 he)
  rw [lastEntry, List.reverse_append, List.find?_append, hnone, Option.none_or]
  rfl

/-- Where everything lies at or before the address, the last one counts. -/
theorem lastEntry_of_forall_le (h : ∀ e ∈ es, e.ip ≤ ip) : lastEntry es ip = es.getLast? := by
  rcases List.eq_nil_or_concat es with rfl | ⟨front, e, rfl⟩
  · rfl
  · rw [List.concat_eq_append, lastEntry_concat_of_le (h e (by simp)), List.getLast?_concat]

theorem lastNoted_of_forall_le (h : ∀ n ∈ log, n.ip ≤ ip) : lastNoted log ip = log.head? := by
  cases log with
  | nil => rfl
  | cons n log => exact lastNoted_cons_of_le (h n (List.mem_cons_self ..))

theorem rising_concat (h : Rising es) (he : ∀ e' ∈ es, e'.ip < e.ip) : Rising (es ++ [e]) := by
  rw [Rising, List.pairwise_append]
  refine ⟨h, List.pairwise_singleton _ _, fun e' he' x hx => ?_⟩
  rw [List.mem_singleton.1 hx]
  exact he e' he'

theorem Tells.nil : Tells [] [] := ⟨List.Pairwise.nil, fun _ => rfl, nofun⟩

/-- A new call at the end does not change what was fresh before it. -/
theorem fresh_cons (h : ∃ n ∈ log, n.ip = a ∧ (lastNoted log (a - 1)).map (·.span) ≠ some n.span) (ha : a ≤ ip) :
    ∃ n ∈ (⟨ip, span⟩ : Noted) :: log, n.ip = a ∧
      (lastNoted (⟨ip, span⟩ :: log) (a - 1)).map (·.span) ≠ some n.span := by
  obtain ⟨n, hn, hip, hne⟩ := h
  refine ⟨n, List.mem_cons_of_mem _ hn, hip, ?_⟩
  rwa [lastNoted_cons_of_lt (show a - 1 < ip by omega)]

/-! ### A call -/

/-- The entries after a call. -/
def noteEntries (es : List DebugEntry) (ip : Int) (span : Span) : List DebugEntry :=
  match es.getLast? with
  | some last =>
    if last.ip = ip then es.dropLast ++ [{ last with span }]
    else if last.span = span then es
    else es ++ [{ ip := ip, span := span }]
  | none => [{ ip := ip, span := span }]

theorem mem_noteEntries (he : e ∈ noteEntries es ip span) : e ∈ es ∨ (e.ip = ip ∧ e.span = span) := by
  unfold noteEntries at he
  cases hback : es.getLast? with
  | none =>
    rw [hback] at he
    rw [List.mem_singleton.1 he]
    exact .inr ⟨rfl, rfl⟩
  | some last =>
    rw [hback] at he
    dsimp only at he
    split at he
    · rcases List.mem_append.1 he with he | he
      · exact .inl (List.dropLast_subset _ he)
      · rw [List.mem_singleton.1 he]
        exact .inr ⟨‹_›, rfl⟩
    · split at he
      · exact .inl he
      · rcases List.mem_append.1 he with he | he
        · exact .inl he
        · rw [List.mem_singleton.1 he]
          exact .inr ⟨rfl, rfl⟩

theorem rising_noteEntries (h : Rising es) (hle : ∀ e ∈ es, e.ip ≤ ip) : Rising (noteEntries es ip span) := by
  rcases List.eq_nil_or_concat es with rfl | ⟨front, last, rfl⟩
  · exact List.pairwise_singleton _ _
  · rw [List.concat_eq_append] at *
    have hfront := List.pairwise_append.1 h
    have hlt : ∀ e ∈ front, e.ip < last.ip := fun e he => hfront.2.2 e he last (List.mem_singleton_self _)
    have hlast := hle last (by simp)
    unfold noteEntries
    rw [List.getLast?_concat]
    dsimp only
    split
    · rw [List.dropLast_concat]
      exact rising_concat hfront.1 hlt
    · split
      · exact h
      · refine rising_concat h fun e he => ?_
        rcases List.mem_append.1 he with he | he
        · exact Int.lt_of_lt_of_le (hlt e he) hlast
        · rw [List.mem_singleton.1 he]
          exact Int.lt_iff_le_and_ne.2 ⟨hlast, ‹_›⟩

/-- A call at the end of the code adds an entry, unless the span is the one that counts there already. -/
theorem Cut.node (h : Cut ip es log) (span : Span) : Tells (noteEntries es ip span) (⟨ip, span⟩ :: log) := by
  have hlast : lastEntry es (ip - 1) = es.getLast? :=
    lastEntry_of_forall_le fun e he => by
      have hlt := h.below e he
      omega
  have hbefore := h.agrees (ip - 1) (by omega)
  rw [hlast] at hbefore
  have hnew : ∀ e ∈ es, ∃ n ∈ (⟨ip, span⟩ : Noted) :: log, n.ip = e.ip ∧
      (lastNoted (⟨ip, span⟩ :: log) (e.ip - 1)).map (·.span) ≠ some n.span :=
    fun e he => fresh_cons (h.fresh e he) (Int.le_of_lt (h.below e he))
  -- a new entry is stored, as the last span is another one
  have store (hne : es.getLast?.map (·.span) ≠ some span) :
      Tells (es ++ [{ ip := ip, span := span }]) (⟨ip, span⟩ :: log) := by
    refine ⟨rising_concat h.rising h.below, fun a => ?_, fun e he => ?_⟩
    · rcases Int.lt_or_le a ip with hlt | hle
      · rw [lastNoted_cons_of_lt hlt, lastEntry_append (by simpa using hlt), h.agrees a hlt]
      · rw [lastNoted_cons_of_le hle, lastEntry_concat_of_le hle]
        rfl
    · rcases List.mem_append.1 he with he | he
      · exact hnew e he
      · rw [List.mem_singleton.1 he]
        refine ⟨_, List.mem_cons_self .., rfl, ?_⟩
        rw [lastNoted_cons_of_lt (show ip - 1 < ip by omega), ← hbefore]
        exact hne
  unfold noteEntries
  cases hback : es.getLast? with
  | none =>
    have hnil : es = [] := List.getLast?_eq_none_iff.1 hback
    subst hnil
    exact store (by simp)
  | some last =>
    have hmem : last ∈ es := List.mem_of_getLast? hback
    have hlt := h.below last hmem
    dsimp only
    rw [if_neg (by omega)]
    by_cases hspan : last.span = span
    · rw [if_pos hspan]
      refine ⟨h.rising, fun a => ?_, hnew⟩
      rcases Int.lt_or_le a ip with ha | ha
      · rw [lastNoted_cons_of_lt ha, h.agrees a ha]
      · have hall : ∀ e ∈ es, e.ip ≤ a := fun e he => by
          have hbelow := h.below e he
          omega
        rw [lastNoted_cons_of_le ha, lastEntry_of_forall_le hall, hback, Option.map_some, hspan]
        rfl
    · rw [if_neg hspan]
      exact store (by simpa [hback] using hspan)

theorem Tells.cut_of_below (h : Tells es log) (hes : ∀ e ∈ es, e.ip < ip) : Cut ip es log :=
  ⟨h.rising, hes, fun a _ => h.agrees a, h.fresh⟩

theorem Tells.mem_log (h : Tells es log) (he : e ∈ es) : ∃ n ∈ log, n.ip = e.ip := by
  obtain ⟨n, hn, hip, -⟩ := h.fresh e he
  exact ⟨n, hn, hip⟩

/-- A call behind all others. -/
theorem Tells.node (h : Tells es log) (hlog : ∀ n ∈ log, n.ip ≤ ip) (span : Span) :
    Tells (noteEntries es ip span) (⟨ip, span⟩ :: log) := by
  have hle : ∀ e ∈ es, e.ip ≤ ip := by
    intro e he
    obtain ⟨n, hn, hip⟩ := h.mem_log he
    rw [← hip]
    exact hlog n hn
  by_cases hbelow : ∀ e ∈ es, e.ip < ip
  · exact (h.cut_of_below hbelow).node span
  · -- the last entry is at this address, and only its span changes
    rcases List.eq_nil_or_concat es with rfl | ⟨front, last, rfl⟩
    · exact absurd nofun hbelow
    rw [List.concat_eq_append] at *
    have hfront := List.pairwise_append.1 h.rising
    have hlt : ∀ e ∈ front, e.ip < last.ip := fun e he => hfront.2.2 e he last (List.mem_singleton_self _)
    have hlast : last.ip = ip := by
      by_contra hne
      refine hbelow fun e he => ?_
      have hlast := hle last (by simp)
      rcases List.mem_append.1 he with he | he
      · have hlt := hlt e he
        omega
      · rw [List.mem_singleton.1 he]
        omega
    have hnote : noteEntries (front ++ [last]) ip span = front ++ [{ last with span }] := by
      unfold noteEntries
      rw [List.getLast?_concat]
      dsimp only
      rw [if_pos hlast, List.dropLast_concat]
    rw [hnote]
    refine ⟨rising_concat hfront.1 hlt, fun a => ?_, fun e he => ?_⟩
    · rcases Int.lt_or_le a ip with ha | ha
      · have hagrees := h.agrees a
        rw [lastEntry_append (by simpa [hlast] using ha)] at hagrees
        rw [lastNoted_cons_of_lt ha, lastEntry_append (by simpa [hlast] using ha), hagrees]
      · rw [lastNoted_cons_of_le ha, lastEntry_concat_of_le (by simpa [hlast] using ha)]
        rfl
    · rcases List.mem_append.1 he with he | he
      · exact fresh_cons (h.fresh e (List.mem_append_left _ he)) (hle e (List.mem_append_left _ he))
      · rw [List.mem_singleton.1 he]
        exact fresh_cons (h.fresh last (by simp)) (Int.le_of_eq hlast)

/-! ### Taking calls back -/

/-- The entries that are left when everything from an address on is dropped. -/
def cutEntries (es : List DebugEntry) (ip : Int) : List DebugEntry := es.takeWhile fun e => decide (e.ip < ip)

theorem cutEntries_below (he : e ∈ cutEntries es ip) : e.ip < ip := by
  simpa using List.mem_takeWhile_imp he

theorem le_of_mem_dropWhile (h : Rising es) (he : e ∈ es.dropWhile fun e => decide (e.ip < ip)) : ip ≤ e.ip := by
  induction es with
  | nil => cases he
  | cons x es ih =>
    rw [Rising, List.pairwise_cons] at h
    rw [List.dropWhile_cons] at he
    split at he
    · exact ih h.2 he
    · rename_i hx
      simp only [decide_eq_true_eq, Int.not_lt] at hx
      rcases List.mem_cons.1 he with rfl | he
      · exact hx
      · have hlt := h.1 e he
        omega

/-- The newest calls are taken back, all of them at or behind `ip`. -/
theorem Tells.cut (h : Tells es (new ++ old)) (hnew : ∀ n ∈ new, ip ≤ n.ip) : Cut ip (cutEntries es ip) old := by
  have hsplit : cutEntries es ip ++ es.dropWhile (fun e => decide (e.ip < ip)) = es := List.takeWhile_append_dropWhile
  have hold {a : Int} (ha : a < ip) : lastNoted (new ++ old) a = lastNoted old a :=
    lastNoted_append fun n hn => by
      have hle := hnew n hn
      omega
  refine ⟨h.rising.sublist (List.takeWhile_sublist _), fun e he => cutEntries_below he, fun a ha => ?_, fun e he => ?_⟩
  · have hagrees := h.agrees a
    rw [← hsplit, lastEntry_append, hold ha] at hagrees
    · exact hagrees
    · intro e he
      have hle := le_of_mem_dropWhile h.rising he
      omega
  · have hbelow := cutEntries_below he
    obtain ⟨n, hn, hip, hne⟩ := h.fresh e ((List.takeWhile_sublist _).subset he)
    rw [hold (by omega)] at hne
    rcases List.mem_append.1 hn with hn | hn
    · have hle := hnew n hn
      omega
    · exact ⟨n, hn, hip, hne⟩

/-- When nothing at the address is left in the log, the entries answer everything again. -/
theorem Cut.tells (h : Cut ip es log) (hlog : ∀ n ∈ log, n.ip < ip) : Tells es log := by
  refine ⟨h.rising, fun a => ?_, h.fresh⟩
  rcases Int.lt_or_le a ip with ha | ha
  · exact h.agrees a ha
  · have hagrees := h.agrees (ip - 1) (by omega)
    rw [lastEntry_of_forall_le fun e he => Int.le_sub_one_of_lt (h.below e he),
      lastNoted_of_forall_le fun n hn => Int.le_sub_one_of_lt (hlog n hn)] at hagrees
    rw [lastEntry_of_forall_le fun e he => Int.le_trans (Int.le_of_lt (h.below e he)) ha,
      lastNoted_of_forall_le fun n hn => Int.le_trans (Int.le_of_lt (hlog n hn)) ha, hagrees]

end Entries

/-! ## The recorder -/

namespace Recorder

variable {r : Recorder} {ip : Int} {span : Span}

theorem entries_node_of_blank (h : span.isBlank = true) : r.node ip span = r := if_pos h

theorem entries_node (h : span.isBlank = false) : (r.node ip span).entries.toList = noteEntries r.entries.toList ip span := by
  have hshow : ¬(span.isEmpty && decide (span.file = 0)) = true := by
    rw [Bool.not_eq_true]
    exact h
  unfold node noteEntries
  rw [if_neg hshow, Array.getLast?_toList]
  cases hback : r.entries.back? with
  | none => rfl
  | some last =>
    dsimp only
    split
    · rw [Array.toList_push, Array.toList_pop]
    · split
      · rfl
      · rw [Array.toList_push]

theorem entries_dropFuncs (fuel : Nat) (r : Recorder) : (dropFuncs ip fuel r).entries = r.entries := by
  induction fuel generalizing r with
  | zero => rfl
  | succ fuel ih =>
    unfold dropFuncs
    split
    · rfl
    · split
      · rfl
      · rw [ih]

theorem entries_truncate (h : Rising r.entries.toList) : (r.truncate ip).entries.toList = cutEntries r.entries.toList ip := by
  have hmono : r.entries.toList.Pairwise fun e e' => decide (ip ≤ e.ip) = true → decide (ip ≤ e'.ip) = true := by
    refine h.imp fun {e e'} hlt he => ?_
    simp only [decide_eq_true_eq] at he ⊢
    omega
  have hnot : (fun e : DebugEntry => !decide (e.ip < ip)) = fun e => decide (ip ≤ e.ip) := by
    funext e
    simp only [← decide_not, Int.not_lt]
  unfold truncate
  dsimp only
  rw [entries_dropFuncs, cutEntries, List.takeWhile_eq_take_findIdx_not, hnot, ← Array.length_toList]
  dsimp only
  rw [Array.take_eq_extract, Array.toList_extract, List.extract_eq_take_drop, Nat.sub_zero, List.drop_zero,
    searchFirst_eq_findIdx hmono fun i => by
      rw [Array.getElem?_toList]
      cases r.entries[i]? <;> rfl]

end Recorder

/-! ## Looking up -/

theorem lastEntry_eq_getLast?_takeWhile {es : List DebugEntry} (h : Rising es) (ip : Int) :
    lastEntry es ip = (es.takeWhile fun e => decide (e.ip ≤ ip)).getLast? := by
  have hsplit : es.takeWhile (fun e => decide (e.ip < ip + 1)) ++ es.dropWhile (fun e => decide (e.ip < ip + 1)) = es :=
    List.takeWhile_append_dropWhile
  have hbehind : ∀ e ∈ es.dropWhile (fun e => decide (e.ip < ip + 1)), ip < e.ip := fun e he => by
    have hle := le_of_mem_dropWhile h he
    omega
  have hsame : (fun e : DebugEntry => decide (e.ip ≤ ip)) = fun e => decide (e.ip < ip + 1) := by
    funext e
    simp only [Int.lt_add_one_iff]
  calc lastEntry es ip
      = lastEntry (es.takeWhile (fun e => decide (e.ip < ip + 1)) ++ es.dropWhile fun e => decide (e.ip < ip + 1)) ip := by
        rw [hsplit]
    _ = lastEntry (es.takeWhile fun e => decide (e.ip < ip + 1)) ip := lastEntry_append hbehind
    _ = (es.takeWhile fun e => decide (e.ip < ip + 1)).getLast? := lastEntry_of_forall_le fun e he => by
        have hlt := List.mem_takeWhile_imp he
        simp only [decide_eq_true_eq] at hlt
        omega
    _ = (es.takeWhile fun e => decide (e.ip ≤ ip)).getLast? := by rw [hsame]

/-- Looking up finds the last entry at or before the address. -/
theorem DebugTable.lookup?_eq_lastEntry {t : DebugTable} (h : Rising t.entries.toList) (ip : Int) :
    t.lookup? ip = lastEntry t.entries.toList ip := by
  have hmono : t.entries.toList.Pairwise fun e e' => decide (ip < e.ip) = true → decide (ip < e'.ip) = true := by
    refine h.imp fun {e e'} hlt he => ?_
    simp only [decide_eq_true_eq] at he ⊢
    omega
  have hnot : (fun e : DebugEntry => !decide (e.ip ≤ ip)) = fun e => decide (ip < e.ip) := by
    funext e
    simp only [← decide_not, Int.not_le]
  have hfirst {p : Nat → Bool} (hp : ∀ i, p i = (t.entries.toList[i]?).elim true fun e => decide (ip < e.ip)) :
      searchFirst t.entries.size p = t.entries.toList.findIdx fun e => decide (ip < e.ip) := searchFirst_eq_findIdx hmono hp
  unfold lookup?
  dsimp only
  rw [lastEntry_eq_getLast?_takeWhile h, List.takeWhile_eq_take_findIdx_not, hnot, hfirst fun i => by
    rw [Array.getElem?_toList]
    cases t.entries[i]? <;> rfl]
  split
  · rename_i hzero
    rw [hzero, List.take_zero]
    rfl
  · rename_i hpos
    have hle : t.entries.toList.findIdx (fun e => decide (ip < e.ip)) ≤ t.entries.toList.length := List.findIdx_le_length
    rw [List.getLast?_take, if_neg hpos, Array.getElem?_toList]
    rw [Array.length_toList] at hle
    rw [Array.getElem?_eq_getElem (by omega), Option.some_or]

/-- Resolving the spans changes neither the addresses nor the spans. -/
theorem Recorder.lookup?_finish {r : Recorder} (h : Rising r.entries.toList) (files : FileTable) (stop ip : Int) :
    Rising (r.finish files stop).entries.toList ∧
    (r.finish files stop).lookup? ip =
      (lastEntry r.entries.toList ip).map fun e => { e with pos := Pos.ofSpan files e.span } := by
  have hentries : (r.finish files stop).entries.toList =
      r.entries.toList.map fun e => { e with pos := Pos.ofSpan files e.span } := Array.toList_map
  have hrising : Rising (r.finish files stop).entries.toList := by
    rw [hentries, Rising, List.pairwise_map]
    exact h
  refine ⟨hrising, ?_⟩
  rw [DebugTable.lookup?_eq_lastEntry hrising, hentries, lastEntry, ← List.map_reverse, List.find?_map]
  rfl

/-! ## Sequences of calls -/

namespace Recorder

inductive Call
  | node (ip : Int) (span : Span)
  | truncate (ip : Int)
deriving DecidableEq, Repr

def call (r : Recorder) : Call → Recorder
  | .node ip span => r.node ip span
  | .truncate ip => r.truncate ip

/-- The recorder after some calls, the first of them made first. -/
def ofCalls (calls : List Call) : Recorder := calls.foldl call {}

/-- The log keeps each call with a span that is not blank. Truncating forgets what was called at or behind the address. -/
def logCall (log : List Noted) : Call → List Noted
  | .node ip span => if span.isBlank then log else ⟨ip, span⟩ :: log
  | .truncate ip => log.filter fun n => decide (n.ip < ip)

def logOf (calls : List Call) : List Noted := calls.foldl logCall []

/-- No node comes before the address of the last call, if there was one. -/
def InOrder : Option Int → List Call → Prop
  | _, [] => True
  | last, .node ip _ :: rest => (∀ a ∈ last, a ≤ ip) ∧ InOrder (some ip) rest
  | _, .truncate ip :: rest => InOrder (some ip) rest

instance decidableInOrder : (last : Option Int) → (calls : List Call) → Decidable (InOrder last calls)
  | _, [] => inferInstanceAs (Decidable True)
  | last, .node ip _ :: rest =>
    have := decidableInOrder (some ip) rest
    inferInstanceAs (Decidable ((∀ a ∈ last, a ≤ ip) ∧ InOrder (some ip) rest))
  | _, .truncate ip :: rest => decidableInOrder (some ip) rest

/-- A recorder and a log after the same calls, the last of them at `last`. -/
structure Follows (last : Option Int) (r : Recorder) (log : List Noted) : Prop where
  tells : Tells r.entries.toList log
  sorted : log.Pairwise fun n n' => n'.ip ≤ n.ip
  reached : ∀ n ∈ log, ∃ a ∈ last, n.ip ≤ a

variable {last : Option Int} {r : Recorder} {log : List Noted} {ip : Int}

theorem Follows.node (h : Follows last r log) (hip : ∀ a ∈ last, a ≤ ip) (span : Span) :
    Follows (some ip) (r.node ip span) (logCall log (.node ip span)) := by
  have hle : ∀ n ∈ log, n.ip ≤ ip := by
    intro n hn
    obtain ⟨a, ha, hna⟩ := h.reached n hn
    exact Int.le_trans hna (hip a ha)
  have hreached : ∀ n ∈ log, ∃ a ∈ some ip, n.ip ≤ a := fun n hn => ⟨ip, rfl, hle n hn⟩
  cases hblank : span.isBlank with
  | true =>
    rw [entries_node_of_blank hblank, logCall, if_pos hblank]
    exact ⟨h.tells, h.sorted, hreached⟩
  | false =>
    rw [logCall, if_neg (Bool.eq_false_iff.1 hblank)]
    refine ⟨?_, List.pairwise_cons.2 ⟨hle, h.sorted⟩, List.forall_mem_cons.2 ⟨⟨ip, rfl, Int.le_refl _⟩, hreached⟩⟩
    rw [entries_node hblank]
    exact h.tells.node hle span

/-- A log in order splits at an address. -/
theorem exists_split (h : log.Pairwise fun n n' => n'.ip ≤ n.ip) (ip : Int) :
    ∃ new, log = new ++ log.filter (fun n => decide (n.ip < ip)) ∧ ∀ n ∈ new, ip ≤ n.ip := by
  induction log with
  | nil => exact ⟨[], rfl, nofun⟩
  | cons n log ih =>
    rw [List.pairwise_cons] at h
    by_cases hn : n.ip < ip
    · refine ⟨[], ?_, nofun⟩
      have hall : ∀ m ∈ n :: log, decide (m.ip < ip) = true := by
        intro m hm
        rw [decide_eq_true_eq]
        rcases List.mem_cons.1 hm with rfl | hm
        · exact hn
        · have hle := h.1 m hm
          omega
      rw [List.filter_eq_self.2 hall]
      rfl
    · obtain ⟨new, hnew, hle⟩ := ih h.2
      refine ⟨n :: new, ?_, List.forall_mem_cons.2 ⟨Int.not_lt.1 hn, hle⟩⟩
      rw [List.filter_cons_of_neg (by simpa using hn), List.cons_append, ← hnew]

theorem Follows.truncate (h : Follows last r log) (ip : Int) :
    Follows (some ip) (r.truncate ip) (logCall log (.truncate ip)) := by
  have hbefore : ∀ n ∈ logCall log (.truncate ip), n.ip < ip := by
    intro n hn
    simpa using (List.mem_filter.1 hn).2
  refine ⟨?_, h.sorted.sublist List.filter_sublist, fun n hn => ⟨ip, rfl, Int.le_of_lt (hbefore n hn)⟩⟩
  obtain ⟨new, hsplit, hnew⟩ := exists_split h.sorted ip
  rw [entries_truncate h.tells.rising]
  exact (Tells.cut (hsplit ▸ h.tells) hnew).tells hbefore

theorem Follows.foldl {calls : List Call} (h : Follows last r log) (hcalls : InOrder last calls) :
    ∃ last', Follows last' (calls.foldl call r) (calls.foldl logCall log) := by
  induction calls generalizing last r log with
  | nil => exact ⟨last, h⟩
  | cons c calls ih =>
    cases c with
    | node ip span => exact ih (h.node hcalls.1 span) hcalls.2
    | truncate ip => exact ih (h.truncate ip) hcalls

end Recorder

/-- After any calls in order the addresses of the entries rise, and the finished table finds for every address what the log
has there: nothing if no call was made at or before it, and otherwise the span of the last such call. -/
theorem lookup_tells_log {calls : List Recorder.Call} (h : Recorder.InOrder none calls) (files : FileTable) (stop : Int) :
    let table := (Recorder.ofCalls calls).finish files stop
    let log := Recorder.logOf calls
    Rising table.entries.toList ∧
      ∀ ip, ((table.lookup? ip).isSome ↔ ∃ n ∈ log, n.ip ≤ ip) ∧
        (table.lookup? ip).map (·.span) = (lastNoted log ip).map (·.span) := by
  intro table log
  have hstart : Recorder.Follows none {} [] := ⟨⟨.nil, fun _ => rfl, nofun⟩, .nil, nofun⟩
  obtain ⟨last, hfollows⟩ := hstart.foldl h
  have htells : Tells (Recorder.ofCalls calls).entries.toList log := hfollows.tells
  refine ⟨(Recorder.lookup?_finish htells.rising files stop 0).1, fun ip => ?_⟩
  have hspans : (table.lookup? ip).map (·.span) = (lastNoted log ip).map (·.span) := by
    rw [(Recorder.lookup?_finish htells.rising files stop ip).2, Option.map_map, ← htells.agrees ip]
    rfl
  refine ⟨?_, hspans⟩
  rw [← Option.isSome_map, hspans, Option.isSome_map, lastNoted, List.find?_isSome]
  simp only [decide_eq_true_eq]

/-- Two calls at one address, a span that repeats, and two calls that are taken back. -/
theorem lookup_after_truncate :
    let a : Span := { start := 1, stop := 4 }
    let b : Span := { start := 5, stop := 9 }
    let calls := [.node 0 a, .node 0 b, .node 2 b, .node 3 a, .truncate 2, .node 4 a]
    Recorder.InOrder none calls ∧
      (((Recorder.ofCalls calls).finish {} 5).lookup? 3).map (·.span) = some b ∧
      (((Recorder.ofCalls calls).finish {} 5).lookup? 4).map (·.span) = some a := by
  intro a b calls
  have hcalls : Recorder.InOrder none calls := by decide
  have htable := (lookup_tells_log hcalls {} 5).2
  refine ⟨hcalls, ?_, ?_⟩
  · rw [(htable 3).2]
    decide
  · rw [(htable 4).2]
    decide

end TreeCompiler
