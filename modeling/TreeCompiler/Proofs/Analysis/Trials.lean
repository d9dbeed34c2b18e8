import TreeCompiler.Proofs.Diagnostic.Sink

/-!
# Trials within trials

A trial is a speculative step with its own buffer. What is done in it is a script, and a script may make trials again.

* `Script`, `Script.run` : whatever may be done with reports and trials, done by the analysis;
* `Course`, `Script.course` : what was reported, and how each trial ended;
* `Course.kept` : the reports all of whose trials succeeded; `Course.Sound` : how trials must end;
* `Script.run_transactional` : what a script does to the reports of the user.
-/

namespace TreeCompiler

open Analysis

/-! ## Scripts -/

/-- What may be done with reports and trials. A script sees the whole state before each of its steps and changes everything
in it but the reports and the options. -/
inductive Script
  | done (result : Bool)
  | look (next : Analysis → Script)
  | change (f : Analysis → Analysis) (next : Script)
  | report (d : Diagnostic) (next : Script)
  | attempt (body : Script) (next : Bool → Script)

def Analysis.changed (s : Analysis) (f : Analysis → Analysis) : Analysis := { f s with sink := s.sink, options := s.options }

def Analysis.reported (s : Analysis) (d : Diagnostic) : Analysis := { s with sink := s.sink.report d }

def Analysis.buffered (s : Analysis) : Analysis := { s with sink := s.sink.openBuffer }

/-- The report of a trial that is refused. -/
def tooDeep (limit : Nat) : Diagnostic :=
  { severity := .error, code := (Problem.tryTooDeep limit).code, message := (Problem.tryTooDeep limit).message, span := {} }

def Script.run : Script → AnalysisM Bool
  | done result => return result
  | look next => do (next (← get)).run
  | change f next => do
    modify fun s => s.changed f
    next.run
  | report d next => do
    modify fun s => s.reported d
    next.run
  | attempt body next => do
    let succeeded ← trying body.run
    (next succeeded).run

/-- How a trial went: the number of buffers around it before and after, and what its function returned, unless it was
refused. -/
structure Trial where
  before : Nat
  after : Nat
  returned : Option Bool
  succeeded : Bool
deriving DecidableEq, Repr

/-- What happened, in order. -/
inductive Course
  | done
  | report (d : Diagnostic) (rest : Course)
  | trial (t : Trial) (inside rest : Course)

def returned? {ε σ : Type} : EStateM.Result ε σ Bool → Option Bool
  | .ok b _ => some b
  | .error _ _ => none

/-- What happens when the script runs from a state. -/
def Script.course : Script → Analysis → Course
  | done _, _ => .done
  | look next, s => (next s).course s
  | change f next, s => next.course (s.changed f)
  | report d next, s => .report d (next.course (s.reported d))
  | attempt body next, s =>
    match trying body.run s with
    | .error _ _ => .done
    | .ok succeeded s' =>
      let rest := (next succeeded).course s'
      if s.options.maxTryDepth ≤ s.sink.depth then
        .report (tooDeep s.options.maxTryDepth)
          (.trial { before := s.sink.depth, after := s'.sink.depth, returned := none, succeeded } .done rest)
      else
        .trial { before := s.sink.depth, after := s'.sink.depth, returned := returned? (body.run s.buffered), succeeded }
          (body.course s.buffered) rest

namespace Course

/-- The reports in order, each with the outcomes of the trials around it, the innermost first. -/
def reports : Course → List (Diagnostic × List Bool)
  | done => []
  | report d rest => (d, []) :: rest.reports
  | trial t inside rest => inside.reports.map (fun r => (r.1, r.2 ++ [t.succeeded])) ++ rest.reports

/-- The reports all of whose trials succeeded. -/
def kept (c : Course) : List Diagnostic := (c.reports.filter (·.2.all id)).map (·.1)

/-- A trial leaves the number of buffers as it was. It is refused exactly at the limit; it succeeds exactly when it is not
refused, its function returns true, and no error was reported in it or kept by a trial in it that succeeded. -/
structure Ends (limit depth : Nat) (t : Trial) (inside : Course) : Prop where
  before : t.before = depth
  after : t.after = depth
  refused : t.returned = none ↔ limit ≤ depth
  succeeded : t.succeeded = true ↔ depth < limit ∧ t.returned = some true ∧ ∀ d ∈ inside.kept, d.blocks = false

/-- Every trial ends as it must. -/
def Sound (limit depth : Nat) : Course → Prop
  | done => True
  | report _ rest => rest.Sound limit depth
  | trial t inside rest => Ends limit depth t inside ∧ inside.Sound limit (depth + 1) ∧ rest.Sound limit depth

@[simp] theorem kept_done : kept done = [] := rfl

@[simp] theorem kept_report (d : Diagnostic) (rest : Course) : (report d rest).kept = d :: rest.kept := rfl

theorem kept_trial (t : Trial) (inside rest : Course) :
    (trial t inside rest).kept = (if t.succeeded = true then inside.kept else []) ++ rest.kept := by
  have hall (r : Diagnostic × List Bool) :
      ((fun r => r.2.all id) ∘ fun r : Diagnostic × List Bool => (r.1, r.2 ++ [t.succeeded])) r =
        (r.2.all id && t.succeeded) := by
    simp only [Function.comp_apply, List.all_append, List.all_cons, List.all_nil, id_eq, Bool.and_true]
  unfold kept
  rw [reports, List.filter_append, List.map_append, List.filter_map, List.map_map, List.filter_congr fun r _ => hall r]
  congr 1
  cases t.succeeded with
  | true => simp only [Bool.and_true, if_true, Function.comp_def]
  | false => simp only [Bool.and_false, List.filter_false, List.map_nil, Bool.false_eq_true, if_false]

/-- An error that is kept was reported outside of every trial. -/
theorem Sound.outside {limit depth : Nat} {c : Course} (h : c.Sound limit depth) {r : Diagnostic × List Bool}
    (hr : r ∈ c.reports) (herror : r.1.blocks = true) (hall : r.2.all id = true) : r.2 = [] := by
  induction c generalizing depth r with
  | done => cases hr
  | report d rest ih =>
    rcases List.mem_cons.1 hr with rfl | hr
    · rfl
    · exact ih h hr herror hall
  | trial t inside rest ihInside ihRest =>
    obtain ⟨hends, -, hrest⟩ := h
    rcases List.mem_append.1 hr with hr | hr
    · obtain ⟨q, hq, rfl⟩ := List.mem_map.1 hr
      simp only [List.all_append, Bool.and_eq_true] at hall
      have ht : t.succeeded = true := by simpa using hall.2
      have hkept : q.1 ∈ inside.kept := List.mem_map.2 ⟨q, List.mem_filter.2 ⟨hq, hall.1⟩, rfl⟩
      have hquiet : q.1.blocks = false := (hends.succeeded.1 ht).2.2 _ hkept
      exact absurd herror (Bool.eq_false_iff.1 hquiet)
    · exact ihRest hrest hr herror hall

end Course

/-! ## What is passed on -/

namespace Sink

variable {k : Sink}

theorem pass_history (h : List Reported) (d : Diagnostic) :
    ({ k with history := h } : Sink).pass d = { k.pass d with history := h } := by
  unfold pass deliver
  dsimp only
  cases k.held with
  | nil =>
    dsimp only
    split <;> rfl
  | cons buffer rest => rfl

theorem foldl_pass_history (h : List Reported) (ds : List Diagnostic) :
    ds.foldl pass { k with history := h } = { ds.foldl pass k with history := h } := by
  induction ds generalizing k with
  | nil => rfl
  | cons d ds ih => rw [List.foldl_cons, List.foldl_cons, pass_history, ih]

/-- With a buffer open all that is passed on goes there. -/
theorem foldl_pass_of_held {buffer : List Diagnostic} {rest : List (List Diagnostic)} (h : k.held = buffer :: rest)
    (ds : List Diagnostic) : ds.foldl pass k = { k with held := (buffer ++ ds) :: rest } := by
  induction ds generalizing k buffer with
  | nil =>
    rw [List.append_nil, ← h]
    rfl
  | cons d ds ih =>
    have hpass : k.pass d = { k with held := (buffer ++ [d]) :: rest } := by
      unfold pass
      rw [h]
    rw [List.foldl_cons, ih (congrArg held hpass), hpass, List.append_assoc, List.singleton_append]

/-- Whether a report is a repetition of one that the user has. -/
def repeats (d e : Diagnostic) : Bool := e.identity == d.identity

theorem eraseDupsBy_concat {α : Type} (r : α → α → Bool) (l : List α) (a : α) :
    (l ++ [a]).eraseDupsBy r = if (l.eraseDupsBy r).any (r a) then l.eraseDupsBy r else l.eraseDupsBy r ++ [a] := by
  suffices h : ∀ l acc, List.eraseDupsBy.loop r (l ++ [a]) acc =
      if (List.eraseDupsBy.loop r l acc).any (r a) then List.eraseDupsBy.loop r l acc
      else List.eraseDupsBy.loop r l acc ++ [a] from h l []
  intro l
  induction l with
  | nil =>
    intro acc
    simp only [List.nil_append, List.eraseDupsBy.loop, List.any_reverse, List.reverse_cons]
    cases acc.any (r a) <;> rfl
  | cons b l ih =>
    intro acc
    rw [List.cons_append, List.eraseDupsBy.loop, List.eraseDupsBy.loop]
    cases acc.any (r b) with
    | true => exact ih acc
    | false => exact ih (b :: acc)

/-- Without a buffer the user gets what is passed on, each report once. -/
theorem foldl_pass_of_delivered (hheld : k.held = []) (hdedup : k.dedup = true) {l : List Diagnostic}
    (hl : k.delivered = l.eraseDupsBy repeats) (ds : List Diagnostic) :
    (ds.foldl pass k).held = [] ∧ (ds.foldl pass k).delivered = (l ++ ds).eraseDupsBy repeats := by
  induction ds generalizing k l with
  | nil => exact ⟨hheld, by rw [List.append_nil]; exact hl⟩
  | cons d ds ih =>
    have hpass : k.pass d = k.deliver d := by
      unfold pass
      rw [hheld]
    have hnext : (k.pass d).delivered = (l ++ [d]).eraseDupsBy repeats := by
      rw [hpass, eraseDupsBy_concat, ← hl, deliver, hdedup, Bool.true_and]
      split
      · rw [if_pos (by assumption)]
      · rw [if_neg (by assumption)]
    have hdedup' : (k.pass d).dedup = true := by
      rw [hpass, deliver]
      split <;> exact hdedup
    rw [List.foldl_cons, List.append_cons]
    exact ih (by rw [hpass, Alike.held_deliver, hheld]) hdedup' hnext

end Sink

/-! ## What a script does to the reports -/

/-- A trial at the limit is refused. -/
theorem trying_of_le {step : AnalysisM Bool} {s : Analysis} (h : s.options.maxTryDepth ≤ s.sink.depth) :
    trying step s = .ok false (s.reported (tooDeep s.options.maxTryDepth)) := by
  unfold trying tryingFor
  dsimp only [bind, EStateM.bind, get, getThe, MonadStateOf.get, EStateM.get]
  rw [if_pos h]
  rfl

/-- Below the limit the step runs in a buffer of its own. -/
theorem trying_of_lt {step : AnalysisM Bool} {s s₁ : Analysis} {b : Bool} (h : s.sink.depth < s.options.maxTryDepth)
    (hstep : step s.buffered = .ok b s₁) :
    trying step s = .ok (b && !s₁.sink.heldErrors)
      { s₁ with sink := if (b && !s₁.sink.heldErrors) = true then s₁.sink.commit else s₁.sink.discard } := by
  have hopened : step { s with sink := s.sink.openBuffer } = .ok b s₁ := hstep
  unfold trying tryingFor
  dsimp only [bind, EStateM.bind, get, getThe, MonadStateOf.get, EStateM.get, modify, modifyGet, MonadStateOf.modifyGet,
    EStateM.modifyGet]
  rw [if_neg (Nat.not_le.2 h)]
  dsimp only [bind, EStateM.bind, get, getThe, MonadStateOf.get, EStateM.get, modify, modifyGet, MonadStateOf.modifyGet,
    EStateM.modifyGet]
  rw [hopened]
  dsimp only [pure, EStateM.pure]
  cases (b && !s₁.sink.heldErrors) <;> rfl

theorem Sink.depth_foldl_pass (k : Sink) (ds : List Diagnostic) : (ds.foldl pass k).depth = k.depth := by
  refine List.foldlRecOn (motive := fun l : Sink => l.depth = k.depth) _ _ rfl fun l hl d _ => ?_
  rw [← hl]
  unfold pass
  cases hheld : l.held with
  | nil => exact congrArg List.length (Alike.held_deliver l d)
  | cons buffer rest => simp only [depth, hheld, List.length_cons]

namespace Script

/-- What a run does to the options and to the reports, compared with its course. -/
structure Ran (s s' : Analysis) (c : Course) : Prop where
  options : s'.options = s.options
  sink : ∃ history, s'.sink = { c.kept.foldl Sink.pass s.sink with history }
  sound : c.Sound s.options.maxTryDepth s.sink.depth

variable {s s₁ s' : Analysis} {c : Course}

theorem depth_eq {ds : List Diagnostic} (h : ∃ history, s'.sink = { ds.foldl Sink.pass s.sink with history }) :
    s'.sink.depth = s.sink.depth := by
  obtain ⟨history, hsink⟩ := h
  rw [hsink]
  exact Sink.depth_foldl_pass s.sink ds

theorem Ran.report (d : Diagnostic) (h : Ran (s.reported d) s' c) : Ran s s' (.report d c) := by
  obtain ⟨history, hsink⟩ := h.sink
  have hdepth : (s.reported d).sink.depth = s.sink.depth := Sink.depth_foldl_pass (s.sink.record s.sink.held.length d) [d]
  refine ⟨h.options, ⟨history, ?_⟩, hdepth ▸ h.sound⟩
  have hreport : (s.reported d).sink = { s.sink.pass d with history := (s.sink.record s.sink.held.length d).history } :=
    Sink.pass_history _ d
  rw [hsink, hreport, Sink.foldl_pass_history]
  rfl

/-- The sink behind a step that ran in a buffer of its own, and what is left of it. -/
theorem Ran.closed {b : Bool} (h : Ran s.buffered s₁ c) :
    (s₁.sink.heldErrors = c.kept.any (·.blocks)) ∧
    ∃ history, (if b = true then s₁.sink.commit else s₁.sink.discard) =
      { (if b = true then c.kept else []).foldl Sink.pass s.sink with history } := by
  obtain ⟨history, hsink⟩ := h.sink
  have hheld : s₁.sink = { s.sink with held := c.kept :: s.sink.held, history } := by
    rw [hsink, Sink.foldl_pass_of_held (k := s.buffered.sink) rfl, List.nil_append]
    rfl
  rw [hheld]
  refine ⟨rfl, history, ?_⟩
  cases b with
  | true =>
    rw [if_pos rfl, if_pos rfl]
    exact Sink.foldl_pass_history (k := s.sink) history c.kept
  | false => rfl

theorem Ran.trial {t : Trial} {inside : Course} (hends : Course.Ends s.options.maxTryDepth s.sink.depth t inside)
    (hinside : inside.Sound s.options.maxTryDepth (s.sink.depth + 1)) (hoptions : s₁.options = s.options)
    (hsink : ∃ history, s₁.sink = { (if t.succeeded = true then inside.kept else []).foldl Sink.pass s.sink with history })
    (h : Ran s₁ s' c) : Ran s s' (.trial t inside c) := by
  have hdepth := depth_eq hsink
  obtain ⟨history₁, hsink⟩ := hsink
  obtain ⟨history, hafter⟩ := h.sink
  refine ⟨h.options.trans hoptions, ⟨history, ?_⟩, hends, hinside, ?_⟩
  · rw [hafter, hsink, Sink.foldl_pass_history, Course.kept_trial, List.foldl_append]
  · rw [← hoptions, ← hdepth]
    exact h.sound

theorem exists_ran (script : Script) (s : Analysis) :
    ∃ result s', script.run s = .ok result s' ∧ Ran s s' (script.course s) := by
  induction script generalizing s with
  | done result => exact ⟨result, s, rfl, rfl, ⟨s.sink.history, rfl⟩, trivial⟩
  | look next ih => exact ih s s
  | change f next ih =>
    obtain ⟨result, s', hrun, h⟩ := ih (s.changed f)
    exact ⟨result, s', hrun, h.options, h.sink, h.sound⟩
  | report d next ih =>
    obtain ⟨result, s', hrun, h⟩ := ih (s.reported d)
    exact ⟨result, s', hrun, h.report d⟩
  | attempt body next ihBody ihNext =>
    have hrun {succeeded : Bool} {s₂ : Analysis} (h : trying body.run s = .ok succeeded s₂) :
        (attempt body next).run s = (next succeeded).run s₂ := by
      change EStateM.bind (trying body.run) (fun succeeded => (next succeeded).run) s = _
      unfold EStateM.bind
      rw [h]
    rw [course]
    by_cases hlimit : s.options.maxTryDepth ≤ s.sink.depth
    · have htry : trying body.run s = .ok false (s.reported (tooDeep s.options.maxTryDepth)) := trying_of_le hlimit
      obtain ⟨result, s', hnext, h⟩ := ihNext false (s.reported (tooDeep s.options.maxTryDepth))
      have hdepth : (s.reported (tooDeep s.options.maxTryDepth)).sink.depth = s.sink.depth := Sink.depth_foldl_pass _ [_]
      refine ⟨result, s', (hrun htry).trans hnext, ?_⟩
      rw [htry]
      dsimp only
      rw [if_pos hlimit]
      refine Ran.report _ (Ran.trial ⟨hdepth.symm, rfl, ?_, ?_⟩ trivial rfl ⟨_, rfl⟩ h)
      · rw [hdepth]
        exact iff_of_true rfl hlimit
      · rw [hdepth]
        exact iff_of_false nofun fun hok => absurd hlimit (Nat.not_le.2 hok.1)
    · obtain ⟨b, s₁, hbody, hinside⟩ := ihBody s.buffered
      obtain ⟨herrors, hclosed⟩ := hinside.closed (b := b && !s₁.sink.heldErrors)
      have htry := trying_of_lt (Nat.not_le.1 hlimit) hbody
      have hsucceeded : (b && !s₁.sink.heldErrors) = true ↔ b = true ∧ ∀ d ∈ (body.course s.buffered).kept, d.blocks = false := by
        simp only [herrors, Bool.and_eq_true, Bool.not_eq_true', List.any_eq_false, Bool.not_eq_true]
      generalize (b && !s₁.sink.heldErrors) = succeeded at htry hclosed hsucceeded
      generalize hs₂ : ({ s₁ with sink := if succeeded = true then s₁.sink.commit else s₁.sink.discard } : Analysis) = s₂ at htry
      have hsink : s₂.sink = if succeeded = true then s₁.sink.commit else s₁.sink.discard := by rw [← hs₂]
      have hoptions : s₂.options = s.options := by
        rw [← hs₂]
        exact hinside.options
      rw [← hsink] at hclosed
      obtain ⟨result, s', hnext, h⟩ := ihNext succeeded s₂
      refine ⟨result, s', (hrun htry).trans hnext, ?_⟩
      rw [htry, hbody]
      dsimp only [returned?]
      rw [if_neg hlimit]
      refine Ran.trial ⟨rfl, depth_eq hclosed, iff_of_false nofun hlimit, ?_⟩ hinside.sound hoptions hclosed h
      rw [hsucceeded, Option.some.injEq]
      exact ⟨fun hok => ⟨Nat.not_le.1 hlimit, hok⟩, fun hok => hok.2⟩

/-- Every script runs to its end. Every trial in it ends as it must, and what becomes of the reports depends on the outcomes
of the trials alone: those all of whose trials succeeded go where the script was started, in order, which is the innermost
buffer that was open then; without one they reach the user, each of them once. So an error reaches the user, or a buffer
around the script, only from outside of every trial. -/
theorem run_transactional (script : Script) (s : Analysis) :
    let c := script.course s
    c.Sound s.options.maxTryDepth s.sink.depth ∧
    (∀ r ∈ c.reports, r.1.blocks = true → r.2.all id = true → r.2 = []) ∧
    ∃ result s', script.run s = .ok result s' ∧
      (∀ buffer rest, s.sink.held = buffer :: rest →
        s'.sink.held = (buffer ++ c.kept) :: rest ∧ s'.sink.delivered = s.sink.delivered) ∧
      (s.sink.held = [] → s.sink.dedup = true → ∀ before, s.sink.delivered = before.eraseDupsBy Sink.repeats →
        s'.sink.held = [] ∧ s'.sink.delivered = (before ++ c.kept).eraseDupsBy Sink.repeats) := by
  intro c
  obtain ⟨result, s', hrun, h⟩ := script.exists_ran s
  obtain ⟨history, hsink⟩ := h.sink
  refine ⟨h.sound, fun r hr => h.sound.outside hr, result, s', hrun, fun buffer rest hheld => ?_, ?_⟩
  · rw [hsink, Sink.foldl_pass_of_held hheld]
    exact ⟨rfl, rfl⟩
  · intro hheld hdedup before hbefore
    rw [hsink]
    exact Sink.foldl_pass_of_delivered hheld hdedup hbefore _

/-- A trial that succeeds around one that fails, in which a third is refused. What the failing trial says is dropped, and
what is said again at the end is not repeated. -/
def nestedTrials (x y z : Diagnostic) : Script :=
  .attempt
    (.report x <| .attempt (.report y <| .attempt (.done true) fun _ => .done true) fun _ => .report z <| .done true)
    fun succeeded => .report x <| .done succeeded

theorem nestedTrials_deliver :
    let x : Diagnostic := { severity := .warning, code := .unknown, message := "x", span := {} }
    let y : Diagnostic := { x with message := "y" }
    let z : Diagnostic := { x with message := "z" }
    let s : Analysis := { result := default, options := { maxTryDepth := 2 } }
    ∃ result s', (nestedTrials x y z).run s = .ok result s' ∧ s'.sink.held = [] ∧ s'.sink.delivered = [x, z] := by
  intro x y z s
  obtain ⟨-, -, result, s', hrun, -, hdelivered⟩ := run_transactional (nestedTrials x y z) s
  obtain ⟨hheld, hshown⟩ := hdelivered rfl rfl [] rfl
  have hkept : (([] ++ ((nestedTrials x y z).course s).kept).eraseDupsBy Sink.repeats) = [x, z] := by decide +kernel
  exact ⟨result, s', hrun, hheld, hshown.trans hkept⟩

end Script

end TreeCompiler
