import DegreeGraph.Command.Session
import DegreeGraph.Proofs.Edge.Printed
import DegreeGraph.Proofs.Sampling.Draws
import DegreeGraph.Proofs.Stepwise

/-!
# What the steps of a session do

Each step of a session has one lemma that tells its answer and what it adds to the session. Two
steps decide how a command on degrees ends. The degrees are loaded, which is the same for all
commands; a failure of it ends all of them alike (`withDegrees_run_of_error`). Then the degrees are
checked (`checkWith_run_of_isGraphical`), or a graph is generated from them
(`Generation.IsAmple.generateWith_run_dichotomy`), which prints the edges if nothing is to be saved.
-/

namespace DegreeGraph

universe u

variable {σ : Type u} {α β : Type} {s t : Session} {degrees : List ℤ} {test : Datum}

/-! ## Single steps -/

namespace SessionM

theorem run_printLine (text : String) (s : Session) :
    (printLine text).run s = (.ok ⟨⟩, { s with output := s.output ++ text ++ "\n" }) := rfl

theorem run_report (events : List Event) (s : Session) :
    (report events).run s = (.ok ⟨⟩, { s with events := s.events ++ events }) := rfl

theorem run_complain (text : String) (code : ExitCode) (s : Session) :
    (complain text code).run s
      = (.ok code, { s with errors := s.errors ++ ["error: " ++ text] }) := rfl

theorem run_ofAnswer (answer : Except Fault α) (s : Session) :
    (ofAnswer answer).run s = (answer, s) := by
  cases answer with
  | ok a => rfl
  | error fault => rfl

theorem run_orElse (step : SessionM α) (handles : Fault → Bool) (next : α → SessionM ExitCode)
    (handler : Fault → SessionM ExitCode) (s : Session) :
    (SessionM.orElse step handles next handler).run s = match step.run s with
      | (.ok a, t) => (next a).run t
      | (.error fault, t) =>
        if handles fault then (handler fault).run t else (.error fault, t) := by
  have hrun : (SessionM.orElse step handles next handler).run s = match step.run s with
      | (.ok a, t) => next a t
      | (.error fault, t) => if handles fault then handler fault t else (.error fault, t) := rfl
  rw [hrun]
  rcases step.run s with ⟨_ | a, t⟩
  · rfl
  · rfl

theorem run_onFiles (step : FileM α) (s : Session) :
    (onFiles step).run s
      = ((step.run s.tree).1, { s with tree := (step.run s.tree).2 }) := by
  have hrun : (onFiles step).run s
      = (ofAnswer (step.run s.tree).1).run { s with tree := (step.run s.tree).2 } := rfl
  rw [hrun, run_ofAnswer]

end SessionM

open SessionM Stepwise

/-! ## Loading -/

/-- Nothing is printed and nothing is complained of while degrees are loaded. -/
theorem exists_loadDegrees_run (input : DegreeInput) (s : Session) :
    ∃ tree events, ((loadDegrees input).run s).2 = { s with tree, events } := by
  rw [loadDegrees]
  split
  · exact ⟨_, _, rfl⟩
  · split
    · rw [run_bind, run_report]
      simp only [run_onFiles]
      exact ⟨_, _, rfl⟩
    · split
      · exact ⟨_, _, rfl⟩
      · exact ⟨_, _, rfl⟩

theorem output_loadDegrees (input : DegreeInput) (s : Session) :
    ((loadDegrees input).run s).2.output = s.output := by
  obtain ⟨tree, events, hrun⟩ := exists_loadDegrees_run input s
  rw [hrun]

theorem withDegrees_run_of_ok {input : DegreeInput}
    (hload : (loadDegrees input).run s = (.ok degrees, t)) (next : List ℤ → SessionM ExitCode) :
    (withDegrees input next).run s = (next degrees).run t := by
  rw [withDegrees, run_orElse, hload]

theorem withDegrees_run_of_fault {input : DegreeInput} {fault : Fault}
    (hload : (loadDegrees input).run s = (.error fault, t)) (next : List ℤ → SessionM ExitCode) :
    (withDegrees input next).run s = if fault.isBadInput then
      (complain fault.message .badInput).run t else (.error fault, t) := by
  rw [withDegrees, run_orElse, hload]

/-- Degrees that cannot be loaded end every command in the same way, and not well. -/
theorem withDegrees_run_of_error {input : DegreeInput} {fault : Fault}
    (hload : (loadDegrees input).run s = (.error fault, t)) :
    ∃ answer u, answer ≠ .ok .fine ∧ answer ≠ .ok .exhausted
      ∧ ∀ next, (withDegrees input next).run s = (answer, u) := by
  -- What was to come next has not run, so the end does not depend on it.
  have hrun := withDegrees_run_of_fault hload
  by_cases hbad : fault.isBadInput = true
  · refine ⟨.ok .badInput, _, ?_, ?_, fun next ↦ (hrun next).trans (if_pos hbad)⟩
    · intro heq
      cases heq
    · intro heq
      cases heq
  · refine ⟨.error fault, t, ?_, ?_, fun next ↦ (hrun next).trans (if_neg hbad)⟩
    · intro heq
      cases heq
    · intro heq
      cases heq

/-- Degrees in one word are loaded as they are read. -/
theorem loadDegrees_word {line : String} (h : parseDegrees line = .ok degrees) (s : Session) :
    (loadDegrees { words := [line] }).run s = (.ok degrees, s) := by
  simp only [loadDegrees, bne_self_eq_false, Bool.false_and, Bool.false_eq_true, if_false,
    String.intercalate_singleton, h]
  rfl

/-! ## Checking -/

theorem checkWith_run {env : Environment σ} {feasibility : Feasibility}
    (hresolve : env.registry.resolve test = .ok feasibility) (degrees : List ℤ) (s : Session) :
    (checkWith env test degrees).run s =
      if feasibility.passes degrees then
        (.ok .fine, { s with output := s.output ++ "graphical" ++ "\n" })
      else (.ok .notGraphical, { s with output := s.output ++ "not graphical" ++ "\n" }) := by
  rw [checkWith, run_bind, run_ofAnswer, hresolve]
  by_cases hpasses : feasibility.passes degrees = true
  · rw [if_pos hpasses]
    simp only [hpasses, if_true]
    rfl
  · rw [if_neg hpasses]
    simp only [hpasses]
    rfl

/-- **A check tells whether a graph has the degrees.** -/
theorem checkWith_run_of_isGraphical {env : Environment σ} (henv : env.registry = .builtIn)
    (htest : test = .text "erdos_gallai" ∨ test = .text "havel_hakimi")
    (hgraph : IsGraphical degrees.get) (s : Session) :
    (checkWith env test degrees).run s
      = (.ok .fine, { s with output := s.output ++ "graphical" ++ "\n" }) := by
  have hbuiltIn : ({ test := test } : Config).HasBuiltInTest := htest
  obtain ⟨feasibility, hresolve, hexact⟩ := hbuiltIn.exists_resolve
  rw [checkWith_run (henv ▸ hresolve), if_pos ((hexact degrees).mpr hgraph)]

theorem checkWith_run_of_not_isGraphical {env : Environment σ} (henv : env.registry = .builtIn)
    (htest : test = .text "erdos_gallai" ∨ test = .text "havel_hakimi")
    (hgraph : ¬IsGraphical degrees.get) (s : Session) :
    (checkWith env test degrees).run s
      = (.ok .notGraphical, { s with output := s.output ++ "not graphical" ++ "\n" }) := by
  have hbuiltIn : ({ test := test } : Config).HasBuiltInTest := htest
  obtain ⟨feasibility, hresolve, hexact⟩ := hbuiltIn.exists_resolve
  rw [checkWith_run (henv ▸ hresolve),
    if_neg fun hpasses ↦ hgraph ((hexact degrees).mp hpasses)]

/-! ## Sampling -/

/-- Variates that are not refused start in their state. -/
theorem Environment.eq_state_of_start {env : Environment σ} {law : PowerLaw} {state : σ}
    (h : env.start law = .ok state) : state = env.state := by
  rw [start.eq_def] at h
  split at h
  · exact (Except.ok.inj h).symm
  · cases h

/-! ## Generating -/

theorem printEdges_run (edges : List Edge) (s : Session) :
    (printEdges edges).run s = (.ok ⟨⟩, { s with output := s.output ++ edgeLines edges }) := by
  induction edges generalizing s with
  | nil => rw [printEdges, run_pure, edgeLines, String.append_empty]
  | cons e edges ih =>
    rw [printEdges, run_bind, run_printLine]
    simp only [ih, edgeLines, String.append_assoc]

/-- With limits that are not negative a generation goes on to sample. -/
theorem generateWith_run_of_limits {g : Generation} {attempts restarts : ℤ}
    (hbudget : g.budget = .int attempts) (hattempts : 0 ≤ attempts)
    (hlimit : g.restarts = .int restarts) (hrestarts : 0 ≤ restarts) (env : Environment σ)
    (degrees : List ℤ) (s : Session) : (generateWith env g degrees).run s =
      let sampling := realize env.registry g.config (g.draws env.unseeded) (sequenceDatum degrees)
      (finish env g degrees sampling.answer).run
        { s with events := s.events ++ sampling.events } := by
  rw [generateWith, run_bind, run_ofAnswer, hbudget, Datum.related_less_int,
    decide_eq_false (not_lt.mpr hattempts)]
  simp only [Bool.false_eq_true, if_false]
  rw [run_bind, run_ofAnswer, hlimit, Datum.related_less_int,
    decide_eq_false (not_lt.mpr hrestarts)]
  rfl

/-- What a generation does with a graph: the edges go where they belong, and the figures that are
asked for are saved. -/
def Generation.save (g : Generation) (env : Environment σ) (degrees : List ℤ) (r : Realization) :
    SessionM Unit := do
  deliver g r
  saveFigures env g degrees r

/-- A generation with a graph ends well, unless saving it fails. -/
theorem finish_run_of_ok (env : Environment σ) (g : Generation) (degrees : List ℤ) (r : Realization)
    (s : Session) : (finish env g degrees (.ok r)).run s = match (g.save env degrees r).run s with
      | (.ok _, t) => (.ok .fine, { t with events := t.events ++ [doneEvent degrees.length r] })
      | (.error fault, t) => (.error fault, t) := by
  have hfinish : finish env g degrees (.ok r) = g.save env degrees r >>= fun _ ↦ do
      report [doneEvent degrees.length r]
      return .fine := by
    rw [finish, Generation.save, bind_assoc]
  rw [hfinish, run_bind]
  rcases (g.save env degrees r).run s with ⟨_ | _, t⟩
  · rfl
  · rfl

theorem finish_fault_iff (env : Environment σ) (g : Generation) (degrees : List ℤ) (r : Realization)
    (s : Session) (fault : Fault) : ((finish env g degrees (.ok r)).run s).1 = .error fault
      ↔ ((g.save env degrees r).run s).1 = .error fault := by
  rw [finish_run_of_ok]
  rcases (g.save env degrees r).run s with ⟨cause | _, t⟩
  · rw [Except.error.injEq, Except.error.injEq]
  · exact ⟨nofun, nofun⟩

/-- If nothing is to be saved, the edges are printed. -/
theorem save_run_of_nothing {g : Generation} (houtput : g.output = "") (hchart : g.chart = "")
    (hdrawing : g.drawing = "") (env : Environment σ) (degrees : List ℤ) (r : Realization)
    (s : Session) : (g.save env degrees r).run s
      = (.ok ⟨⟩, { s with output := s.output ++ edgeLines r.edges }) := by
  have hdeliver : deliver g r = printEdges r.edges := by
    rw [deliver, houtput]
    rfl
  have hfigures : saveFigures env g degrees r = pure ⟨⟩ := by
    rw [saveFigures, hchart, hdrawing]
    rfl
  rw [Generation.save, run_bind, hdeliver, printEdges_run, hfigures]
  rfl

/-- The draws of a generation can be started if its seed can be used. -/
theorem Generation.hasSeed_draws {g : Generation} {unseeded : Draws} (hseed : IsSeed g.seed)
    (hunseeded : unseeded.HasSeed) : (g.draws unseeded).HasSeed := by
  rw [Generation.draws]
  split
  · exact hunseeded
  · exact hseed

/-- Arguments under which a generation finds a graph for that many degrees and prints it: no search
runs out of draws, and nothing is to be saved. -/
structure Generation.IsAmple (g : Generation) (nodes : ℕ) : Prop where
  test : g.test = .text "erdos_gallai" ∨ g.test = .text "havel_hakimi"
  seed : IsSeed g.seed
  budget : ∃ attempts : ℤ, g.budget = .int attempts ∧ 0 ≤ attempts
    ∧ (attempts = 0 ∨ (nodes : ℤ) - 1 ≤ attempts)
  restarts : ∃ restarts : ℤ, g.restarts = .int restarts ∧ 0 ≤ restarts
  output : g.output = ""
  chart : g.chart = ""
  drawing : g.drawing = ""

/-- What is asked for by words alone: all options have their defaults. -/
def Generation.ofWords (words : List String) : Generation where
  input := { words }
  test := ({} : Config).test
  seed := .null
  budget := ({} : Config).budget
  restarts := ({} : Config).restarts
  output := ""
  chart := ""
  drawing := ""

namespace Generation.IsAmple

variable {g : Generation} {nodes : ℕ}

/-- The defaults suffice for up to 100001 nodes. -/
theorem ofWords (words : List String) (hnodes : nodes ≤ 100001) :
    (Generation.ofWords words).IsAmple nodes where
  test := Or.inl rfl
  seed := isSeed_null
  budget := ⟨100000, rfl, by decide, Or.inr (by omega)⟩
  restarts := ⟨3, rfl, by decide⟩
  output := rfl
  chart := rfl
  drawing := rfl

theorem grantsBudget (h : g.IsAmple nodes) : g.config.GrantsBudget ((nodes : ℤ) - 1) := by
  obtain ⟨attempts, hbudget, -, hroom⟩ := h.budget
  have hconfig : g.config.budget = if attempts != 0 then .int attempts else .null := by
    rw [Generation.config, hbudget, Datum.holds]
  rcases hroom with rfl | hle
  · -- Zero is passed on as no limit at all.
    exact Or.inl hconfig
  · by_cases hzero : attempts = 0
    · subst hzero
      exact Or.inl hconfig
    · rw [if_pos (bne_iff_ne.mpr hzero)] at hconfig
      exact Or.inr ⟨attempts, hconfig ▸ rfl, hle⟩

theorem generateWith_run (h : g.IsAmple nodes) (env : Environment σ) (degrees : List ℤ)
    (s : Session) : (generateWith env g degrees).run s =
      let sampling := realize env.registry g.config (g.draws env.unseeded) (sequenceDatum degrees)
      (finish env g degrees sampling.answer).run
        { s with events := s.events ++ sampling.events } := by
  obtain ⟨attempts, hbudget, hattempts, -⟩ := h.budget
  obtain ⟨restarts, hlimit, hrestarts⟩ := h.restarts
  exact generateWith_run_of_limits hbudget hattempts hlimit hrestarts env degrees s

theorem finish_run (h : g.IsAmple nodes) (env : Environment σ) (degrees : List ℤ) (r : Realization)
    (s : Session) : (finish env g degrees (.ok r)).run s
      = (.ok .fine, { s with
          output := s.output ++ edgeLines r.edges
          events := s.events ++ [doneEvent degrees.length r] }) := by
  rw [finish_run_of_ok, save_run_of_nothing h.output h.chart h.drawing]

/-- **A generation prints a graph with the degrees if there is one, and otherwise it says so.** -/
theorem generateWith_run_dichotomy (h : g.IsAmple degrees.length) {env : Environment σ}
    (henv : env.registry = .builtIn) (hdraws : env.unseeded.HasSeed) (s : Session) :
    (IsGraphical degrees.get ∧ ∃ r : Realization, ∃ events, r.Meets degrees ∧
      (generateWith env g degrees).run s = (.ok .fine, { s with
        output := s.output ++ edgeLines r.edges
        events := s.events ++ events })) ∨
    (¬IsGraphical degrees.get ∧
      ∃ t, (generateWith env g degrees).run s = (.ok .notGraphical, t)) := by
  rw [h.generateWith_run, henv]
  simp only
  have htest : g.config.HasBuiltInTest := h.test
  rcases Draws.realize_dichotomy (hasSeed_draws h.seed hdraws) h.seed htest h.grantsBudget with
    ⟨hgraph, r, hanswer, hmeets⟩ | ⟨hgraph, hanswer⟩
  · left
    rw [hanswer, h.finish_run]
    exact ⟨hgraph, r, _, hmeets, by rw [List.append_assoc]⟩
  · right
    rw [hanswer]
    exact ⟨hgraph, _, rfl⟩

end Generation.IsAmple

end DegreeGraph
