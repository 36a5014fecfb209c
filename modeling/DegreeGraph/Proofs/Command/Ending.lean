import DegreeGraph.Proofs.Command.Agreement
import DegreeGraph.Proofs.Command.Invocation
import DegreeGraph.Proofs.Sampling.Effort
import DegreeGraph.Proofs.Table.Trouble

/-!
# How command lines end

A command line that is accepted ends with a code, or with a failure that no code stands for. Loading
degrees, sampling and saving can fail, and checking cannot. A command fails without a code exactly if
its degrees cannot be loaded and this is not put down to the input, if a graph was found and cannot
be saved, or if a sample is refused for something that is neither a bad value nor a search that was
given up (`Command.perform_fault_iff`). So the command lines are told that end with a code
(`carryOut_ending`), and one is shown that does not: a destination may be a place where no file can
be (`carryOut_generate_at_folder`).

The environment is arbitrary but for the feasibility tests and the draws. Its variates may be
refused, its layouts may fail, and what writes its figures may do anything with the files.
-/

namespace DegreeGraph

open SessionM Stepwise

universe u

variable {σ : Type u} {env : Environment σ} {g : Generation} {law : PowerLaw} {input : DegreeInput}
  {degrees : List ℤ} {fault : Fault} {r : Realization} {s t : Session}

/-! ## Loading -/

theorem isBadInput_of_parseDegrees {text : String} (h : parseDegrees text = .error fault) :
    fault.isBadInput = true := by
  rw [parseDegrees] at h
  generalize degreeTokens text.toList = tokens at h
  induction tokens with
  | nil => cases h
  | cons token tokens ih =>
    rw [readTokens] at h
    split at h
    · cases h
      rfl
    · rcases cases_of_bind_eq_error h with hlater | ⟨zs, -, h⟩
      · exact ih hlater
      · cases h

/-- Degrees that cannot be loaded are bad input, unless they are in a file. -/
theorem loadDegrees_fault_cases (h : ((loadDegrees input).run s).1 = .error fault)
    (hbad : fault.isBadInput = false) : input.file ≠ "" ∧
      ((readDegreeColumn input.file input.column).run s.tree).1 = .error fault := by
  rw [loadDegrees] at h
  split at h
  · cases h
    cases hbad
  · split at h
    · rename_i hfile
      rw [run_bind, run_report] at h
      simp only [run_onFiles] at h
      exact ⟨bne_iff_ne.mp hfile, h⟩
    · split at h
      · cases h
      · rename_i cause hparse
        cases h
        cases hbad.symm.trans (isBadInput_of_parseDegrees hparse)

/-- A command on degrees fails with what keeps it from loading them, unless that is bad input, or
with what goes wrong behind. -/
theorem withDegrees_fault_iff (input : DegreeInput) (next : List ℤ → SessionM ExitCode)
    (s : Session) (fault : Fault) : ((withDegrees input next).run s).1 = .error fault ↔
      (((loadDegrees input).run s).1 = .error fault ∧ fault.isBadInput = false) ∨
        ∃ degrees t, (loadDegrees input).run s = (.ok degrees, t)
          ∧ ((next degrees).run t).1 = .error fault := by
  rcases hload : (loadDegrees input).run s with ⟨cause | degrees, t⟩
  · rw [withDegrees_run_of_fault hload]
    constructor
    · intro hfault
      split at hfault
      · cases hfault
      · rename_i hbad
        cases hfault
        exact .inl ⟨rfl, Bool.eq_false_iff.mpr hbad⟩
    · rintro (⟨hcause, hbad⟩ | ⟨degrees, u, hok, -⟩)
      · cases hcause
        rw [hbad]
        rfl
      · cases hok
  · rw [withDegrees_run_of_ok hload]
    constructor
    · exact fun hfault ↦ .inr ⟨degrees, t, rfl, hfault⟩
    · rintro (⟨hcause, -⟩ | ⟨degrees', u, hok, hfault⟩)
      · cases hcause
      · cases hok
        exact hfault

/-! ## Sampling degrees -/

/-- A sample that fails ends with the code of the failure, or without one. -/
theorem sampleFrom_run_of_error
    (hanswer : (law.sampleStarting env.variates (env.start law)).answer = .error fault)
    (s : Session) : ∃ events, (sampleFrom env law).run s = match samplingCode? fault with
      | some code => (.ok code, { s with
          events := events
          errors := s.errors ++ ["error: " ++ fault.message] })
      | none => (.error fault, { s with events := events }) := by
  refine ⟨s.events ++ (law.sampleStarting env.variates (env.start law)).events, ?_⟩
  rw [sampleFrom, run_bind, run_report]
  simp only [hanswer]
  cases samplingCode? fault with
  | none => rfl
  | some code => simp only [run_complain]

theorem sampleFrom_fault_iff_of_error {cause : Fault}
    (hanswer : (law.sampleStarting env.variates (env.start law)).answer = .error cause)
    (s : Session) (fault : Fault) : ((sampleFrom env law).run s).1 = .error fault
      ↔ cause = fault ∧ samplingCode? fault = none := by
  obtain ⟨events, hrun⟩ := sampleFrom_run_of_error hanswer s
  rw [hrun]
  cases hcode : samplingCode? cause with
  | none =>
    constructor
    · intro heq
      cases heq
      exact ⟨rfl, hcode⟩
    · rintro ⟨rfl, -⟩
      rfl
  | some code =>
    constructor
    · exact nofun
    · rintro ⟨rfl, hnone⟩
      cases hcode.symm.trans hnone

/-- A sample fails without a code only if it is refused for something that has none. -/
theorem PowerLaw.IsTyped.sampleFrom_fault_iff (h : law.IsTyped) (env : Environment σ) (s : Session)
    (fault : Fault) : ((sampleFrom env law).run s).1 = .error fault
      ↔ law.RefusedFor (env.start law) fault ∧ samplingCode? fault = none := by
  constructor
  · intro hfault
    rcases h.answer_sampleStarting env.variates (env.start law) with
      ⟨degrees, hanswer⟩ | ⟨cause, hrefused, hanswer⟩ | ⟨attempts, n, gamma, hanswer⟩
    · rw [sampleFrom, run_bind, run_report] at hfault
      simp only [hanswer] at hfault
      cases hfault
    · obtain ⟨rfl, hcode⟩ := (sampleFrom_fault_iff_of_error hanswer s fault).mp hfault
      exact ⟨hrefused, hcode⟩
    · -- A search that was given up has a code.
      obtain ⟨rfl, hcode⟩ := (sampleFrom_fault_iff_of_error hanswer s fault).mp hfault
      cases hcode
  · rintro ⟨hrefused, hcode⟩
    exact (sampleFrom_fault_iff_of_error (hrefused.answer_eq env.variates) s fault).mpr ⟨rfl, hcode⟩

/-! ## Generating -/

/-- The sampling of a generation. -/
def Generation.sampling (g : Generation) (env : Environment σ) (degrees : List ℤ) : Sampling :=
  realize env.registry g.config (g.draws env.unseeded) (sequenceDatum degrees)

theorem finish_run_of_error {code : ExitCode} (hcode : realizationCode? fault = some code)
    (env : Environment σ) (g : Generation) (degrees : List ℤ) (s : Session) :
    (finish env g degrees (.error fault)).run s
      = (.ok code, { s with errors := s.errors ++ ["error: " ++ fault.message] }) := by
  simp only [finish, hcode, run_complain]

namespace Generation.IsTyped

/-- **Sampling finds a graph, or fails in a way that has a code.** -/
theorem answer_sampling (h : g.IsTyped) (henv : env.registry = .builtIn)
    (hdraws : env.unseeded.HasSeed) (degrees : List ℤ) :
    (∃ r, (g.sampling env degrees).answer = .ok r) ∨ ∃ fault code,
      (g.sampling env degrees).answer = .error fault ∧ realizationCode? fault = some code := by
  have hseed : IsSeed g.seed := by
    rcases h.seed with hnull | ⟨z, hz⟩
    · exact hnull ▸ isSeed_null
    · exact hz ▸ isSeed_int z
  have hbudget : g.config.budget = .null ∨ ∃ budget, g.config.budget.toInt? = some budget := by
    obtain ⟨attempts, hattempts⟩ := h.budget
    rw [config, hattempts]
    -- Zero is passed on as no limit at all.
    by_cases hzero : (Datum.int attempts).holds = true
    · exact .inr ⟨attempts, by rw [if_pos hzero]; rfl⟩
    · exact .inl (if_neg hzero)
  obtain ⟨most, hmost⟩ : ∃ most, g.config.restarts.toInt? = some most := by
    obtain ⟨restarts, hrestarts⟩ := h.restarts
    exact ⟨restarts, by rw [config, hrestarts]; rfl⟩
  have hconfig : IsSeed g.config.seed := hseed
  obtain ⟨τ, source, state, hsource⟩ :=
    Draws.exists_realize_eq (hasSeed_draws hseed hdraws) hconfig .builtIn
  have htest : g.config.HasBuiltInTest := h.test
  obtain ⟨feasible, hexact, heq⟩ := exists_isExact_realizeFrom htest source state degrees
  rw [sampling, henv, hsource, heq]
  cases hpasses : feasible degrees with
  | false =>
    refine .inr ⟨.notRealizable degrees, .notGraphical, ?_, rfl⟩
    rw [sampleWith, hpasses, Bool.not_false, if_pos rfl]
    rfl
  | true =>
    rw [sampleWith_of_limits hpasses hbudget hmost]
    rcases Sampling.hasRun_sampleDegrees hpasses with hfound | ⟨pivot, attempts, restarts, hgiven⟩
    · exact .inl hfound
    · exact .inr ⟨_, .exhausted, hgiven, rfl⟩

end Generation.IsTyped

/-- The limits of a generation are not negative. -/
def Generation.HasLimits (g : Generation) : Prop :=
  (∃ attempts : ℤ, g.budget = .int attempts ∧ 0 ≤ attempts)
    ∧ ∃ restarts : ℤ, g.restarts = .int restarts ∧ 0 ≤ restarts

/-- A generation finds a graph for degrees and cannot save it. -/
def Generation.LosesGraph (g : Generation) (env : Environment σ) (degrees : List ℤ) (s : Session)
    (fault : Fault) : Prop :=
  let sampling := g.sampling env degrees
  g.HasLimits ∧ ∃ r, sampling.answer = .ok r
    ∧ ((g.save env degrees r).run { s with events := s.events ++ sampling.events }).1 = .error fault

/-- A graph that cannot be saved should have been saved somewhere. -/
theorem Generation.LosesGraph.asks (h : g.LosesGraph env degrees s fault) :
    g.output ≠ "" ∨ g.chart ≠ "" ∨ g.drawing ≠ "" := by
  obtain ⟨-, r, -, hsave⟩ := h
  by_contra hnothing
  push Not at hnothing
  rw [save_run_of_nothing hnothing.1 hnothing.2.1 hnothing.2.2] at hsave
  cases hsave

namespace Generation.IsTyped

/-- Negative limits are complained of before anything is sampled. -/
theorem run_of_not_hasLimits (h : g.IsTyped) (hlimits : ¬g.HasLimits) (env : Environment σ)
    (degrees : List ℤ) (s : Session) :
    ∃ t, (generateWith env g degrees).run s = (.ok .badInput, t) := by
  obtain ⟨attempts, hattempts⟩ := h.budget
  obtain ⟨restarts, hrestarts⟩ := h.restarts
  rw [generateWith, run_bind, run_ofAnswer, hattempts, Datum.related_less_int]
  by_cases hnegative : attempts < 0
  · rw [decide_eq_true hnegative]
    exact ⟨_, rfl⟩
  · have hless : restarts < 0 := by
      by_contra hle
      exact hlimits ⟨⟨attempts, hattempts, not_lt.mp hnegative⟩, restarts, hrestarts, not_lt.mp hle⟩
    rw [decide_eq_false hnegative]
    simp only [Bool.false_eq_true, if_false]
    rw [run_bind, run_ofAnswer, hrestarts, Datum.related_less_int, decide_eq_true hless]
    exact ⟨_, rfl⟩

/-- **The only failure of a generation without a code is that of saving a graph.** -/
theorem generateWith_fault_iff (h : g.IsTyped) (henv : env.registry = .builtIn)
    (hdraws : env.unseeded.HasSeed) (degrees : List ℤ) (s : Session) (fault : Fault) :
    ((generateWith env g degrees).run s).1 = .error fault
      ↔ g.LosesGraph env degrees s fault := by
  by_cases hlimits : g.HasLimits
  · have hrun : (generateWith env g degrees).run s
        = (finish env g degrees (g.sampling env degrees).answer).run
          { s with events := s.events ++ (g.sampling env degrees).events } := by
      obtain ⟨⟨attempts, hbudget, hattempts⟩, restarts, hlimit, hrestarts⟩ := hlimits
      exact generateWith_run_of_limits hbudget hattempts hlimit hrestarts env degrees s
    rw [hrun]
    rcases h.answer_sampling henv hdraws degrees with ⟨r, hanswer⟩ | ⟨cause, code, hanswer, hcode⟩
    · rw [hanswer, finish_fault_iff]
      constructor
      · exact fun hsave ↦ ⟨hlimits, r, hanswer, hsave⟩
      · rintro ⟨-, r', hanswer', hsave⟩
        cases hanswer.symm.trans hanswer'
        exact hsave
    · rw [hanswer, finish_run_of_error hcode]
      constructor
      · exact nofun
      · rintro ⟨-, r, hanswer', -⟩
        cases hanswer.symm.trans hanswer'
  · -- Nothing is sampled under such limits, so nothing can be lost.
    obtain ⟨t, hrun⟩ := h.run_of_not_hasLimits hlimits env degrees s
    rw [hrun]
    constructor
    · exact nofun
    · exact fun hloses ↦ absurd hloses.1 hlimits

end Generation.IsTyped

/-! ## Commands -/

namespace Command

/-- The degrees that a command starts from. -/
def input? : Command → Option DegreeInput
  | generate g => some g.input
  | check input _ => some input
  | sample _ => none

/-- The degrees of a command cannot be loaded. -/
def CannotLoad (command : Command) (s : Session) (fault : Fault) : Prop :=
  ∃ input, command.input? = some input ∧ ((loadDegrees input).run s).1 = .error fault

/-- A command finds a graph and cannot save it. -/
def LosesGraph (command : Command) (env : Environment σ) (s : Session) (fault : Fault) : Prop :=
  ∃ g degrees t, command = .generate g ∧ (loadDegrees g.input).run s = (.ok degrees, t)
    ∧ g.LosesGraph env degrees t fault

variable {command : Command}

theorem IsTyped.exists_column (h : command.IsTyped) (hinput : command.input? = some input) :
    ∃ name, input.column = .text name := by
  cases command with
  | generate g =>
    cases hinput
    exact h.column
  | check input' test =>
    cases hinput
    exact h.1
  | sample law => cases hinput

/-- A sample is refused, by its checks or by the source of its variates. -/
def IsRefused (command : Command) (env : Environment σ) (fault : Fault) : Prop :=
  ∃ law, command = .sample law ∧ law.RefusedFor (env.start law) fault

/-- **A command fails without a code if degrees cannot be loaded, but not for bad input, if a graph
cannot be saved, or if a sample is refused for something that has no code, and for no other
reason.** -/
theorem perform_fault_iff (htyped : command.IsTyped) (henv : env.registry = .builtIn)
    (hdraws : env.unseeded.HasSeed) (s : Session) (fault : Fault) :
    ((command.perform env).run s).1 = .error fault ↔
      (command.CannotLoad s fault ∧ fault.isBadInput = false) ∨ command.LosesGraph env s fault
        ∨ command.IsRefused env fault ∧ samplingCode? fault = none := by
  cases command with
  | generate g =>
    rw [perform, withDegrees_fault_iff]
    have hgenerate (degrees : List ℤ) (t : Session) :=
      Generation.IsTyped.generateWith_fault_iff htyped henv hdraws degrees t fault
    constructor
    · rintro (⟨hload, hbad⟩ | ⟨degrees, t, hload, hfault⟩)
      · exact .inl ⟨⟨g.input, rfl, hload⟩, hbad⟩
      · exact .inr (.inl ⟨g, degrees, t, rfl, hload, (hgenerate degrees t).mp hfault⟩)
    · rintro (⟨⟨input, hinput, hload⟩, hbad⟩ | ⟨g', degrees, t, hg, hload, hloses⟩
        | ⟨⟨law, hlaw, -⟩, -⟩)
      · cases hinput
        exact .inl ⟨hload, hbad⟩
      · cases hg
        exact .inr ⟨degrees, t, hload, (hgenerate degrees t).mpr hloses⟩
      · cases hlaw
  | check input test =>
    rw [perform, withDegrees_fault_iff]
    have hcheck (degrees : List ℤ) (t : Session) :
        ((checkWith env test degrees).run t).1 ≠ .error fault := by
      have hbuiltIn : ({ test := test } : Config).HasBuiltInTest := htyped.2
      obtain ⟨feasibility, hresolve, -⟩ := hbuiltIn.exists_resolve
      rw [checkWith_run (henv ▸ hresolve)]
      split
      · exact nofun
      · exact nofun
    constructor
    · rintro (⟨hload, hbad⟩ | ⟨degrees, t, -, hfault⟩)
      · exact .inl ⟨⟨input, rfl, hload⟩, hbad⟩
      · exact absurd hfault (hcheck degrees t)
    · rintro (⟨⟨input', hinput, hload⟩, hbad⟩ | ⟨g, _, _, hg, -⟩ | ⟨⟨law, hlaw, -⟩, -⟩)
      · cases hinput
        exact .inl ⟨hload, hbad⟩
      · cases hg
      · cases hlaw
  | sample law =>
    rw [perform, PowerLaw.IsTyped.sampleFrom_fault_iff htyped]
    constructor
    · exact fun ⟨hrefused, hcode⟩ ↦ .inr (.inr ⟨⟨law, rfl, hrefused⟩, hcode⟩)
    · rintro (⟨⟨input, hinput, -⟩, -⟩ | ⟨g, _, _, hg, -⟩ | ⟨⟨law', hlaw, hrefused⟩, hcode⟩)
      · cases hinput
      · cases hg
      · cases hlaw
        exact ⟨hrefused, hcode⟩

/-- Degrees that cannot be loaded for bad input are complained of. -/
theorem perform_run_of_badInput (h : command.CannotLoad s fault) (hbad : fault.isBadInput = true)
    (env : Environment σ) : ∃ t, (command.perform env).run s = (.ok .badInput, t)
      ∧ t.errors = s.errors ++ ["error: " ++ fault.message] := by
  obtain ⟨input, hinput, hload⟩ := h
  obtain ⟨tree, events, hleft⟩ := exists_loadDegrees_run input s
  have hrun := withDegrees_run_of_fault (Prod.ext hload hleft)
  rw [if_pos hbad] at hrun
  cases command with
  | generate g =>
    cases hinput
    exact ⟨_, hrun (generateWith env g), rfl⟩
  | check input' test =>
    cases hinput
    exact ⟨_, hrun (checkWith env test), rfl⟩
  | sample law => cases hinput

/-- A sample that is refused is complained of, if there is a code for the refusal. -/
theorem perform_run_of_isRefused {code : ExitCode} (h : command.IsRefused env fault)
    (hcode : samplingCode? fault = some code) (s : Session) :
    ∃ t, (command.perform env).run s = (.ok code, t)
      ∧ t.errors = s.errors ++ ["error: " ++ fault.message] := by
  obtain ⟨law, rfl, hrefused⟩ := h
  obtain ⟨events, hrun⟩ := sampleFrom_run_of_error (hrefused.answer_eq env.variates) s
  rw [hcode] at hrun
  exact ⟨_, hrun, rfl⟩

end Command

/-! ## Command lines -/

namespace Invocation

variable {i : Invocation} {name : String} {tree : FileTree}

theorem perform_eq (hlevel : i.levelName = .text name) (env : Environment σ) (tree : FileTree) :
    (i.perform env tree).session = ((i.command.perform env).run { tree }).2 ∧
    (i.perform env tree).ending = match ((i.command.perform env).run { tree }).1 with
      | .ok code => .code code
      | .error fault => .failed fault := by
  rw [perform, level, hlevel]
  simp only
  rcases (i.command.perform env).run { tree } with ⟨_ | _, t⟩
  · exact ⟨rfl, rfl⟩
  · exact ⟨rfl, rfl⟩

theorem perform_of_run {code : ExitCode} {t : Session} (hlevel : i.levelName = .text name)
    (hrun : (i.command.perform env).run { tree } = (.ok code, t)) :
    (i.perform env tree).ending = .code code ∧ (i.perform env tree).session = t := by
  obtain ⟨hsession, hending⟩ := perform_eq hlevel env tree
  rw [hrun] at hsession hending
  exact ⟨hending, hsession⟩

theorem ending_failed_iff (hlevel : i.levelName = .text name) :
    (i.perform env tree).ending = .failed fault ↔
      ((i.command.perform env).run { tree }).1 = .error fault := by
  rw [(perform_eq hlevel env tree).2]
  cases ((i.command.perform env).run { tree }).1 with
  | ok code => exact ⟨nofun, nofun⟩
  | error cause =>
    rw [Ending.failed.injEq, Except.error.injEq]

end Invocation

/-- **How an accepted command line ends.** It ends with a code or with a failure, and there are three
failures. Degrees are in a file and cannot be loaded, and this is not put down to the input; a plain
file that is not packed then holds a number beyond the doubles or labels that are no integers. A
graph was found and cannot be saved where it should go. Or the variates of a sample are refused for
something that has no code. All other input that cannot be used is complained of and ends with code
two: degrees on the command line, a file that cannot be read, a table that is none, and what no
sample can be asked for, which may be a seed that its variates do not take. -/
theorem carryOut_ending (henv : env.registry = .builtIn) (hdraws : env.unseeded.HasSeed)
    (tree : FileTree) {arguments : List String} (hwhole : AreWhole arguments) {i : Invocation}
    (haccepted : Invocation.ofArguments env.registry arguments = .ok i) :
    let f := carryOut env tree arguments
    let s : Session := { tree }
    ((∃ code, f.ending = .code code) ∨ ∃ fault, f.ending = .failed fault)
      ∧ (∀ fault, f.ending = .failed fault ↔
        (i.command.CannotLoad s fault ∧ fault.isBadInput = false)
          ∨ i.command.LosesGraph env s fault
          ∨ i.command.IsRefused env fault ∧ samplingCode? fault = none)
      ∧ (∀ fault, i.command.CannotLoad s fault → fault.isBadInput = true →
        f.ending = .code .badInput ∧ f.session.errors = ["error: " ++ fault.message])
      ∧ (∀ fault, i.command.CannotLoad s fault → fault.isBadInput = false →
        ∃ input, i.command.input? = some input ∧ input.file ≠ "" ∧
          (Address.IsPlain input.file → Packing.ofPath? input.file = none →
            fault ∈ [.oversizedForDouble, .infiniteNumber, .notNumber "tuple"]))
      ∧ (∀ fault, i.command.LosesGraph env s fault →
        ∃ g, i.command = .generate g ∧ (g.output ≠ "" ∨ g.chart ≠ "" ∨ g.drawing ≠ ""))
      ∧ (∀ fault code, i.command.IsRefused env fault → samplingCode? fault = some code →
        f.ending = .code code ∧ f.session.errors = ["error: " ++ fault.message])
      ∧ ∀ law fault, i.command = .sample law → law.check = .error fault →
        f.ending = .code .badInput ∧ f.session.errors = ["error: " ++ fault.message] := by
  intro f s
  have hf : f = i.perform env tree := by
    simp only [f, carryOut, haccepted]
  -- Only values of other kinds could fail in between, and the parser lets none of them through.
  obtain ⟨⟨level, hlevel⟩, htyped⟩ := Invocation.isTyped_of_ofArguments hwhole (henv ▸ haccepted)
  rw [hf]
  have hrefusals (fault : Fault) (code : ExitCode) (hrefused : i.command.IsRefused env fault)
      (hcode : samplingCode? fault = some code) : (i.perform env tree).ending = .code code
        ∧ (i.perform env tree).session.errors = ["error: " ++ fault.message] := by
    obtain ⟨t, hrun, herrors⟩ := Command.perform_run_of_isRefused hrefused hcode s
    obtain ⟨hending, hsession⟩ := Invocation.perform_of_run hlevel hrun
    exact ⟨hending, hsession ▸ herrors⟩
  refine ⟨?ends, fun fault ↦ ?fails, fun fault hload hbad ↦ ?complains,
    fun fault hload hbad ↦ ?file, fun fault hloses ↦ ?saves, hrefusals,
    fun law fault hsample hcheck ↦ ?sample⟩
  case ends =>
    rw [(Invocation.perform_eq hlevel env tree).2]
    cases ((i.command.perform env).run s).1 with
    | ok code => exact .inl ⟨code, rfl⟩
    | error fault => exact .inr ⟨fault, rfl⟩
  case fails =>
    rw [Invocation.ending_failed_iff hlevel]
    exact Command.perform_fault_iff htyped henv hdraws s fault
  case complains =>
    obtain ⟨t, hrun, herrors⟩ := Command.perform_run_of_badInput hload hbad env
    obtain ⟨hending, hsession⟩ := Invocation.perform_of_run hlevel hrun
    exact ⟨hending, hsession ▸ herrors⟩
  case file =>
    obtain ⟨input, hinput, hfault⟩ := hload
    obtain ⟨name, hname⟩ := htyped.exists_column hinput
    obtain ⟨hnonempty, hread⟩ := loadDegrees_fault_cases hfault hbad
    refine ⟨input, hinput, hnonempty, fun hplain hpacked ↦ ?_⟩
    rw [hname] at hread
    exact (ofTable_of_run_readDegreeColumn hplain hpacked hread).mem_of_isBadInput_eq_false hbad
  case saves =>
    obtain ⟨g, degrees, t, hg, -, hloses⟩ := hloses
    exact ⟨g, hg, hloses.asks⟩
  case sample =>
    rw [hsample] at htyped
    exact hrefusals fault .badInput ⟨law, hsample, .inl hcheck⟩
      (if_pos (htyped.isBadValue_of_check hcheck))

/-- A word that is no degree ends a check with code two, and a seed that the variates do not take
ends a sample with it. -/
theorem carryOut_ending_bad_input :
    let checked := carryOut .scripted .empty ["check", "1,x"]
    let sampled := carryOut .scripted .empty ["sample", "3", "--seed", "-1"]
    (checked.ending = .code .badInput
      ∧ checked.session.errors = ["error: " ++ (Fault.notDegree "x").message])
    ∧ sampled.ending = .code .badInput
      ∧ sampled.session.errors = ["error: expected non-negative integer"] := by
  intro checked sampled
  constructor
  · have hmain : Invocation.mainGrammar.read ["check", "1,x"]
        = .ok { words := some ["check", "1,x"] } :=
      Grammar.read_eq [.word "check", .word "1,x"] rfl (by cbv) rfl
    have hcheck : (Invocation.checkGrammar .builtIn).read ["1,x"]
        = .ok { words := some ["1,x"] } :=
      Grammar.read_eq [.word "1,x"] rfl (by cbv) rfl
    have haccepted : Invocation.ofArguments .builtIn ["check", "1,x"]
        = .ok ⟨.text "WARNING", .check { words := ["1,x"] } (.text "erdos_gallai")⟩ := by
      simp only [Invocation.ofArguments, hmain, bind, Except.bind, Option.getD_some,
        List.headD_cons, List.tail_cons, Invocation.commandOf, hcheck]
      rfl
    have hwhole : AreWhole ["check", "1,x"] := by decide
    obtain ⟨-, -, hbad, -⟩ :=
      carryOut_ending Environment.registry_scripted trivial .empty hwhole haccepted
    exact hbad (.notDegree "x") ⟨_, rfl, rfl⟩ rfl
  · have hmain : Invocation.mainGrammar.read ["sample", "3", "--seed", "-1"]
        = .ok { words := some ["sample", "3", "--seed", "-1"] } :=
      Grammar.read_eq [.word "sample", .word "3", .option "--seed" none, .word "-1"] rfl (by cbv) rfl
    have hsample : Invocation.sampleGrammar.read ["3", "--seed", "-1"]
        = .ok { values := [("seed", .int (-1)), ("count", .int 3)], words := some ["3"] } :=
      Grammar.read_eq [.word "3", .option "--seed"
        (some ⟨Invocation.option "--seed" "seed" .integer, "--seed", none⟩), .word "-1"] rfl (by cbv)
        rfl
    have haccepted : Invocation.ofArguments .builtIn ["sample", "3", "--seed", "-1"]
        = .ok ⟨.text "WARNING", .sample { count := .int 3, seed := .int (-1) }⟩ := by
      simp only [Invocation.ofArguments, hmain, bind, Except.bind, Option.getD_some,
        List.headD_cons, List.tail_cons, Invocation.commandOf, hsample]
      rfl
    have hwhole : AreWhole ["sample", "3", "--seed", "-1"] := by decide
    obtain ⟨-, -, -, -, -, hrefused, -⟩ :=
      carryOut_ending Environment.registry_scripted trivial .empty hwhole haccepted
    exact hrefused _ .badInput ⟨_, rfl, .inr ⟨rfl, rfl, rfl⟩⟩ rfl

/-- An edge that should go into a file with the name of a folder. -/
def Generation.atFolder : Generation := { Generation.ofWords ["1", "1"] with output := "d/" }

/-- **A graph that cannot be saved is a failure without a code.** The folder is not made, so there
is no place for the file beside the destination. -/
theorem carryOut_generate_at_folder :
    (carryOut .scripted .empty ["generate", "1", "1", "--output", "d/"]).ending
      = .failed (.file .missing "d/.tmp" none) := by
  have hmain : Invocation.mainGrammar.read ["generate", "1", "1", "--output", "d/"]
      = .ok { words := some ["generate", "1", "1", "--output", "d/"] } :=
    Grammar.read_eq
      [.word "generate", .word "1", .word "1", .option "--output" none, .word "d/"] rfl (by cbv) rfl
  have hgenerate : (Invocation.generateGrammar .builtIn).read ["1", "1", "--output", "d/"]
      = .ok { values := [("output", .text "d/")], words := some ["1", "1"] } :=
    Grammar.read_eq [.word "1", .word "1", .option "--output"
      (some ⟨Invocation.option "--output" "output" .text, "--output", none⟩), .word "d/"] rfl
      (by cbv) rfl
  have haccepted : Invocation.ofArguments .builtIn ["generate", "1", "1", "--output", "d/"]
      = .ok ⟨.text "WARNING", .generate .atFolder⟩ := by
    simp only [Invocation.ofArguments, hmain, bind, Except.bind, Option.getD_some, List.headD_cons,
      List.tail_cons, Invocation.commandOf, hgenerate]
    rfl
  have htyped := (Invocation.isTyped_of_ofArguments (by decide) haccepted).2
  have hanswer : (realize .builtIn Generation.atFolder.config (.script [0])
      (sequenceDatum [1, 1])).answer = .ok ⟨[(0, 1)], 1, 1, 0⟩ := by cbv
  have hloses : Generation.atFolder.LosesGraph .scripted [1, 1] { tree := .empty }
      (.file .missing "d/.tmp" none) :=
    ⟨⟨⟨100000, rfl, by decide⟩, 3, rfl, by decide⟩, _, hanswer, rfl⟩
  have hfails := (Command.perform_fault_iff htyped Environment.registry_scripted trivial
    { tree := .empty } _).mpr (.inr (.inl ⟨.atFolder, [1, 1], _, rfl, rfl, hloses⟩))
  simp only [carryOut, Environment.registry_scripted, haccepted]
  exact (Invocation.ending_failed_iff rfl).mpr hfails

end DegreeGraph
