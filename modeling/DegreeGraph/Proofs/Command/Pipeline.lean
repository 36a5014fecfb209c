import DegreeGraph.Proofs.Command.Agreement
import DegreeGraph.Proofs.Command.Invocation
import DegreeGraph.Proofs.Degrees.Literal
import DegreeGraph.Proofs.PowerLaw.Trials

/-!
# The line of a sample is an input

A sample is printed on one line. The other commands take this line as one word, read the sampled
degrees back from it, and end well: the degrees are graphical, so a check says so, and a generation
finds a graph.

The reader stops at `digitLimit` digits. A sampled degree is less than the number of nodes, and that
number has been read from an argument, so it is never too long.
-/

namespace DegreeGraph

open DegreeGraph.Number DegreeGraph.Text SessionM Stepwise

universe u v

variable {σ : Type u} {env : Environment σ} {τ : Type v} {user : Environment τ} {law : PowerLaw}
  {degrees : List ℤ} {s t : Session}

/-- A sample is printed if the command ends well. -/
theorem exists_sample_of_fine (h : (sampleFrom env law).run s = (.ok .fine, t)) :
    ∃ degrees, (law.sample env.variates env.state).answer = .ok degrees
      ∧ t.output = s.output ++ writeDegrees degrees ++ "\n" := by
  rw [sampleFrom, run_bind, run_report] at h
  simp only at h
  cases hanswer : (law.sampleStarting env.variates (env.start law)).answer with
  | ok degrees =>
    rw [hanswer] at h
    cases h
    have hstarting := PowerLaw.answer_sample_of_starting
      (fun _ ↦ Environment.eq_state_of_start) hanswer
    exact ⟨degrees, hstarting, rfl⟩
  | error fault =>
    rw [hanswer] at h
    simp only [samplingCode?] at h
    split at h
    · rename_i code hcode
      rw [run_complain] at h
      cases h
      split at hcode
      · cases hcode
      · split at hcode
        · cases hcode
        · cases hcode
    · cases h

/-- What a sample is written as is read as the sample. -/
theorem parseDegrees_sample (hcount : ∃ word, ValueKind.integer.read word = .ok law.count)
    (h : (law.sample env.variates env.state).answer = .ok degrees) :
    IsGraphical degrees.get ∧ parseDegrees (writeDegrees degrees) = .ok degrees := by
  obtain ⟨word, hword⟩ := hcount
  obtain ⟨n, hn, hlt⟩ := exists_int_of_read hword
  obtain ⟨hgraph, hlength⟩ := PowerLaw.isGraphical_of_sample hn h
  refine ⟨hgraph, parseDegrees_writeDegrees fun d hd ↦ ?_⟩
  -- Each degree is below the number of nodes, and that number could be read.
  have hd := natAbs_lt_length_of_isGraphical hgraph hd
  omega

/-- **What a sample prints feeds the other commands.** A check calls it graphical under both tests,
and a generation with the default limits prints a graph with the sampled degrees, for up to 100001
nodes. -/
theorem sample_feeds_commands (hcount : ∃ word, ValueKind.integer.read word = .ok law.count)
    (hfine : ((Command.sample law).perform env).run s = (.ok .fine, t))
    (huser : user.registry = .builtIn) (hdraws : user.unseeded.HasSeed) :
    ∃ degrees line, (law.sample env.variates env.state).answer = .ok degrees
      ∧ t.output = s.output ++ line ++ "\n" ∧ parseDegrees line = .ok degrees
      ∧ ∀ test, test = .text "erdos_gallai" ∨ test = .text "havel_hakimi" → ∀ session : Session,
        ((Command.check { words := [line] } test).perform user).run session
            = (.ok .fine, { session with output := session.output ++ "graphical" ++ "\n" })
        ∧ (degrees.length ≤ 100001 → ∀ seed, IsSeed seed →
          let g := { Generation.ofWords [line] with test := test, seed := seed }
          let generated := ((Command.generate g).perform user).run session
          generated.1 = .ok .fine ∧ session.PrintsGraph degrees generated.2) := by
  obtain ⟨degrees, hanswer, houtput⟩ := exists_sample_of_fine hfine
  obtain ⟨hgraph, hparse⟩ := parseDegrees_sample hcount hanswer
  refine ⟨degrees, writeDegrees degrees, hanswer, houtput, hparse, fun test htest session ↦ ?_⟩
  have hload := loadDegrees_word hparse session
  constructor
  · exact (withDegrees_run_of_ok hload _).trans
      (checkWith_run_of_isGraphical huser htest hgraph session)
  · intro hnodes seed hseed g generated
    have hample : g.IsAmple degrees.length :=
      { Generation.IsAmple.ofWords [writeDegrees degrees] hnodes with test := htest, seed := hseed }
    have hgenerated : generated = (generateWith user g degrees).run session :=
      withDegrees_run_of_ok hload (generateWith user g)
    rcases hample.generateWith_run_dichotomy huser hdraws session with
      ⟨-, r, events, hmeets, hrun⟩ | ⟨hnone, -⟩
    · rw [hgenerated, hrun]
      exact ⟨rfl, hmeets.printsGraph rfl⟩
    · exact absurd hgraph hnone

/-- An environment in which the variates are a batch with an odd sum. -/
def Environment.odd : Environment ScriptState :=
  { Environment.scripted with variates := PowerLaw.oddBatch }

/-- Degrees of three nodes are sampled, the second of them mended, and their line goes on to a check
and to a generation under both tests. -/
theorem sample_feeds_commands_threeNodes :
    let sampled := ((Command.sample PowerLaw.threeNodes).perform .odd).run { tree := .empty }
    sampled.1 = .ok .fine ∧ sampled.2.output = "2,2,2\n" ∧ parseDegrees "2,2,2" = .ok [2, 2, 2]
      ∧ ∀ test, test = .text "erdos_gallai" ∨ test = .text "havel_hakimi" → ∀ session : Session,
        ((Command.check { words := ["2,2,2"] } test).perform .scripted).run session
            = (.ok .fine, { session with output := session.output ++ "graphical" ++ "\n" })
        ∧ (let g := { Generation.ofWords ["2,2,2"] with test := test, seed := .int 7 }
          let generated := ((Command.generate g).perform .scripted).run session
          generated.1 = .ok .fine ∧ session.PrintsGraph [2, 2, 2] generated.2) := by
  have hanswer : (((Command.sample PowerLaw.threeNodes).perform .odd).run { tree := .empty }).1
      = .ok .fine := rfl
  have hprinted : (((Command.sample PowerLaw.threeNodes).perform .odd).run
      { tree := .empty }).2.output = "2,2,2\n" := rfl
  intro sampled
  have hfine : sampled = (.ok .fine, sampled.2) := Prod.ext hanswer rfl
  have hdraws : Environment.scripted.unseeded.HasSeed := trivial
  obtain ⟨degrees, line, hsampled, houtput, -, hcommands⟩ :=
    sample_feeds_commands ⟨"3", rfl⟩ hfine Environment.registry_scripted hdraws
  have hsample : (PowerLaw.threeNodes.sample PowerLaw.oddBatch {}).answer = .ok [2, 2, 2] := rfl
  obtain rfl : [2, 2, 2] = degrees := Except.ok.inj (hsample.symm.trans hsampled)
  obtain rfl : line = "2,2,2" := by
    have hline : line ++ "\n" = "2,2,2" ++ "\n" := by
      rw [← String.empty_append (s := line)]
      exact houtput.symm.trans hprinted
    rwa [← String.toList_inj, String.toList_append, String.toList_append, List.append_left_inj,
      String.toList_inj] at hline
  refine ⟨hanswer, hprinted, rfl, fun test htest session ↦ ?_⟩
  obtain ⟨hchecked, hgenerated⟩ := hcommands test htest session
  exact ⟨hchecked, hgenerated (by decide) (.int 7) (isSeed_int 7)⟩

end DegreeGraph
