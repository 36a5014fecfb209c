import DegreeGraph.Figure.Plain
import DegreeGraph.Proofs.Command.Session
import DegreeGraph.Proofs.Sampling.Support

/-!
# The commands on degrees agree

A check tells whether a graph has the degrees, and a generation looks for one. With room for all
draws that a search may need, a graph is found whenever there is one. So both commands end with the
same code, and a generation that ends well has printed the edges of such a graph.

Room is needed for `n - 1` draws, and zero stands for any number. A limit below zero is refused
before the degrees are looked at, even where `n - 1` is below zero too.
-/

namespace DegreeGraph

universe u

variable {σ : Type u} {env : Environment σ} {degrees : List ℤ} {r : Realization} {s t : Session}

/-- What a session has printed since are the edges of a graph with given degrees, the smaller node
first, line by line in ascending order. -/
def Session.PrintsGraph (degrees : List ℤ) (s t : Session) : Prop :=
  ∃ printed edges, t.output = s.output ++ printed ∧ readEdges? printed = some edges
    ∧ (∀ e ∈ edges, e.1 < e.2) ∧ edges.Pairwise (fun e f ↦ toLex e < toLex f)
    ∧ ∃ G : SimpleGraph (Fin degrees.length), Realizes G degrees.get ∧ {e | e ∈ edges} = edgesOf G

theorem Realization.Meets.printsGraph (h : r.Meets degrees)
    (ht : t.output = s.output ++ edgeLines r.edges) : s.PrintsGraph degrees t := by
  refine ⟨edgeLines r.edges, r.edges, ht, readEdges?_edgeLines r.edges,
    fun e he ↦ (h.edges e he).1, Realization.pairwise_edges h.nodup,
    edgeGraph degrees.length r.edges, h.realizes, ?_⟩
  ext e
  exact (mem_edgesOf_edgeGraph h.edges).symm

/-- An environment whose draws and variates are scripts, and whose figures are empty. Seeds of
variates must not be negative, and figures are saved in one format. -/
def Environment.scripted : Environment ScriptState :=
  { unseeded := .script [0]
    variates := scriptVariates {}
    state := {}
    admits := fun law ↦ checkVariateSeed law.seed.toInt?
    render := .byEnding [usualFormat] fun _ ↦ "" }

theorem Environment.registry_scripted : Environment.scripted.registry = .builtIn := rfl

/-- **Generating and checking end alike.** Both commands load the same degrees, from words or from a
file, and end with the same code, which is never that of an exhausted search. A generation that ends
well has printed a graph with the degrees. -/
theorem generate_ends_as_check (henv : env.registry = .builtIn) (hdraws : env.unseeded.HasSeed)
    {g : Generation} {test : Datum}
    (htest : test = .text "erdos_gallai" ∨ test = .text "havel_hakimi") (s : Session)
    (hample : ∀ degrees t, (loadDegrees g.input).run s = (.ok degrees, t) →
      g.IsAmple degrees.length) :
    let generated := ((Command.generate g).perform env).run s
    let checked := ((Command.check g.input test).perform env).run s
    generated.1 = checked.1 ∧ generated.1 ≠ .ok .exhausted ∧
      (generated.1 = .ok .fine → ∃ degrees t, (loadDegrees g.input).run s = (.ok degrees, t)
        ∧ s.PrintsGraph degrees generated.2) := by
  intro generated checked
  have houtput := output_loadDegrees g.input s
  -- The commands part only once the degrees are loaded.
  rcases hload : (loadDegrees g.input).run s with ⟨fault | degrees, t⟩
  · obtain ⟨answer, u, hfine, hexhausted, hend⟩ := withDegrees_run_of_error hload
    have hgenerated : generated = (answer, u) := hend (generateWith env g)
    have hchecked : checked = (answer, u) := hend (checkWith env test)
    rw [hgenerated, hchecked]
    exact ⟨rfl, hexhausted, fun heq ↦ absurd heq hfine⟩
  · rw [hload] at houtput
    have hgenerated : generated = (generateWith env g degrees).run t :=
      withDegrees_run_of_ok hload (generateWith env g)
    have hchecked : checked = (checkWith env test degrees).run t :=
      withDegrees_run_of_ok hload (checkWith env test)
    rcases (hample degrees t hload).generateWith_run_dichotomy henv hdraws t with
      ⟨hgraph, r, events, hmeets, hrun⟩ | ⟨hgraph, u, hrun⟩
    · rw [hgenerated, hchecked, hrun, checkWith_run_of_isGraphical henv htest hgraph]
      refine ⟨rfl, ?_, fun _ ↦ ⟨degrees, t, rfl, hmeets.printsGraph ?_⟩⟩
      · intro heq
        cases heq
      · -- Loading has printed nothing, so the edges stand right behind what was there.
        exact congrArg (· ++ edgeLines r.edges) houtput
    · rw [hgenerated, hchecked, hrun, checkWith_run_of_not_isGraphical henv htest hgraph]
      refine ⟨rfl, ?_, ?_⟩
      · intro heq
        cases heq
      · intro heq
        cases heq

/-- A limit of draws below zero is refused. For no degrees at all even such a limit has the room
that a search may need, and a check ends well. -/
theorem negative_limit_refused :
    let g := { Generation.ofWords [] with budget := .int (-1) }
    let s : Session := { tree := .empty }
    (loadDegrees g.input).run s = (.ok [], s) ∧
      (∃ attempts : ℤ, g.budget = .int attempts ∧ (([] : List ℤ).length : ℤ) - 1 ≤ attempts) ∧
      (((Command.generate g).perform .scripted).run s).1 = .ok .badInput ∧
      (((Command.check g.input g.test).perform .scripted).run s).1 = .ok .fine :=
  ⟨rfl, ⟨-1, rfl, by decide⟩, rfl, rfl⟩

/-- The triangle as one word, with a seed. -/
theorem generate_ends_as_check_triangle :
    let g := { Generation.ofWords ["2,2,2"] with seed := .int 41 }
    let s : Session := { tree := .empty }
    (((Command.generate g).perform .scripted).run s).1 = .ok .fine ∧
      s.PrintsGraph [2, 2, 2] (((Command.generate g).perform .scripted).run s).2 := by
  intro g s
  have hload : (loadDegrees g.input).run s = (.ok [2, 2, 2], s) := loadDegrees_word rfl s
  have hample (degrees : List ℤ) (t : Session)
      (hdegrees : (loadDegrees g.input).run s = (.ok degrees, t)) : g.IsAmple degrees.length := by
    rw [hload] at hdegrees
    cases hdegrees
    exact { Generation.IsAmple.ofWords ["2,2,2"] (by decide) with seed := isSeed_int 41 }
  have htest : g.test = .text "erdos_gallai" ∨ g.test = .text "havel_hakimi" := Or.inl rfl
  obtain ⟨hsame, -, hprints⟩ :=
    generate_ends_as_check Environment.registry_scripted trivial htest s hample
  have hgraph : IsGraphical ([2, 2, 2] : List ℤ).get :=
    ErdosGallai.passes_iff_isGraphical.mp (by decide)
  have hchecked : ((Command.check g.input g.test).perform .scripted).run s
      = (checkWith .scripted g.test [2, 2, 2]).run s :=
    withDegrees_run_of_ok hload (checkWith .scripted g.test)
  have hend := hchecked.trans
    (checkWith_run_of_isGraphical Environment.registry_scripted htest hgraph s)
  have hfine : (((Command.generate g).perform .scripted).run s).1 = .ok .fine :=
    hsame.trans (congrArg Prod.fst hend)
  obtain ⟨degrees, t, hdegrees, hprinted⟩ := hprints hfine
  rw [hload] at hdegrees
  cases hdegrees
  exact ⟨hfine, hprinted⟩

end DegreeGraph
