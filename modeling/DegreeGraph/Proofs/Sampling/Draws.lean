import DegreeGraph.Proofs.Sampling.Answer

/-!
# The draws of the program are draws from a source

Draws come from a script, or from a twister that is started with a seed. Once the seed is known to
be one, each kind is a state of some source (`Draws.exists_realize_eq`), so what holds for all
sources holds for the draws of the program. With an exact test and budget enough only two things can
happen to degrees: they get a realization if a graph has them, and otherwise they are refused
(`Draws.realize_dichotomy`).
-/

namespace DegreeGraph

variable {draws : Draws} {config : Config} {registry : Registry}

/-- A datum can be used as a seed. -/
def IsSeed (seed : Datum) : Prop := ∃ n, seedNumber seed = .ok n

theorem isSeed_null : IsSeed .null := ⟨0, rfl⟩

theorem isSeed_int (z : ℤ) : IsSeed (.int z) := ⟨z.natAbs, rfl⟩

namespace Draws

/-- The seed that draws bring with them can be used. -/
def HasSeed : Draws → Prop
  | script _ => True
  | twister seed => IsSeed seed
  | own seed => IsSeed seed

theorem HasSeed.isSeed_seed {seed : Datum} (h : (own seed).HasSeed) (hconfig : IsSeed config.seed) :
    IsSeed ((own seed).seed config) := by
  cases seed with
  | null => exact hconfig
  | _ => exact h

theorem realize_own {seed : Datum} {n : ℕ} (h : seedNumber ((own seed).seed config) = .ok n)
    (sequence : Datum) : realize registry config (own seed) sequence
      = realizeFrom registry config Twister.source (.ofSeed n) sequence := by
  have hsample : (own seed).sample config
      = fun feasible degrees ↦ sampleWith config feasible Twister.source (.ofSeed n) degrees := by
    funext feasible degrees
    simp only [sample, sampleSeeded, h]
  rw [realize, check, hsample, realizeFrom]
  intro s hs
  cases hs

/-- Draws with a seed are draws from a state of some source. -/
theorem exists_realize_eq (h : draws.HasSeed) (hconfig : IsSeed config.seed) (registry : Registry) :
    ∃ (σ : Type) (source : Source σ) (state : σ), ∀ sequence,
      realize registry config draws sequence
        = realizeFrom registry config source state sequence := by
  cases draws with
  | script values => exact ⟨ℕ, scriptSource values, 0, realize_script registry config values⟩
  | twister seed =>
    obtain ⟨n, hn⟩ := h
    exact ⟨Twister, Twister.source, .ofSeed n, realize_twister registry config hn⟩
  | own seed =>
    obtain ⟨n, hn⟩ := h.isSeed_seed hconfig
    exact ⟨Twister, Twister.source, .ofSeed n, realize_own hn⟩

/-- **Degrees that a graph has get a realization, all others are refused.** -/
theorem realize_dichotomy (h : draws.HasSeed) (hconfig : IsSeed config.seed)
    (htest : config.HasBuiltInTest) {degrees : List ℤ}
    (hbudget : config.GrantsBudget ((degrees.length : ℤ) - 1)) :
    (IsGraphical degrees.get ∧ ∃ r : Realization,
      (realize .builtIn config draws (sequenceDatum degrees)).answer = .ok r ∧ r.Meets degrees) ∨
    (¬IsGraphical degrees.get ∧ (realize .builtIn config draws (sequenceDatum degrees)).answer
      = .error (.notRealizable degrees)) := by
  obtain ⟨σ, source, state, hsource⟩ := exists_realize_eq h hconfig .builtIn
  obtain ⟨feasible, hexact, heq⟩ := exists_isExact_realizeFrom htest source state degrees
  rw [hsource, heq]
  by_cases hgraph : IsGraphical degrees.get
  · obtain ⟨r, hmeets, hanswer⟩ := sampleWith_of_isGraphical hexact hgraph hbudget source state
    exact Or.inl ⟨hgraph, _, hanswer, hmeets.realization rfl⟩
  · right
    rw [sampleWith_of_not_isGraphical hexact hgraph]
    exact ⟨hgraph, rfl⟩

end Draws

end DegreeGraph
