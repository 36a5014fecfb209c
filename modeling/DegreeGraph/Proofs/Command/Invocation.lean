import DegreeGraph.Command.Invocation
import DegreeGraph.Proofs.Command.Arguments
import DegreeGraph.Proofs.Number.Literal
import DegreeGraph.Proofs.PowerLaw.Answer

/-!
# The values of invocations

What a command line accepts for a field is of one kind: an integer, a number, a text, or one of a
few texts. The defaults are of these kinds as well. So the values of an accepted command line are
what the commands expect (`Invocation.isTyped_of_ofArguments`): limits are integers, a test is a
built-in one, a column has a name.
-/

namespace DegreeGraph

open DegreeGraph.Number Stepwise

variable {d : Datum} {s name field : String} {arguments : List String}

/-! ## Values that are read -/

theorem exists_int_of_read (h : ValueKind.integer.read s = .ok d) :
    ∃ z : ℤ, d = .int z ∧ z.natAbs < 10 ^ digitLimit := by
  rw [ValueKind.read] at h
  split at h
  · rename_i z hz
    cases h
    exact ⟨z, rfl, natAbs_lt_of_readInt? hz⟩
  · cases h

theorem exists_float_of_read (h : ValueKind.real.read s = .ok d) : ∃ x, d = .float x := by
  rw [ValueKind.read] at h
  split at h
  · cases h
    exact ⟨_, rfl⟩
  · cases h

theorem eq_text_of_read (h : ValueKind.text.read s = .ok d) : d = .text s := by
  cases h
  rfl

theorem mem_of_read_choice {allowed : List String} (h : (ValueKind.choice allowed).read s = .ok d) :
    s ∈ allowed ∧ d = .text s := by
  rw [ValueKind.read, ValueKind.admits] at h
  split at h
  · rename_i hs
    cases h
    exact ⟨List.contains_iff_mem.mp hs, rfl⟩
  · cases h

/-! ## Commands with their values -/

/-- The values of a generation are of their kinds. -/
structure Generation.IsTyped (g : Generation) : Prop where
  column : ∃ name, g.input.column = .text name
  test : g.test = .text "erdos_gallai" ∨ g.test = .text "havel_hakimi"
  seed : g.seed = .null ∨ ∃ z, g.seed = .int z
  budget : ∃ z, g.budget = .int z
  restarts : ∃ z, g.restarts = .int z

/-- The values of a command are of their kinds. -/
def Command.IsTyped : Command → Prop
  | .generate g => g.IsTyped
  | .check input test => (∃ name, input.column = .text name) ∧
    (test = .text "erdos_gallai" ∨ test = .text "havel_hakimi")
  | .sample law => law.IsTyped

/-! ## Accepted command lines -/

namespace Invocation

open Grammar

variable {g : Grammar} {a : Arguments} {kind : ValueKind} {otherwise : Datum}

/-- A field has the value that it had before, or one that was read. -/
theorem valueOf_cases (htakes : ∀ e ∈ a.values, g.Takes e.1 e.2)
    (hkind : ∀ e ∈ g.kinds, e.1 = field → e.2 = kind) :
    valueOf a field otherwise = otherwise
      ∨ ∃ s, kind.read s = .ok (valueOf a field otherwise) := by
  rw [valueOf]
  cases hvalue : a.value? field with
  | none => exact .inl rfl
  | some d =>
    obtain ⟨kind', hkinds, s, hread⟩ := htakes (field, d) (mem_of_lookup hvalue)
    exact .inr ⟨s, hkind _ hkinds rfl ▸ hread⟩

theorem valueOf_text (htakes : ∀ e ∈ a.values, g.Takes e.1 e.2)
    (hkind : ∀ e ∈ g.kinds, e.1 = field → e.2 = .text) :
    ∃ text, valueOf a field (.text name) = .text text := by
  rcases valueOf_cases htakes hkind with hdefault | ⟨s, hread⟩
  · exact ⟨name, hdefault⟩
  · exact ⟨s, eq_text_of_read hread⟩

theorem valueOf_integer (htakes : ∀ e ∈ a.values, g.Takes e.1 e.2)
    (hkind : ∀ e ∈ g.kinds, e.1 = field → e.2 = .integer) :
    valueOf a field otherwise = otherwise ∨ ∃ z, valueOf a field otherwise = .int z :=
  (valueOf_cases htakes hkind).imp_right fun ⟨_, hread⟩ ↦
    (exists_int_of_read hread).imp fun _ hz ↦ hz.1

theorem valueOf_int (htakes : ∀ e ∈ a.values, g.Takes e.1 e.2)
    (hkind : ∀ e ∈ g.kinds, e.1 = field → e.2 = .integer) (n : ℤ) :
    ∃ z, valueOf a field (.int n) = .int z := by
  rcases valueOf_integer htakes hkind with hdefault | hint
  · exact ⟨n, hdefault⟩
  · exact hint

theorem valueOf_float (htakes : ∀ e ∈ a.values, g.Takes e.1 e.2)
    (hkind : ∀ e ∈ g.kinds, e.1 = field → e.2 = .real) (y : Float) :
    ∃ x, valueOf a field (.float y) = .float x := by
  rcases valueOf_cases htakes hkind with hdefault | ⟨s, hread⟩
  · exact ⟨y, hdefault⟩
  · exact exists_float_of_read hread

theorem testOf_cases (htakes : ∀ e ∈ a.values, g.Takes e.1 e.2)
    (hkind : ∀ e ∈ g.kinds, e.1 = "test" → e.2 = .choice Registry.builtIn.names) :
    testOf a = .text "erdos_gallai" ∨ testOf a = .text "havel_hakimi" := by
  rcases valueOf_cases htakes hkind with hdefault | ⟨s, hread⟩
  · exact .inl hdefault
  · obtain ⟨hname, htest⟩ := mem_of_read_choice hread
    have hnames : s ∈ ["erdos_gallai", "havel_hakimi"] := hname
    rcases List.mem_cons.mp hnames with rfl | hlast
    · exact .inl htest
    · exact .inr (List.mem_singleton.mp hlast ▸ htest)

/-- **The values of a command are of their kinds.** -/
theorem isTyped_of_commandOf {words extras : List String} {command : Command}
    (hwhole : AreWhole words) (h : commandOf .builtIn name words = .ok (command, extras)) :
    command.IsTyped := by
  rw [commandOf.eq_def] at h
  split at h
  · obtain ⟨a, hread, h⟩ := exists_of_bind_eq_ok h
    cases h
    have htakes := (generateGrammar .builtIn).takes_of_read (by decide) hwhole hread
    exact
      { column := valueOf_text htakes (by decide)
        test := testOf_cases htakes (by decide)
        seed := valueOf_integer htakes (by decide)
        budget := valueOf_int htakes (by decide) _
        restarts := valueOf_int htakes (by decide) _ }
  · obtain ⟨a, hread, h⟩ := exists_of_bind_eq_ok h
    cases h
    have htakes := (checkGrammar .builtIn).takes_of_read (by decide) hwhole hread
    exact ⟨valueOf_text htakes (by decide), testOf_cases htakes (by decide)⟩
  · obtain ⟨a, hread, h⟩ := exists_of_bind_eq_ok h
    cases h
    have htakes := sampleGrammar.takes_of_read (by decide) hwhole hread
    exact
      { count := valueOf_int htakes (by decide) 0
        exponent := valueOf_float htakes (by decide) 2.5
        least := valueOf_int htakes (by decide) 1
        greatest := valueOf_integer htakes (by decide)
        attempts := rfl }

/-- **An accepted command line is an invocation whose values are of their kinds.** -/
theorem isTyped_of_ofArguments {i : Invocation} (hwhole : AreWhole arguments)
    (h : ofArguments .builtIn arguments = .ok i) :
    (∃ name, i.levelName = .text name) ∧ i.command.IsTyped := by
  obtain ⟨a, hread, h⟩ := exists_of_bind_eq_ok h
  obtain ⟨⟨command, extras⟩, hcommand, h⟩ := exists_of_bind_eq_ok h
  have hlong : AreLong mainGrammar.options := by decide
  have hbehind : AreWhole (a.words.getD []).tail := fun s hs ↦
    hwhole s (mainGrammar.mem_of_read hlong hread s (List.mem_of_mem_tail hs))
  have htyped := isTyped_of_commandOf hbehind hcommand
  simp only at h
  split at h
  · cases h
    refine ⟨?_, htyped⟩
    have hkind : ∀ e ∈ mainGrammar.kinds,
        e.1 = "level" → e.2 = .choice (Level.all.map Level.name) := by decide
    rcases valueOf_cases (mainGrammar.takes_of_read hlong hwhole hread) hkind with
      hdefault | ⟨s, hlevel⟩
    · exact ⟨_, hdefault⟩
    · exact ⟨s, (mem_of_read_choice hlevel).2⟩
  · cases h

end Invocation

end DegreeGraph
