import DegreeGraph.Command.Arguments
import DegreeGraph.Proofs.Stepwise

/-!
# What accepted arguments hold

Arguments are taken token by token, and a step binds a field, fills the positional argument or
leaves something over. What every step preserves holds of the arguments in the end
(`Grammar.take_preserves`). So the fields have values of the kinds that the command takes for them
(`Grammar.takes_of_read`), and the words are among what was given (`Grammar.mem_of_read`).

There is one exception. Two hyphens behind an equals sign leave an option with no values, whatever
its kind; arguments of this form have to be ruled out (`AreWhole`).
-/

namespace DegreeGraph

open Stepwise

variable {d : Datum} {options : List OptionSpec} {o : OptionSpec} {use : OptionUse}
  {s name field : String} {arguments : List String} {tokens : List Token} {token : Token}

/-! ## Options -/

theorem mem_of_lookup {α β : Type} [BEq α] [LawfulBEq α] {l : List (α × β)} {a : α} {b : β}
    (h : l.lookup a = some b) : (a, b) ∈ l := by
  obtain ⟨front, back, rfl, -⟩ := List.lookup_eq_some_iff.mp h
  exact List.mem_append_right front List.mem_cons_self

theorem mem_of_mem_namedOptions (h : (name, o) ∈ namedOptions options) :
    o ∈ options ∧ name ∈ o.names := by
  obtain ⟨o', ho, hnamed⟩ := List.mem_flatMap.mp h
  obtain ⟨name', hname, heq⟩ := List.mem_map.mp hnamed
  cases heq
  exact ⟨ho, hname⟩

/-- The names of options with values begin with two hyphens, so that a value stands behind an equals
sign or in the next argument. -/
def AreLong (options : List OptionSpec) : Prop :=
  ∀ o ∈ options, o.kind.isSome → ∀ name ∈ o.names, beginsWith name "--"

instance (options : List OptionSpec) : Decidable (AreLong options) :=
  inferInstanceAs
    (Decidable (∀ o ∈ options, o.kind.isSome → ∀ name ∈ o.names, beginsWith name "--"))

/-- No argument is an option with two hyphens behind an equals sign. -/
def AreWhole (arguments : List String) : Prop :=
  ∀ s ∈ arguments, (splitAtEquals s).map Prod.snd ≠ some "--"

instance (arguments : List String) : Decidable (AreWhole arguments) :=
  inferInstanceAs (Decidable (∀ s ∈ arguments, (splitAtEquals s).map Prod.snd ≠ some "--"))

/-- An argument is used as an option that the command has. The value of an option that takes one is
what stands behind the equals sign. -/
structure OptionUse.Suits (use : OptionUse) (options : List OptionSpec) (s : String) : Prop where
  mem : use.option ∈ options
  value : use.option.kind.isSome → ∀ value, use.value = some value →
    ∃ name, splitAtEquals s = some (name, value)

theorem suits_of_exactUse? (h : exactUse? options s = some use) : use.Suits options s := by
  rw [exactUse?] at h
  split at h
  · rename_i o hlookup
    cases h
    exact ⟨(mem_of_mem_namedOptions (mem_of_lookup hlookup)).1, fun _ value hvalue ↦ nomatch hvalue⟩
  · split at h
    · rename_i name value hsplit
      obtain ⟨o, hlookup, rfl⟩ := Option.map_eq_some_iff.mp h
      refine ⟨(mem_of_mem_namedOptions (mem_of_lookup hlookup)).1, fun _ value' hvalue ↦ ?_⟩
      cases hvalue
      exact ⟨name, hsplit⟩
    · cases h

theorem suits_of_mem_longUses (h : use ∈ longUses options s) : use.Suits options s := by
  obtain ⟨⟨name, o⟩, hnamed, rfl⟩ := List.mem_map.mp h
  refine ⟨(mem_of_mem_namedOptions (List.mem_of_mem_filter hnamed)).1, fun _ value hvalue ↦ ?_⟩
  simp only at hvalue
  split at hvalue
  · rename_i start value' hequals
    cases hvalue
    exact ⟨start, hequals⟩
  · cases hvalue

/-- No option with a value has a short name. -/
theorem suits_of_mem_shortUses (hlong : AreLong options) (hs : beginsWith s "--" = false)
    (h : use ∈ shortUses options s) : use.Suits options s := by
  obtain ⟨⟨name, o⟩, hnamed, huse⟩ := List.mem_filterMap.mp h
  obtain ⟨ho, hname⟩ := mem_of_mem_namedOptions hnamed
  simp only at huse
  split at huse
  · rename_i hshort
    cases huse
    refine ⟨ho, fun hkind ↦ absurd (hlong o ho hkind name hname) ?_⟩
    have htake : (String.ofList (s.toList.take 2)).toList = s.toList.take 2 := String.toList_ofList
    rw [eq_of_beq hshort, beginsWith, htake]
    intro hprefix
    have hstart : "--".toList <+: s.toList :=
      (List.isPrefixOf_iff_prefix.mp hprefix).trans (List.take_prefix 2 s.toList)
    exact Bool.eq_false_iff.mp hs (List.isPrefixOf_iff_prefix.mpr hstart)
  · split at huse
    · cases huse
      exact ⟨ho, fun _ value hvalue ↦ nomatch hvalue⟩
    · cases huse

theorem suits_of_mem_usesOf (hlong : AreLong options) (h : use ∈ usesOf options s) :
    use.Suits options s := by
  rw [usesOf] at h
  split at h
  · exact suits_of_mem_longUses h
  · rename_i hs
    exact suits_of_mem_shortUses hlong (Bool.eq_false_iff.mpr hs) h

/-! ## Tokens -/

theorem source_of_tokenOf (h : tokenOf options s = .ok token) : token.source = s := by
  rw [tokenOf] at h
  split at h
  · cases h
    rfl
  · split at h
    · cases h
      rfl
    · split at h
      · cases h
        rfl
      · split at h
        · cases h
          rfl
        · split at h
          · cases h
            rfl
          · cases h
            rfl
        · cases h

theorem suits_of_tokenOf (hlong : AreLong options)
    (h : tokenOf options s = .ok (.option name (some use))) : use.Suits options name := by
  have hsource : name = s := source_of_tokenOf h
  subst hsource
  rw [tokenOf] at h
  split at h
  · cases h
  · split at h
    · rename_i use' hexact
      cases h
      exact suits_of_exactUse? hexact
    · split at h
      · cases h
      · split at h
        · rename_i use' huses
          cases h
          exact suits_of_mem_usesOf hlong (huses ▸ List.mem_singleton_self _)
        · split at h
          · cases h
          · cases h
        · cases h

/-- What arguments are read as, from one of them on. -/
structure AreTokens (options : List OptionSpec) (arguments : List String) (tokens : List Token) :
    Prop where
  source : ∀ t ∈ tokens, t.source ∈ arguments
  suits : ∀ s use, .option s (some use) ∈ tokens → use.Suits options s
  /-- Two hyphens are a value only behind others, and no option is there. -/
  next : tokens.IsChain fun t u ↦ t.isOption → u ≠ .word "--"

namespace AreTokens

theorem drop (h : AreTokens options arguments tokens) (n : ℕ) :
    AreTokens options arguments (tokens.drop n) where
  source t ht := h.source t (List.mem_of_mem_drop ht)
  suits s use huse := h.suits s use (List.mem_of_mem_drop huse)
  next := h.next.drop n

theorem tail (h : AreTokens options arguments (token :: tokens)) :
    AreTokens options arguments tokens := h.drop 1

theorem map_word (arguments : List String) :
    AreTokens options arguments (arguments.map .word) where
  source t ht := by
    obtain ⟨s, hs, rfl⟩ := List.mem_map.mp ht
    exact hs
  suits s use huse := by
    obtain ⟨_, _, heq⟩ := List.mem_map.mp huse
    cases heq
  next := by
    rw [List.isChain_map]
    exact (List.pairwise_of_forall fun _ _ hoption ↦ nomatch hoption).isChain

/-- One more argument. -/
theorem cons (h : AreTokens options arguments tokens) (hsuits : ∀ name use,
    token = .option name (some use) → use.Suits options name)
    (hnext : token.isOption → tokens.head? ≠ some (.word "--")) :
    AreTokens options (token.source :: arguments) (token :: tokens) where
  source := List.forall_mem_cons.mpr ⟨List.mem_cons_self, fun t ht ↦
    List.mem_cons_of_mem _ (h.source t ht)⟩
  suits s use huse := by
    rcases List.mem_cons.mp huse with heq | htail
    · exact hsuits s use heq.symm
    · exact h.suits s use htail
  next := by
    refine List.isChain_cons.mpr ⟨?_, h.next⟩
    rintro u hu hoption rfl
    exact hnext hoption hu

end AreTokens

/-- Arguments are read as tokens, and two hyphens in front of them are no value. -/
theorem areTokens_of_tokensOf (hlong : AreLong options)
    (h : tokensOf options arguments = .ok tokens) :
    AreTokens options arguments tokens ∧ tokens.head? ≠ some (.word "--") := by
  induction arguments generalizing tokens with
  | nil =>
    cases h
    exact ⟨.map_word [], nofun⟩
  | cons s rest ih =>
    rw [tokensOf] at h
    split at h
    · rename_i hdashes
      cases h
      have hall : AreTokens options (Token.dashes.source :: rest) (.dashes :: rest.map .word) :=
        (AreTokens.map_word rest).cons nofun nofun
      exact ⟨eq_of_beq hdashes ▸ hall, nofun⟩
    · rename_i hdashes
      obtain ⟨token, htoken, h⟩ := exists_of_bind_eq_ok h
      obtain ⟨tokens', htokens, h⟩ := exists_of_bind_eq_ok h
      cases h
      obtain ⟨hrest, hhead⟩ := ih htokens
      have hsource := source_of_tokenOf htoken
      constructor
      · rw [← hsource]
        refine hrest.cons (fun name use heq ↦ ?_) fun _ ↦ hhead
        exact suits_of_tokenOf hlong (heq ▸ htoken)
      · intro heq
        cases heq
        exact hdashes (beq_iff_eq.mpr hsource.symm)

/-! ## Taking arguments -/

namespace Grammar

variable {g : Grammar} {a b : Arguments} {kind : ValueKind}

/-- **What every step of taking arguments preserves holds in the end.** -/
theorem take_preserves {P : Arguments → Prop}
    (hfill : ∀ a b n tokens, AreTokens g.options arguments tokens → P a →
      g.fillFrom a tokens = .ok (b, n) → P b)
    (hleave : ∀ a extras, P a → P (a.leave extras))
    (hoption : ∀ a b used s use next, s ∈ arguments → use.Suits g.options s →
      next ≠ some (.word "--") → P a → g.takeOption a use next = .ok (b, used) → P b)
    (htokens : AreTokens g.options arguments tokens) (ha : P a) (h : g.take a tokens = .ok b) :
    P b := by
  -- The cases are those of the recursion; each of them takes one step and goes on.
  induction a, tokens using take.induct with
  | case1 a =>
    rw [take] at h
    obtain ⟨⟨b', n⟩, hstep, h⟩ := exists_of_bind_eq_ok h
    cases h
    exact hfill a b n [] htokens ha hstep
  | case2 a s rest ih =>
    rw [take] at h
    exact ih htokens.tail (hleave a [s] ha) h
  | case3 a s use rest ihtaken ih =>
    rw [take] at h
    obtain ⟨⟨b', used⟩, hstep, h⟩ := exists_of_bind_eq_ok h
    have hnext : rest.head? ≠ some (.word "--") := fun hhead ↦
      (List.isChain_cons.mp htokens.next).1 _ hhead rfl rfl
    have hb' := hoption a b' used s use rest.head? (htokens.source _ List.mem_cons_self)
      (htokens.suits s use List.mem_cons_self) hnext ha hstep
    cases used with
    | true => exact ihtaken b' (htokens.tail.drop 1) hb' h
    | false => exact ih b' htokens.tail hb' h
  | case4 a token rest hunknown hknown ihleft ihfilled =>
    rw [take] at h
    · obtain ⟨⟨b', n⟩, hstep, h⟩ := exists_of_bind_eq_ok h
      have hb' := hfill a b' n _ htokens ha hstep
      simp only at h
      split at h
      · exact ihleft b' (htokens.tail.drop _) (hleave b' _ hb') h
      · exact ihfilled b' n (htokens.tail.drop _) hb' h
    · exact hunknown
    · exact hknown

/-! ### Single steps -/

theorem read_of_readValue {title : String} (h : g.readValue title kind s = .ok d) :
    kind.read s = .ok d := by
  rw [readValue] at h
  split at h
  · rename_i hread
    cases h
    exact hread
  · cases h

/-- The value of an option is read, unless it is two hyphens. -/
theorem setOption_cases (h : g.setOption a o kind s = .ok b) :
    ∃ d, b = a.bind o.field d ∧ (s = "--" ∨ kind.read s = .ok d) := by
  rw [setOption] at h
  split at h
  · rename_i hdashes
    cases h
    exact ⟨_, rfl, .inl (eq_of_beq hdashes)⟩
  · obtain ⟨d, hread, h⟩ := exists_of_bind_eq_ok h
    cases h
    exact ⟨d, rfl, .inr (read_of_readValue hread)⟩

theorem helpWith_ne_ok {α : Type} {title : String} {isLong : Bool} {cs : List Char} {c : α} :
    g.helpWith title isLong cs ≠ .ok c := by
  induction cs with
  | nil => exact nofun
  | cons head rest ih =>
    rw [helpWith]
    split
    · exact nofun
    · split
      · exact nofun
      · exact ih

/-- The value of an option stands in its own argument or in the next one. -/
theorem exists_setOption_of_takeOption {used : Bool} {next : Option Token}
    (h : g.takeOption a use next = .ok (b, used)) : ∃ kind s, use.option.kind = some kind
      ∧ (use.value = some s ∨ next = some (.word s)) ∧ g.setOption a use.option kind s = .ok b := by
  rw [takeOption.eq_def] at h
  split at h
  · rename_i kind s hkind hvalue
    obtain ⟨b', hset, h⟩ := exists_of_bind_eq_ok h
    cases h
    exact ⟨kind, s, hkind, .inl hvalue, hset⟩
  · rename_i kind s hkind hvalue
    obtain ⟨b', hset, h⟩ := exists_of_bind_eq_ok h
    cases h
    exact ⟨kind, s, hkind, .inr rfl, hset⟩
  · cases h
  · cases h
  · exact absurd h helpWith_ne_ok

/-- What the positional argument takes is a beginning of the tokens. -/
theorem fillFrom_cases {n : ℕ} (h : g.fillFrom a tokens = .ok (b, n)) :
    b = a ∨ g.fill a ((tokens.take n).map Token.source) = .ok b := by
  rw [fillFrom] at h
  split at h
  · cases h
    exact .inl rfl
  · simp only at h
    split at h
    · cases h
      exact .inl rfl
    · obtain ⟨b', hfill, h⟩ := exists_of_bind_eq_ok h
      cases h
      exact .inr hfill

theorem exists_take_of_read (h : g.read arguments = .ok a) :
    ∃ tokens, tokensOf g.options arguments = .ok tokens ∧ g.take {} tokens = .ok a := by
  rw [read] at h
  split at h
  · cases h
  · rename_i tokens htokens
    obtain ⟨a', htake, h⟩ := exists_of_bind_eq_ok h
    refine ⟨tokens, htokens, ?_⟩
    rw [requireWords] at h
    split at h
    · cases h
    · cases h
    · cases h
      exact htake

/-- Arguments are read as they are taken token by token. -/
theorem read_eq (tokens : List Token) (htokens : tokensOf g.options arguments = .ok tokens)
    (htake : g.take {} tokens = .ok a) (hwords : a.words.isSome) : g.read arguments = .ok a := by
  obtain ⟨words, hwords⟩ := Option.isSome_iff_exists.mp hwords
  simp only [read, htokens, htake, bind, Except.bind, requireWords.eq_def, hwords]

/-! ### Values -/

/-- The kinds of the values that a command takes, by field. -/
def kinds (g : Grammar) : List (String × ValueKind) :=
  g.options.filterMap (fun o ↦ o.kind.map (o.field, ·)) ++ match g.positional with
    | .single _ field kind => [(field, kind)]
    | _ => []

/-- The value of a field is of the kind that the command takes for it. -/
def Takes (g : Grammar) (field : String) (d : Datum) : Prop :=
  ∃ kind, (field, kind) ∈ g.kinds ∧ ∃ s, kind.read s = .ok d

theorem values_of_fill {taken : List String} (h : g.fill a taken = .ok b) :
    b.values = a.values ∨ ∃ field d, b.values = (field, d) :: a.values ∧ g.Takes field d := by
  rw [fill] at h
  split at h
  · cases h
    exact .inl rfl
  · split at h
    · cases h
      exact .inl rfl
    · cases h
  · rename_i title field kind hpositional
    obtain ⟨d, hread, h⟩ := exists_of_bind_eq_ok h
    cases h
    refine .inr ⟨field, d, rfl, kind, ?_, _, read_of_readValue hread⟩
    rw [kinds, hpositional]
    exact List.mem_append_right _ (List.mem_singleton_self _)

/-- **The values of accepted arguments are of the kinds that the command takes.** -/
theorem takes_of_read (hlong : AreLong g.options) (hwhole : AreWhole arguments)
    (h : g.read arguments = .ok a) : ∀ e ∈ a.values, g.Takes e.1 e.2 := by
  obtain ⟨tokens, htokens, htake⟩ := exists_take_of_read h
  have hnone : ∀ e ∈ ({} : Arguments).values, g.Takes e.1 e.2 := fun e he ↦
    absurd he List.not_mem_nil
  refine take_preserves (P := fun a ↦ ∀ e ∈ a.values, g.Takes e.1 e.2)
    (fun a b n tokens _ ha hfill ↦ ?_) (fun a extras ha ↦ ha)
    (fun a b used s use next hs huse hnext ha htake ↦ ?_) (areTokens_of_tokensOf hlong htokens).1
    hnone htake
  · rcases fillFrom_cases hfill with rfl | hfill
    · exact ha
    · rcases values_of_fill hfill with hsame | ⟨field, d, hmore, htakes⟩
      · rwa [hsame]
      · rw [hmore]
        exact List.forall_mem_cons.mpr ⟨htakes, ha⟩
  · obtain ⟨kind, value, hkind, hvalue, hset⟩ := exists_setOption_of_takeOption htake
    obtain ⟨d, rfl, hread⟩ := setOption_cases hset
    refine List.forall_mem_cons.mpr ⟨⟨kind, ?_, value, hread.resolve_left ?_⟩, ha⟩
    · refine List.mem_append_left _ (List.mem_filterMap.mpr ⟨use.option, huse.mem, ?_⟩)
      rw [hkind]
      rfl
    · rintro rfl
      rcases hvalue with hvalue | hvalue
      · obtain ⟨name, hsplit⟩ := huse.value (hkind ▸ rfl) _ hvalue
        exact hwhole s hs (hsplit ▸ rfl)
      · exact hnext hvalue

/-! ### Words -/

theorem words_of_fill {taken : List String} (h : g.fill a taken = .ok b) :
    ∀ w ∈ b.words.getD [], w ∈ taken := by
  rw [fill] at h
  split at h
  · cases h
    exact fun w hw ↦ List.mem_of_mem_erase hw
  · split at h
    · cases h
      exact fun w hw ↦ hw
    · cases h
  · obtain ⟨d, -, h⟩ := exists_of_bind_eq_ok h
    cases h
    exact fun w hw ↦ List.mem_of_mem_erase hw

/-- The words of accepted arguments are among what was given. -/
theorem mem_of_read (hlong : AreLong g.options) (h : g.read arguments = .ok a) :
    ∀ w ∈ a.words.getD [], w ∈ arguments := by
  obtain ⟨tokens, htokens, htake⟩ := exists_take_of_read h
  have hnone : ∀ w ∈ ({} : Arguments).words.getD [], w ∈ arguments := fun w hw ↦
    absurd hw List.not_mem_nil
  refine take_preserves (P := fun a ↦ ∀ w ∈ a.words.getD [], w ∈ arguments)
    (fun a b n tokens htokens ha hfill ↦ ?_) (fun a extras ha ↦ ha)
    (fun a b used s use next _ _ _ ha htake ↦ ?_) (areTokens_of_tokensOf hlong htokens).1
    hnone htake
  · rcases fillFrom_cases hfill with rfl | hfill
    · exact ha
    · intro w hw
      obtain ⟨t, ht, rfl⟩ := List.mem_map.mp (words_of_fill hfill w hw)
      exact htokens.source t (List.mem_of_mem_take ht)
  · obtain ⟨kind, value, -, -, hset⟩ := exists_setOption_of_takeOption htake
    obtain ⟨d, rfl, -⟩ := setOption_cases hset
    exact ha

end Grammar

end DegreeGraph
