import DegreeGraph.Proofs.Number.Decimal

/-!
# What an integer literal is

An integer literal is a sign, which may be missing, and a numeral: digits of any script with single
underscores between them (`IsDigitRun`), of which there are at most `digitLimit`. The grammar is
said here without the reader, and the value is that of the digits in base ten. The reader takes a
token exactly if it is a literal, and then gives its value (`readInt?_eq_some_iff`); the blanks that
it also allows around a literal are of no use to a token, which holds none.
-/

namespace DegreeGraph.Number

open DegreeGraph.Text

variable {s : List Char} {c : Char} {d n : ℕ} {ds : List ℕ} {z : ℤ}

/-! ## Digits -/

/-- A character is a digit of some script, and has a value. -/
def IsDigit (c : Char) (d : ℕ) : Prop := d < 10 ∧ ∃ first ∈ zeroDigits, c.toNat = first + d

/-- The blocks of digits do not overlap. -/
theorem zeroDigits_apart : ∀ first ∈ zeroDigits, ∀ other ∈ zeroDigits,
    first = other ∨ first + 10 ≤ other ∨ other + 10 ≤ first := by decide +kernel

theorem digitValue?_eq_some_iff : digitValue? c = some d ↔ IsDigit c d := by
  have hblock (first : ℕ) : (decide (first ≤ c.toNat) && decide (c.toNat < first + 10)) = true
      ↔ first ≤ c.toNat ∧ c.toNat < first + 10 := by
    rw [Bool.and_eq_true, decide_eq_true_iff, decide_eq_true_iff]
  constructor
  · intro h
    obtain ⟨first, hfound, rfl⟩ := Option.map_eq_some_iff.mp h
    have hin : first ≤ c.toNat ∧ c.toNat < first + 10 := by
      have hfirst := List.find?_some hfound
      rwa [hblock] at hfirst
    exact ⟨by omega, first, List.mem_of_find?_eq_some hfound, by omega⟩
  · rintro ⟨hd, first, hfirst, hc⟩
    cases hfound : zeroDigits.find? fun f ↦ decide (f ≤ c.toNat) && decide (c.toNat < f + 10) with
    | none =>
      have hout := List.find?_eq_none.mp hfound first hfirst
      rw [hblock] at hout
      omega
    | some other =>
      have hother := List.find?_some hfound
      rw [hblock] at hother
      have hapart := zeroDigits_apart first hfirst other (List.mem_of_find?_eq_some hfound)
      rw [digitValue?, hfound, Option.map_some]
      congr 1
      omega

theorem not_isDigit (h : digitValue? c = none) : ¬IsDigit c d := by
  rw [← digitValue?_eq_some_iff, h]
  exact nofun

/-! ## Numerals -/

/-- Digits with single underscores between them, and the values of the digits. -/
inductive IsDigitRun : List Char → List ℕ → Prop
  /-- A digit stands alone. -/
  | single {c : Char} {d : ℕ} (hc : IsDigit c d) : IsDigitRun [c] [d]
  /-- A digit stands in front of another. -/
  | digit {c : Char} {d : ℕ} {s : List Char} {ds : List ℕ} (hc : IsDigit c d)
    (hs : IsDigitRun s ds) : IsDigitRun (c :: s) (d :: ds)
  /-- An underscore stands between a digit and another. -/
  | underscore {c : Char} {d : ℕ} {s : List Char} {ds : List ℕ} (hc : IsDigit c d)
    (hs : IsDigitRun s ds) : IsDigitRun (c :: '_' :: s) (d :: ds)

/-- What may stand behind a digit: nothing, more digits, or an underscore and more digits. -/
def IsBehindDigit (s : List Char) (ds : List ℕ) : Prop :=
  s = [] ∧ ds = [] ∨ IsDigitRun s ds ∨ ∃ rest, s = '_' :: rest ∧ IsDigitRun rest ds

theorem IsBehindDigit.cons (hc : IsDigit c d) (h : IsBehindDigit s ds) :
    IsDigitRun (c :: s) (d :: ds) := by
  rcases h with ⟨rfl, rfl⟩ | hs | ⟨rest, rfl, hrest⟩
  · exact .single hc
  · exact .digit hc hs
  · exact .underscore hc hrest

theorem literalDigits?_cons (hc : IsDigit c d) (afterDigit : Bool) (s : List Char) :
    literalDigits? afterDigit (c :: s) = (literalDigits? true s).map (d :: ·) := by
  have hne : ¬(c == '_') = true := by
    rw [beq_iff_eq]
    rintro rfl
    exact not_isDigit rfl hc
  rw [literalDigits?, if_neg hne, digitValue?_eq_some_iff.mpr hc]

theorem IsDigitRun.literalDigits?_eq (h : IsDigitRun s ds) (afterDigit : Bool) :
    literalDigits? afterDigit s = some ds := by
  induction h generalizing afterDigit with
  | single hc => rw [literalDigits?_cons hc, literalDigits?, if_pos rfl, Option.map_some]
  | digit hc _ ih => rw [literalDigits?_cons hc, ih, Option.map_some]
  | underscore hc _ ih =>
    rw [literalDigits?_cons hc, literalDigits?, if_pos (beq_self_eq_true '_'), if_pos rfl, ih,
      Option.map_some]

theorem literalDigits?_cases {afterDigit : Bool} (h : literalDigits? afterDigit s = some ds) :
    IsDigitRun s ds ∨ afterDigit = true ∧ IsBehindDigit s ds := by
  induction s generalizing afterDigit ds with
  | nil =>
    rw [literalDigits?] at h
    split at h
    · rename_i hafter
      cases h
      exact Or.inr ⟨hafter, Or.inl ⟨rfl, rfl⟩⟩
    · cases h
  | cons c s ih =>
    rw [literalDigits?] at h
    split at h
    · rename_i hc
      obtain rfl := beq_iff_eq.mp hc
      split at h
      · rename_i hafter
        -- Behind an underscore there must be a digit.
        have hs := (ih h).resolve_right fun hbehind ↦ Bool.false_ne_true hbehind.1
        exact Or.inr ⟨hafter, Or.inr (Or.inr ⟨s, rfl, hs⟩)⟩
      · cases h
    · split at h
      · rename_i d hd
        obtain ⟨later, hlater, rfl⟩ := Option.map_eq_some_iff.mp h
        have hbehind : IsBehindDigit s later := (ih hlater).elim (Or.inr ∘ Or.inl) And.right
        exact Or.inl (hbehind.cons (digitValue?_eq_some_iff.mp hd))
      · cases h

theorem literalDigits?_eq_some_iff : literalDigits? false s = some ds ↔ IsDigitRun s ds := by
  constructor
  · intro h
    exact (literalDigits?_cases h).resolve_right fun hbehind ↦ Bool.false_ne_true hbehind.1
  · intro h
    exact h.literalDigits?_eq false

/-- Digits in base ten with at most `digitLimit` of them, and their value. -/
def IsNumeral (s : List Char) (n : ℕ) : Prop :=
  ∃ ds, IsDigitRun s ds ∧ ds.length ≤ digitLimit ∧ n = Nat.ofDigits 10 ds.reverse

theorem ofDigits_eq (ds : List ℕ) : ofDigits ds = Nat.ofDigits 10 ds.reverse := by
  induction ds using List.reverseRecOn with
  | nil => rfl
  | append_singleton ds d ih =>
    rw [ofDigits_append, ih, List.reverse_append, List.reverse_singleton, List.singleton_append,
      Nat.ofDigits_cons, Nat.add_comm]

theorem readNat?_eq_some_iff : readNat? s = some n ↔ IsNumeral s n := by
  rw [readNat?]
  constructor
  · intro h
    split at h
    · rename_i ds hds
      split at h
      · rename_i hlimit
        cases h
        exact ⟨ds, literalDigits?_eq_some_iff.mp hds, hlimit, ofDigits_eq ds⟩
      · cases h
    · cases h
  · rintro ⟨ds, hds, hlimit, rfl⟩
    rw [literalDigits?_eq_some_iff.mpr hds]
    simp only [if_pos hlimit, ofDigits_eq]

/-! ## Literals -/

/-- A numeral with a sign or without one, and its value. -/
inductive IsIntLiteral : List Char → ℤ → Prop
  | bare {s : List Char} {n : ℕ} (h : IsNumeral s n) : IsIntLiteral s n
  | plus {s : List Char} {n : ℕ} (h : IsNumeral s n) : IsIntLiteral ('+' :: s) n
  | minus {s : List Char} {n : ℕ} (h : IsNumeral s n) : IsIntLiteral ('-' :: s) (-n)

/-- A numeral begins with a digit. -/
theorem IsNumeral.exists_isDigit (h : IsNumeral (c :: s) n) : ∃ d, IsDigit c d := by
  obtain ⟨ds, hds, -⟩ := h
  cases hds with
  | single hc => exact ⟨_, hc⟩
  | digit hc _ => exact ⟨_, hc⟩
  | underscore hc _ => exact ⟨_, hc⟩

theorem readSigned?_plus (s : List Char) :
    readSigned? ('+' :: s) = (readNat? s).map fun n : ℕ ↦ (n : ℤ) := by
  rw [readSigned?]
  cases readNat? s with
  | none => rfl
  | some n => rfl

theorem readSigned?_minus (s : List Char) :
    readSigned? ('-' :: s) = (readNat? s).map fun n : ℕ ↦ -(n : ℤ) := by
  rw [readSigned?]
  cases readNat? s with
  | none => rfl
  | some n => rfl

theorem readSigned?_bare (hplus : s.head? ≠ some '+') (hminus : s.head? ≠ some '-') :
    readSigned? s = (readNat? s).map fun n : ℕ ↦ (n : ℤ) := by
  rw [readSigned?.eq_def]
  split
  · exact absurd rfl hminus
  · exact absurd rfl hplus
  · cases readNat? s with
    | none => rfl
    | some n => rfl

theorem readSigned?_eq_some_iff : readSigned? s = some z ↔ IsIntLiteral s z := by
  constructor
  · intro h
    by_cases hplus : s.head? = some '+'
    · obtain ⟨rest, rfl⟩ := List.head?_eq_some_iff.mp hplus
      rw [readSigned?_plus] at h
      obtain ⟨n, hn, rfl⟩ := Option.map_eq_some_iff.mp h
      exact .plus (readNat?_eq_some_iff.mp hn)
    by_cases hminus : s.head? = some '-'
    · obtain ⟨rest, rfl⟩ := List.head?_eq_some_iff.mp hminus
      rw [readSigned?_minus] at h
      obtain ⟨n, hn, rfl⟩ := Option.map_eq_some_iff.mp h
      exact .minus (readNat?_eq_some_iff.mp hn)
    rw [readSigned?_bare hplus hminus] at h
    obtain ⟨n, hn, rfl⟩ := Option.map_eq_some_iff.mp h
    exact .bare (readNat?_eq_some_iff.mp hn)
  · intro h
    cases h with
    | plus h => rw [readSigned?_plus, readNat?_eq_some_iff.mpr h, Option.map_some]
    | minus h => rw [readSigned?_minus, readNat?_eq_some_iff.mpr h, Option.map_some]
    | bare h =>
      -- What begins with a digit has no sign in front of it.
      have hfirst {c : Char} (hc : digitValue? c = none) : s.head? ≠ some c := by
        intro hhead
        obtain ⟨rest, rfl⟩ := List.head?_eq_some_iff.mp hhead
        obtain ⟨d, hd⟩ := h.exists_isDigit
        exact not_isDigit hc hd
      rw [readSigned?_bare (hfirst rfl) (hfirst rfl), readNat?_eq_some_iff.mpr h, Option.map_some]

/-- **The literals are the tokens without blanks that are read, and their values what is read.** -/
theorem readInt?_eq_some_iff (hs : ∀ c ∈ s, isBlank c = false) :
    readInt? s = some z ↔ IsIntLiteral s z := by
  have hpadding : ∀ c ∈ s, isPadding c = false := fun c hc ↦ by
    rw [isPadding, hs c hc, Bool.false_and]
  rw [readInt?, trimBy_eq_self hpadding, readSigned?_eq_some_iff]

end DegreeGraph.Number
