import Mathlib
import DegreeGraph.Number.Integer
import DegreeGraph.Proofs.Text.Splitting

/-!
# Written integers are read back

The printer writes Latin digits without a zero in front and a minus sign in front of negative
numbers. The reader knows digits of every script, signs, underscores and blanks, and stops at
`digitLimit` digits. On what the printer writes none of this matters but the limit: the reader gives
back every integer of at most `digitLimit` digits (`readInt?_writeInt`), and it never gives a longer
one (`natAbs_lt_of_readInt?`).

What the printer writes holds no character but digits and the minus sign, so it can stand between
any other characters (`eq_minus_or_isDigit_of_mem_writeInt`).
-/

namespace DegreeGraph.Number

open DegreeGraph.Text

variable {s : List Char} {c : Char} {n : ℕ} {z : ℤ}

/-! ## Digits -/

theorem isDigit_iff : c.isDigit = true ↔ 48 ≤ c.toNat ∧ c.toNat ≤ 57 := by
  rw [Char.isDigit, Bool.and_eq_true, decide_eq_true_iff, decide_eq_true_iff]
  exact Iff.rfl

/-- Latin digits come first in the table of digits. -/
theorem digitValue?_of_isDigit (h : c.isDigit = true) : digitValue? c = some (c.toNat - 48) := by
  obtain ⟨hle, hlt⟩ := isDigit_iff.mp h
  have hfirst : (decide (0x30 ≤ c.toNat) && decide (c.toNat < 0x30 + 10)) = true := by
    rw [Bool.and_eq_true, decide_eq_true_iff, decide_eq_true_iff]
    omega
  rw [digitValue?, zeroDigits, List.find?_cons, hfirst]
  rfl

theorem lt_ten_of_digitValue? {d : ℕ} (h : digitValue? c = some d) : d < 10 := by
  obtain ⟨first, hfound, rfl⟩ := Option.map_eq_some_iff.mp h
  have hin := List.find?_some hfound
  rw [Bool.and_eq_true, decide_eq_true_iff, decide_eq_true_iff] at hin
  omega

theorem literalDigits?_of_isDigit (hs : ∀ c ∈ s, c.isDigit = true) :
    literalDigits? true s = some (s.map fun c ↦ c.toNat - 48) := by
  induction s with
  | nil => rfl
  | cons c s ih =>
    have hc := hs c List.mem_cons_self
    have hne : c ≠ '_' := by
      rintro rfl
      exact absurd hc (by decide)
    rw [literalDigits?, if_neg (by simpa using hne), digitValue?_of_isDigit hc,
      ih fun d hd ↦ hs d (List.mem_cons_of_mem c hd)]
    rfl

/-- A run of digits does not depend on what stands in front of it, unless it is empty. -/
theorem literalDigits?_false (hne : s ≠ []) (hs : ∀ c ∈ s, c.isDigit = true) :
    literalDigits? false s = literalDigits? true s := by
  cases s with
  | nil => exact absurd rfl hne
  | cons c s =>
    have hne : c ≠ '_' := by
      rintro rfl
      exact absurd (hs '_' List.mem_cons_self) (by decide)
    rw [literalDigits?, literalDigits?, if_neg (by simpa using hne), if_neg (by simpa using hne)]

theorem literalDigits?_toDigits (n : ℕ) : literalDigits? false (Nat.toDigits 10 n)
    = some ((Nat.toDigits 10 n).map fun c ↦ c.toNat - 48) := by
  have hdigits (c : Char) (hc : c ∈ Nat.toDigits 10 n) : c.isDigit = true :=
    Nat.isDigit_of_mem_toDigits (by decide) le_rfl hc
  rw [literalDigits?_false Nat.toDigits_ne_nil hdigits, literalDigits?_of_isDigit hdigits]

theorem ofDigits_toDigits (n : ℕ) :
    ofDigits ((Nat.toDigits 10 n).map fun c ↦ c.toNat - 48) = n := by
  rw [ofDigits, List.foldl_map]
  exact Nat.ofDigitChars_ten_toDigits

theorem readNat?_toDigits (h : n < 10 ^ digitLimit) : readNat? (Nat.toDigits 10 n) = some n := by
  have hlength : (Nat.toDigits 10 n).length ≤ digitLimit :=
    (Nat.length_toDigits_le_iff (by decide) (by decide)).mpr h
  rw [readNat?, literalDigits?_toDigits]
  simp only [List.length_map]
  rw [if_pos hlength, ofDigits_toDigits]

/-! ## The printer -/

theorem toList_writeInt_natCast (n : ℕ) : (writeInt n).toList = Nat.toDigits 10 n :=
  Nat.toList_repr

theorem toList_writeInt_neg (hn : 0 < n) :
    (writeInt (-(n : ℤ))).toList = '-' :: Nat.toDigits 10 n := by
  obtain ⟨m, rfl⟩ := Nat.exists_eq_succ_of_ne_zero hn.ne'
  have hwritten : writeInt (-((m.succ : ℕ) : ℤ)) = "-" ++ Nat.repr m.succ := rfl
  rw [hwritten, String.toList_append, Nat.toList_repr]
  rfl

theorem writeInt_cases (z : ℤ) : (∃ n : ℕ, z = n ∧ (writeInt z).toList = Nat.toDigits 10 n) ∨
    ∃ n : ℕ, z = -(n : ℤ) ∧ (writeInt z).toList = '-' :: Nat.toDigits 10 n := by
  rcases lt_or_ge z 0 with hneg | hnonneg
  · obtain ⟨n, hn⟩ := Int.exists_eq_neg_ofNat hneg.le
    subst hn
    exact Or.inr ⟨n, rfl, toList_writeInt_neg (by omega)⟩
  · obtain ⟨n, rfl⟩ := Int.eq_ofNat_of_zero_le hnonneg
    exact Or.inl ⟨n, rfl, toList_writeInt_natCast n⟩

theorem eq_minus_or_isDigit_of_mem_writeInt (hc : c ∈ (writeInt z).toList) :
    c = '-' ∨ c.isDigit = true := by
  have hdigit {n : ℕ} (hmem : c ∈ Nat.toDigits 10 n) : c.isDigit = true :=
    Nat.isDigit_of_mem_toDigits (by decide) le_rfl hmem
  rcases writeInt_cases z with ⟨n, -, hn⟩ | ⟨n, -, hn⟩
  · rw [hn] at hc
    exact Or.inr (hdigit hc)
  · rw [hn] at hc
    exact (List.mem_cons.mp hc).imp_right hdigit

theorem isWritable_iff : isWritable z = true ↔ z.natAbs < 10 ^ digitLimit := by
  rw [isWritable, decide_eq_true_iff]
  exact Nat.length_toDigits_le_iff (by decide) (by decide)

/-- The least number with too many digits. -/
theorem isWritable_ten_pow : isWritable (10 ^ digitLimit) = false := by
  have hten : (10 : ℤ).natAbs = 10 := rfl
  rw [Bool.eq_false_iff, Ne, isWritable_iff, Int.natAbs_pow, hten]
  exact lt_irrefl _

theorem toList_writeInt_ne_nil (z : ℤ) : (writeInt z).toList ≠ [] := by
  rcases writeInt_cases z with ⟨n, -, hn⟩ | ⟨n, -, hn⟩
  · rw [hn]
    exact Nat.toDigits_ne_nil
  · rw [hn]
    exact List.cons_ne_nil _ _

/-! ## The reader -/

theorem readSigned?_toDigits (n : ℕ) :
    readSigned? (Nat.toDigits 10 n) = (readNat? (Nat.toDigits 10 n)).map fun m ↦ (m : ℤ) := by
  have hdigit (c : Char) (hc : c ∈ Nat.toDigits 10 n) : c.isDigit = true :=
    Nat.isDigit_of_mem_toDigits (by decide) le_rfl hc
  cases hs : Nat.toDigits 10 n with
  | nil => rfl
  | cons c rest =>
    have hc := hdigit c (hs ▸ List.mem_cons_self)
    rw [readSigned?]
    · rintro rest' heq
      obtain ⟨rfl, -⟩ := List.cons.inj heq
      exact absurd hc (by decide)
    · rintro rest' heq
      obtain ⟨rfl, -⟩ := List.cons.inj heq
      exact absurd hc (by decide)

/-- Only blanks, commas and brackets stand around the numbers of a list. -/
theorem isBlank_of_mem_writeInt (hc : c ∈ (writeInt z).toList) : isBlank c = false := by
  rcases eq_minus_or_isDigit_of_mem_writeInt hc with rfl | hdigit
  · exact isBlank_eq_false (by decide) (by decide)
  · obtain ⟨hle, hlt⟩ := isDigit_iff.mp hdigit
    exact isBlank_eq_false (by omega) (by omega)

theorem trimBy_isPadding_writeInt (z : ℤ) :
    trimBy isPadding (writeInt z).toList = (writeInt z).toList := by
  apply trimBy_eq_self
  intro c hc
  rw [isPadding, isBlank_of_mem_writeInt hc, Bool.false_and]

theorem readInt?_writeInt (h : z.natAbs < 10 ^ digitLimit) :
    readInt? (writeInt z).toList = some z := by
  rw [readInt?, trimBy_isPadding_writeInt]
  rcases writeInt_cases z with ⟨n, rfl, hn⟩ | ⟨n, rfl, hn⟩
  · rw [Int.natAbs_natCast] at h
    rw [hn, readSigned?_toDigits, readNat?_toDigits h]
    rfl
  · rw [Int.natAbs_neg, Int.natAbs_natCast] at h
    rw [hn, readSigned?, readNat?_toDigits h]
    rfl

/-! ## What is read has at most `digitLimit` digits -/

theorem lt_ten_of_mem_literalDigits? {digits : List ℕ} {afterDigit : Bool}
    (h : literalDigits? afterDigit s = some digits) : ∀ d ∈ digits, d < 10 := by
  induction s generalizing afterDigit digits with
  | nil =>
    rw [literalDigits?] at h
    split at h
    · cases h
      exact List.forall_mem_nil _
    · cases h
  | cons c s ih =>
    rw [literalDigits?] at h
    split at h
    · split at h
      · exact ih h
      · cases h
    · split at h
      · rename_i d hd
        obtain ⟨later, hlater, rfl⟩ := Option.map_eq_some_iff.mp h
        exact List.forall_mem_cons.mpr ⟨lt_ten_of_digitValue? hd, ih hlater⟩
      · cases h

theorem ofDigits_append (digits : List ℕ) (d : ℕ) :
    ofDigits (digits ++ [d]) = 10 * ofDigits digits + d := by
  rw [ofDigits, List.foldl_append]
  rfl

theorem ofDigits_lt {digits : List ℕ} (h : ∀ d ∈ digits, d < 10) :
    ofDigits digits < 10 ^ digits.length := by
  induction digits using List.reverseRecOn with
  | nil => exact Nat.one_pos
  | append_singleton digits d ih =>
    have hfirst := ih fun e he ↦ h e (List.mem_append_left _ he)
    have hlast := h d (List.mem_append_right _ (List.mem_singleton_self d))
    rw [ofDigits_append, List.length_append, List.length_singleton, pow_succ]
    omega

theorem lt_of_readNat? (h : readNat? s = some n) : n < 10 ^ digitLimit := by
  rw [readNat?] at h
  split at h
  · rename_i digits hdigits
    split at h
    · rename_i hlength
      cases h
      exact (ofDigits_lt (lt_ten_of_mem_literalDigits? hdigits)).trans_le
        (Nat.pow_le_pow_right (by decide) hlength)
    · cases h
  · cases h

/-- The reader gives no integer that is longer than what it accepts. -/
theorem natAbs_lt_of_readInt? (h : readInt? s = some z) : z.natAbs < 10 ^ digitLimit := by
  rw [readInt?, readSigned?.eq_def] at h
  split at h
  -- A sign does not count as a digit, so the three cases have the same bound.
  all_goals
    obtain ⟨signed, hsigned, rfl⟩ := Option.map_eq_some_iff.mp h
    obtain ⟨n, hn, heq⟩ := Option.bind_eq_some_iff.mp hsigned
    obtain rfl := Option.some.inj heq
    have hlt := lt_of_readNat? hn
    omega

end DegreeGraph.Number
