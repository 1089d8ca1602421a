import Mathlib
import StructuralMatch.Proofs.Number.Fewest
import StructuralMatch.Proofs.Positions

/-! # Shortest digits

    The digits `d₁…dₖ` and the position `n` of the point stand for `0.d₁…dₖ * 10 ^ n`
    (`Number.pointed`).  A positive finite number has one shortest sequence of digits
    (`Number.Shortest`): those that read back as the number, no fewer digits do so, and of as
    many they are the closest ones, upward from half way.  It is the one that the search ends
    at (`Number.shortest_spec`, `Number.Shortest.unique`). -/

namespace StructuralMatch

/-! ## Values of digits -/

namespace Key

variable {cs ds : List Char}

theorem decimalValue_append (cs ds : List Char) :
    decimalValue (cs ++ ds) = decimalValue cs * 10 ^ ds.length + decimalValue ds := by
  induction ds using List.reverseRecOn with
  | nil => simp [decimalValue]
  | append_singleton ds d ih =>
      rw [← List.append_assoc, decimalValue_concat, decimalValue_concat, ih, List.length_append,
        List.length_singleton, Nat.pow_succ]
      ring

theorem decimalValue_replicate_zero (k : Nat) : decimalValue (List.replicate k '0') = 0 := by
  induction k with
  | zero => rfl
  | succ k ih =>
      rw [List.replicate_succ', decimalValue_concat, ih]
      rfl

theorem decimalValue_lt (h : ∀ c ∈ ds, c.isDigit = true) : decimalValue ds < 10 ^ ds.length := by
  induction ds using List.reverseRecOn with
  | nil => exact Nat.one_pos
  | append_singleton ds d ih =>
      have hdigit := (digitChar_of_isDigit (h d (by simp))).1
      have hbefore := ih fun c hc => h c (List.mem_append_left _ hc)
      rw [decimalValue_concat, List.length_append, List.length_singleton, Nat.pow_succ]
      omega

/-- A leading digit other than zero counts. -/
theorem le_decimalValue (h : ∀ c ∈ ds, c.isDigit = true) (hne : ds ≠ [])
    (hhead : ds.head? ≠ some '0') : 10 ^ (ds.length - 1) ≤ decimalValue ds := by
  have hform := toDigits_decimalValue ds
    ((isCanonicalDecimal_iff ds).2 ⟨hne, h, fun hzero => absurd hzero hhead⟩)
  have hpos : 0 < decimalValue ds := by
    refine Nat.pos_of_ne_zero fun hzero => hhead ?_
    rw [← hform, hzero]
    rfl
  have hle := (length_toDigits_bounds hpos).1
  rwa [hform] at hle

/-- A decimal form ends in a zero only if ten divides the number. -/
theorem mod_ten_of_getLast?_toDigits {n : Nat} (h : (Nat.toDigits 10 n).getLast? = some '0') :
    n % 10 = 0 := by
  obtain ⟨cs, hcs⟩ := List.getLast?_eq_some_iff.1 h
  have hvalue := decimalValue_toDigits n
  have hzero : '0'.toNat - '0'.toNat = 0 := rfl
  rw [hcs, decimalValue_concat, hzero] at hvalue
  omega

end Key

namespace Number

variable {x : Number} {ds es : List Char} {n m : Int}

/-- The rational `0.d₁…dₖ * 10 ^ n`. -/
def pointed (ds : List Char) (n : Int) : ℚ := Key.decimalValue ds * 10 ^ (n - ds.length)

theorem pointed_digits (d : Decimal) : pointed d.digits d.point = d.value := by
  have hplaces : d.point - d.digits.length = d.exponent := by
    rw [Decimal.point]
    ring
  rw [pointed, hplaces, Decimal.digits, Key.decimalValue_toDigits, Decimal.value]

/-- The leading digit stands right after the point. -/
theorem pointed_bounds (h : ∀ c ∈ ds, c.isDigit = true) (hne : ds ≠ [])
    (hhead : ds.head? ≠ some '0') : (10 : ℚ) ^ (n - 1) ≤ pointed ds n ∧ pointed ds n < 10 ^ n := by
  have hunit := ten_zpow_pos (n - ds.length)
  constructor
  · have hplaces : n - 1 - ((ds.length - 1 : Nat) : Int) = n - ds.length := by
      have := List.length_pos_of_ne_nil hne
      omega
    rw [ten_zpow_split (n - 1) (ds.length - 1), hplaces]
    exact mul_le_mul_of_nonneg_right (Nat.cast_le.2 (Key.le_decimalValue h hne hhead)) hunit.le
  · rw [ten_zpow_split n ds.length]
    exact mul_lt_mul_of_pos_right (Nat.cast_lt.2 (Key.decimalValue_lt h)) hunit

/-! ## The shortest digits -/

/-- The shortest digits of a positive number, with the position of the point before them. -/
structure Shortest (x : Number) (ds : List Char) (n : Int) : Prop where
  digits : ∀ c ∈ ds, c.isDigit = true
  nonempty : ds ≠ []
  leading : ds.head? ≠ some '0'
  trailing : ds.getLast? ≠ some '0'
  reads : Reads (pointed ds n) x
  fewest : ∀ (es : List Char) (m : Int), (∀ c ∈ es, c.isDigit = true) → Reads (pointed es m) x →
    ds.length ≤ es.length
  preferred : ∀ (es : List Char) (m : Int), (∀ c ∈ es, c.isDigit = true) →
    es.length = ds.length → Reads (pointed es m) x →
      Preferred x.value (pointed ds n) (pointed es m)

/-- The search ends at the shortest digits. -/
theorem shortest_spec (hfinite : x.IsFinite) (hpos : 0 < x.magnitudeBits)
    (hsign : x.negative = false) : Shortest x x.shortest.digits x.shortest.point := by
  have hvalue := value_of_nonneg hsign
  have hmod := coefficient_shortest_mod hpos
  have hreads (q : ℚ) : Reads q x ↔ Owns x.magnitudeBits q := reads_iff_owns hfinite hpos hsign
  refine ⟨?_, Nat.toDigits_ne_nil, ?_, ?_, ?_, ?_, ?_⟩
  · intro c hc
    exact Nat.isDigit_of_mem_toDigits (by decide) (by decide) hc
  · intro hzero
    rw [Key.eq_zero_of_head?_toDigits _ hzero] at hmod
    exact hmod rfl
  · intro hzero
    exact hmod (Key.mod_ten_of_getLast?_toDigits hzero)
  · rw [hreads, pointed_digits]
    exact owns_shortest hpos
  · intro es m hdigits hread
    rw [hreads] at hread
    have hnonempty : 0 < es.length := by
      refine List.length_pos_of_ne_nil ?_
      rintro rfl
      have hzero : pointed [] m = 0 := by simp [pointed, Key.decimalValue]
      rw [hzero] at hread
      exact lt_irrefl 0 hread.pos
    exact (Nat.length_toDigits_le_iff (by decide) hnonempty).2
      (coefficient_shortest_lt hpos hread (Key.decimalValue_lt hdigits))
  · intro es m hdigits hlength hread
    rw [hreads] at hread
    rw [hvalue, pointed_digits]
    exact preferred_shortest hpos hread (hlength ▸ Key.decimalValue_lt hdigits)

theorem Preferred.antisymm {v q r : ℚ} (h : Preferred v q r) (h' : Preferred v r q) : q = r := by
  rcases h with hlt | ⟨heq, hrq⟩
  · rcases h' with hlt' | ⟨heq', -⟩
    · exact absurd hlt hlt'.not_gt
    · exact absurd heq' hlt.ne'
  · rcases h' with hlt' | ⟨-, hqr⟩
    · exact absurd heq hlt'.ne'
    · exact le_antisymm hqr hrq

/-- A number has one shortest sequence of digits. -/
theorem Shortest.unique (h : Shortest x ds n) (h' : Shortest x es m) : es = ds ∧ m = n := by
  have hlength : es.length = ds.length :=
    le_antisymm (h'.fewest ds n h.digits h.reads) (h.fewest es m h'.digits h'.reads)
  have hvalue : pointed es m = pointed ds n :=
    (h'.preferred ds n h.digits hlength.symm h.reads).antisymm
      (h.preferred es m h'.digits hlength h'.reads)
  obtain ⟨hlow, hhigh⟩ := pointed_bounds (n := n) h.digits h.nonempty h.leading
  obtain ⟨hlow', hhigh'⟩ := pointed_bounds (n := m) h'.digits h'.nonempty h'.leading
  -- the leading digits are in the same place
  have hpoint : m = n := by
    rw [hvalue] at hlow' hhigh'
    have hmn := (zpow_lt_zpow_iff_right₀ (by norm_num)).1 (hlow'.trans_lt hhigh)
    have hnm := (zpow_lt_zpow_iff_right₀ (by norm_num)).1 (hlow.trans_lt hhigh')
    omega
  have hcanonical : Key.isCanonicalDecimal ds = true :=
    (Key.isCanonicalDecimal_iff ds).2 ⟨h.nonempty, h.digits, fun hzero => absurd hzero h.leading⟩
  have hcanonical' : Key.isCanonicalDecimal es = true :=
    (Key.isCanonicalDecimal_iff es).2 ⟨h'.nonempty, h'.digits, fun hzero => absurd hzero h'.leading⟩
  rw [pointed, pointed, hpoint, hlength] at hvalue
  have hcoefficient : Key.decimalValue es = Key.decimalValue ds :=
    Nat.cast_injective (mul_right_cancel₀ (ten_zpow_pos _).ne' hvalue)
  rw [← Key.toDigits_decimalValue es hcanonical', hcoefficient,
    Key.toDigits_decimalValue ds hcanonical]
  exact ⟨rfl, hpoint⟩

end Number

end StructuralMatch
