import Mathlib
import StructuralMatch.Number.Shortest
import StructuralMatch.Proofs.Number.Ladder

/-! # The search for the fewest digits

    The search compares natural numbers that stand for rationals: its interval is what belongs
    to the number's rung (`Number.contains_interval_iff`), and its first grid is the one of the
    leading digit (`Number.magnitude_interval`).

    A grid without a hit has no point that belongs to the rung, and a hit is the closest one on
    its grid (`Number.onGrid?_eq_none`, `Number.onGrid?_eq_some`).  The seventeenth grid always
    has one, so the search never falls through (`Number.shortest_spec`), and whatever belongs to
    the rung with few digits shows on an early grid (`Number.exists_onGrid`). -/

namespace StructuralMatch

/-! ## Fractions of natural numbers -/

section Fractions

variable {a c den : Nat} {p : Int}

theorem ten_zpow_pos (p : Int) : (0 : ℚ) < 10 ^ p := zpow_pos (by norm_num) p

theorem ten_zpow_split (p : Int) (k : Nat) :
    (10 : ℚ) ^ p = ((10 ^ k : Nat) : ℚ) * 10 ^ (p - (k : Nat)) := by
  rw [Nat.cast_pow, Nat.cast_ofNat, ← zpow_natCast, ← zpow_add₀ (by norm_num)]
  congr 1
  ring

theorem decimal_mono {m n : Nat} (h : m ≤ n) (p : Int) : (m * 10 ^ p : ℚ) ≤ n * 10 ^ p :=
  mul_le_mul_of_nonneg_right (Nat.cast_le.2 h) (ten_zpow_pos p).le

/-- A power with an integer exponent as a fraction of natural powers. -/
theorem zpow_eq_div (base : Nat) (p : Int) :
    (base : ℚ) ^ p = ((base ^ p.toNat : Nat) : ℚ) / ((base ^ (-p).toNat : Nat) : ℚ) := by
  rcases Int.le_total 0 p with h | h
  · lift p to Nat using h
    simp
  · obtain ⟨k, rfl⟩ : ∃ k : Nat, p = -(k : Int) := ⟨(-p).toNat, by omega⟩
    simp

/-- A fraction and a decimal over one denominator. -/
theorem exists_common_denominator (a c : Nat) (p : Int) (hden : 0 < den) :
    ∃ w : ℚ, 0 < w ∧ (a / den : ℚ) * w = ((a * 10 ^ (-p).toNat : Nat) : ℚ) ∧
      ((c : ℚ) * 10 ^ p) * w = ((c * 10 ^ p.toNat * den : Nat) : ℚ) := by
  have hden' : (0 : ℚ) < den := Nat.cast_pos.2 hden
  have hunit : (0 : ℚ) < ((10 ^ (-p).toNat : Nat) : ℚ) := Nat.cast_pos.2 (Nat.pow_pos (by decide))
  have hpower := zpow_eq_div 10 p
  rw [Nat.cast_ofNat] at hpower
  refine ⟨((10 ^ (-p).toNat : Nat) : ℚ) * den, mul_pos hunit hden', ?_, ?_⟩
  · rw [Nat.cast_mul]
    field_simp
  · rw [hpower, Nat.cast_mul, Nat.cast_mul]
    field_simp

/-- A fraction is at most a decimal. -/
theorem le_decimal_iff (hden : 0 < den) :
    a * 10 ^ (-p).toNat ≤ c * 10 ^ p.toNat * den ↔ (a / den : ℚ) ≤ c * 10 ^ p := by
  obtain ⟨w, hw, ha, hc⟩ := exists_common_denominator a c p hden
  rw [← mul_le_mul_iff_left₀ hw, ha, hc, Nat.cast_le]

/-- A decimal is at most a fraction. -/
theorem decimal_le_iff (hden : 0 < den) :
    c * 10 ^ p.toNat * den ≤ a * 10 ^ (-p).toNat ↔ (c * 10 ^ p : ℚ) ≤ a / den := by
  obtain ⟨w, hw, ha, hc⟩ := exists_common_denominator a c p hden
  rw [← mul_le_mul_iff_left₀ hw, ha, hc, Nat.cast_le]

theorem lt_decimal_iff (hden : 0 < den) :
    a * 10 ^ (-p).toNat < c * 10 ^ p.toNat * den ↔ (a / den : ℚ) < c * 10 ^ p := by
  rw [← not_le, decimal_le_iff hden, not_le]

theorem decimal_lt_iff (hden : 0 < den) :
    c * 10 ^ p.toNat * den < a * 10 ^ (-p).toNat ↔ (c * 10 ^ p : ℚ) < a / den := by
  rw [← not_le, le_decimal_iff hden, not_le]

end Fractions

/-- How many digits a number has. -/
theorem length_toDigits_bounds {n : Nat} (hn : 0 < n) :
    10 ^ ((Nat.toDigits 10 n).length - 1) ≤ n ∧ n < 10 ^ (Nat.toDigits 10 n).length := by
  have hlength := Nat.length_toDigits_pos (b := 10) (n := n)
  refine ⟨?_, (Nat.length_toDigits_le_iff (by decide) hlength).1 le_rfl⟩
  by_cases hone : (Nat.toDigits 10 n).length = 1
  · rw [hone]
    exact hn
  · refine Nat.le_of_not_lt fun h => ?_
    have := (Nat.length_toDigits_le_iff (b := 10) (by decide) (by omega)).2 h
    omega

/-! ## Grids -/

namespace Number

variable {x : Number} {i : Interval} {c : Nat} {p : Int}

/-- The floor is the last point of the grid that is not above the value. -/
theorem Interval.le_floorAt_iff (hden : 0 < i.den) :
    c ≤ i.floorAt p ↔ (c * 10 ^ p : ℚ) ≤ i.value / i.den := by
  have hunit : 0 < i.den * 10 ^ p.toNat := Nat.mul_pos hden (Nat.pow_pos (by decide))
  rw [← decimal_le_iff hden]
  refine (Nat.le_div_iff_mul_le hunit).trans ?_
  rw [Nat.mul_comm i.den, ← Nat.mul_assoc]
  exact Iff.rfl

/-- The value lies between its two neighbours on a grid. -/
theorem Interval.floorAt_bounds (hden : 0 < i.den) (p : Int) :
    (i.floorAt p * 10 ^ p : ℚ) ≤ i.value / i.den ∧
      (i.value / i.den : ℚ) < ((i.floorAt p + 1 : Nat) : ℚ) * 10 ^ p :=
  ⟨(le_floorAt_iff hden).1 le_rfl,
    not_le.1 fun h => absurd ((le_floorAt_iff hden).2 h) (Nat.not_succ_le_self _)⟩

/-- The comparison without fractions tells which neighbour is nearer. -/
theorem Interval.nearerToFloor_iff (hden : 0 < i.den) :
    i.nearerToFloor c p = true ↔
      (i.value / i.den : ℚ) - c * 10 ^ p < ((c + 1 : Nat) : ℚ) * 10 ^ p - i.value / i.den := by
  obtain ⟨w, hw, hvalue, hunit⟩ := exists_common_denominator i.value 1 p hden
  have hcross : i.nearerToFloor c p = true ↔
      2 * (i.value * 10 ^ (-p).toNat) < (2 * c + 1) * (1 * 10 ^ p.toNat * i.den) := by
    rw [nearerToFloor, decide_eq_true_iff, Nat.one_mul, Nat.mul_comm (10 ^ p.toNat)]
    exact Iff.rfl
  have hcast : ((2 * (i.value * 10 ^ (-p).toNat) : Nat) : ℚ)
      < ((2 * c + 1) * (1 * 10 ^ p.toNat * i.den) : Nat) ↔ _ := Nat.cast_lt
  rw [hcross, ← hcast, Nat.cast_mul 2, Nat.cast_mul (2 * c + 1), ← hvalue, ← hunit]
  calc (2 : Nat) * (i.value / i.den * w : ℚ) < (2 * c + 1 : Nat) * ((1 : Nat) * 10 ^ p * w)
      ↔ (2 * (i.value / i.den) * w : ℚ) < (2 * c + 1) * 10 ^ p * w := by
        push_cast
        rw [one_mul, mul_assoc 2, mul_assoc (2 * (c : ℚ) + 1)]
    _ ↔ (2 * (i.value / i.den) : ℚ) < (2 * c + 1) * 10 ^ p := mul_lt_mul_iff_left₀ hw
    _ ↔ _ := by
        push_cast
        constructor <;> intro h <;> linarith

/-- The first grid is that of the leading digit. -/
theorem Interval.magnitude_spec (hden : 0 < i.den) (hleast : (1 : ℚ) / 10 ^ 399 ≤ i.value / i.den) :
    (10 : ℚ) ^ i.magnitude ≤ i.value / i.den ∧ (i.value / i.den : ℚ) < 10 ^ (i.magnitude + 1) := by
  have hden' : (0 : ℚ) < i.den := Nat.cast_pos.2 hden
  rw [magnitude]
  split
  case isTrue hge =>
    -- as many digits as the integer part has
    have hlength := Nat.length_toDigits_pos (b := 10) (n := i.value / i.den)
    obtain ⟨hle, hlt⟩ := length_toDigits_bounds (Nat.div_pos hge hden)
    generalize (Nat.toDigits 10 (i.value / i.den)).length = k at *
    obtain ⟨k, rfl⟩ : ∃ m, k = m + 1 := ⟨k - 1, by omega⟩
    have hexponent : ((k + 1 : Nat) : Int) - 1 = (k : Int) := by push_cast; ring
    rw [hexponent]
    constructor
    · rw [zpow_natCast, le_div_iff₀ hden']
      exact_mod_cast (Nat.le_div_iff_mul_le hden).1 hle
    · rw [← Nat.cast_succ, zpow_natCast, div_lt_iff₀ hden']
      exact_mod_cast (Nat.div_lt_iff_lt_mul hden).1 hlt
  case isFalse hlt =>
    have hreaches (e : Nat) :
        i.den ≤ i.value * 10 ^ e ↔ (10 : ℚ) ^ (-(e : Int)) ≤ i.value / i.den := by
      rw [le_div_iff₀ hden', zpow_neg, zpow_natCast, inv_mul_le_iff₀ (by positivity), mul_comm]
      exact_mod_cast Iff.rfl
    -- a power below the value is found
    obtain ⟨e, hfind⟩ : ∃ e, (List.range 400).find? (fun e => decide (i.den ≤ i.value * 10 ^ e))
        = some e := by
      refine Option.isSome_iff_exists.1 (List.find?_isSome.2 ⟨399, by simp, ?_⟩)
      rw [decide_eq_true_iff, hreaches, zpow_neg, ← one_div]
      exact_mod_cast hleast
    obtain ⟨hfirst, -, hbefore⟩ := List.find?_range_eq_some.1 hfind
    have hmagnitude : Int.neg
        (((List.range 400).find? fun e => decide (i.den ≤ i.value * Nat.pow 10 e)).getD 400 : Nat)
        = -(e : Int) := by
      have : (List.range 400).find? (fun e => decide (i.den ≤ i.value * Nat.pow 10 e)) = some e :=
        hfind
      rw [this]
      rfl
    have hpos : e ≠ 0 := by
      rintro rfl
      exact hlt (by simpa using hfirst)
    rw [hmagnitude]
    refine ⟨(hreaches e).1 (of_decide_eq_true hfirst), ?_⟩
    -- one power less was not below the value
    have hprevious := hbefore (e - 1) (by omega)
    rw [Bool.not_eq_true', decide_eq_false_iff_not, hreaches, not_le] at hprevious
    have hexponent : -((e - 1 : Nat) : Int) = -(e : Int) + 1 := by omega
    rwa [hexponent] at hprevious

/-! ## The interval of a number -/

theorem interval_den_pos (x : Number) : 0 < x.interval.den := Nat.pow_pos (by decide)

/-- The unit of the interval is a quarter of one in the last place. -/
theorem quarters_eq (x : Number) (k : Nat) :
    ((k * 2 ^ (x.scale - 2).toNat : Nat) : ℚ) / x.interval.den = k / 4 * 2 ^ x.scale := by
  have hquarter : (2 : ℚ) ^ x.scale = 4 * 2 ^ (x.scale - 2) := by
    have h4 : (4 : ℚ) = 2 ^ (2 : Int) := by norm_num
    rw [h4, ← zpow_add₀ (by norm_num)]
    congr 1
    ring
  have hpower := zpow_eq_div 2 (x.scale - 2)
  rw [Nat.cast_ofNat, neg_sub] at hpower
  have hden : x.interval.den = 2 ^ (2 - x.scale).toNat := rfl
  rw [hquarter, hpower, hden, Nat.cast_mul]
  ring

/-- The value of the interval is the number's rung. -/
theorem interval_value (x : Number) :
    (x.interval.value : ℚ) / x.interval.den = rung x.magnitudeBits := by
  have hvalue : x.interval.value = 4 * x.mantissa * 2 ^ (x.scale - 2).toNat := rfl
  rw [hvalue, quarters_eq, ← magnitude_eq_rung, magnitude]
  push_cast
  ring

/-- It ends half way to the rung above. -/
theorem interval_high (x : Number) :
    (x.interval.high : ℚ) / x.interval.den = halfway x.magnitudeBits := by
  have hscale : scaleAt x.magnitudeBits = x.scale := rfl
  have hhigh : x.interval.high = (4 * x.mantissa + 2) * 2 ^ (x.scale - 2).toNat := rfl
  rw [hhigh, quarters_eq, halfway_eq_add, ← magnitude_eq_rung, magnitude, hscale]
  push_cast
  ring

/-- It starts half way to the rung below. -/
theorem interval_low (hb : 0 < x.magnitudeBits) :
    (x.interval.low : ℚ) / x.interval.den = halfway (x.magnitudeBits - 1) := by
  have hmantissa : x.mantissa = mantissaAt x.magnitudeBits := rfl
  have hscale : scaleAt x.magnitudeBits = x.scale := rfl
  -- there is room for the subtraction
  have hpos : 1 ≤ x.mantissa := by
    rw [hmantissa, mantissaAt]
    split <;> omega
  have hlow : x.interval.low = (4 * x.mantissa -
      if x.magnitudeBits % 2 ^ 52 = 0 ∧ 1 < x.magnitudeBits / 2 ^ 52 then 1 else 2)
        * 2 ^ (x.scale - 2).toNat := rfl
  rw [hlow, quarters_eq, halfway_pred hb, unit_pred hb, ← magnitude_eq_rung, magnitude, hscale]
  split
  · rw [Nat.cast_sub (by omega)]
    push_cast
    ring
  · rw [Nat.cast_sub (by omega)]
    push_cast
    ring

/-- A decimal lies in the interval when it belongs to the number's rung. -/
theorem contains_interval_iff (hb : 0 < x.magnitudeBits) :
    x.interval.contains c p = true ↔ Owns x.magnitudeBits (c * 10 ^ p) := by
  have hden := x.interval_den_pos
  have hclosed : x.interval.closed = (x.magnitudeBits % 2 == 0) := by
    rw [← mantissa_mod_two]
    rfl
  rw [Interval.contains, hclosed]
  by_cases heven : x.magnitudeBits % 2 = 0
  · rw [owns_iff_of_even heven, ← interval_low hb, ← interval_high, if_pos (beq_iff_eq.2 heven),
      Bool.and_eq_true, decide_eq_true_iff, decide_eq_true_iff]
    exact and_congr (le_decimal_iff hden) (decimal_le_iff hden)
  · rw [owns_iff_of_odd heven, ← interval_low hb, ← interval_high,
      if_neg fun h => heven (beq_iff_eq.1 h), Bool.and_eq_true, decide_eq_true_iff,
      decide_eq_true_iff]
    exact and_congr (lt_decimal_iff hden) (decimal_lt_iff hden)

/-- The decimal exponent of a number's leading digit. -/
theorem magnitude_interval (hb : 0 < x.magnitudeBits) :
    (10 : ℚ) ^ x.interval.magnitude ≤ rung x.magnitudeBits ∧
      rung x.magnitudeBits < 10 ^ (x.interval.magnitude + 1) := by
  have hspec := Interval.magnitude_spec x.interval_den_pos (interval_value x ▸ le_rung hb)
  rwa [interval_value] at hspec

/-! ## Hits -/

/-- Closer to `v`, or equally close and not below. -/
def Preferred (v q r : ℚ) : Prop := |v - q| < |v - r| ∨ |v - q| = |v - r| ∧ r ≤ q

section Preferred

variable {v q r : ℚ}

/-- As close as a point further down. -/
theorem Preferred.of_le (h : |v - q| ≤ v - r) (hrq : r ≤ q) : Preferred v q r := by
  rcases (h.trans (le_abs_self _)).lt_or_eq with hlt | heq
  · exact .inl hlt
  · exact .inr ⟨heq, hrq⟩

/-- Closer than a point further up. -/
theorem Preferred.of_lt (h : |v - q| < r - v) : Preferred v q r := by
  refine .inl (h.trans_le ?_)
  rw [abs_sub_comm]
  exact le_abs_self _

/-- Between the value and the other point. -/
theorem Preferred.of_between (hvq : v ≤ q) (hqr : q ≤ r) : Preferred v q r := by
  rcases hqr.lt_or_eq with hlt | rfl
  · refine .of_lt ?_
    rw [abs_sub_comm, abs_of_nonneg (sub_nonneg.2 hvq)]
    linarith
  · exact .inr ⟨rfl, le_rfl⟩

end Preferred

/-- If a point of a grid belongs to the rung, so does the neighbour of the value on its side. -/
theorem owns_neighbour (hb : 0 < x.magnitudeBits) (h : Owns x.magnitudeBits (c * 10 ^ p)) :
    c ≤ x.interval.floorAt p ∧ Owns x.magnitudeBits (x.interval.floorAt p * 10 ^ p) ∨
      x.interval.floorAt p + 1 ≤ c ∧
        Owns x.magnitudeBits ((x.interval.floorAt p + 1 : Nat) * 10 ^ p) := by
  obtain ⟨hfloor, hnext⟩ := Interval.floorAt_bounds x.interval_den_pos p
  rw [interval_value] at hfloor hnext
  rcases Nat.lt_or_ge (x.interval.floorAt p) c with hlt | hle
  · exact .inr ⟨hlt, (owns_rung hb).between h hnext.le (decimal_mono hlt p)⟩
  · exact .inl ⟨hle, h.between (owns_rung hb) (decimal_mono hle p) hfloor⟩

/-- Without a hit, nothing of the grid belongs to the rung. -/
theorem onGrid?_eq_none (hb : 0 < x.magnitudeBits) (h : x.interval.onGrid? p = none) (c : Nat) :
    ¬ Owns x.magnitudeBits (c * 10 ^ p) := by
  intro howns
  rw [Interval.onGrid?] at h
  split at h <;> try contradiction
  rename_i hfloor hnext
  rcases owns_neighbour hb howns with ⟨-, hhit⟩ | ⟨-, hhit⟩
  · rw [(contains_interval_iff hb).2 hhit] at hfloor
    contradiction
  · rw [(contains_interval_iff hb).2 hhit] at hnext
    contradiction

/-- A hit belongs to the rung and is preferred to all others of its grid. -/
theorem onGrid?_eq_some {d : Decimal} (hb : 0 < x.magnitudeBits)
    (h : x.interval.onGrid? p = some d) :
    d.exponent = p ∧ d.coefficient ≤ x.interval.floorAt p + 1 ∧
      Owns x.magnitudeBits (d.coefficient * 10 ^ p) ∧
      ∀ c : Nat, Owns x.magnitudeBits (c * 10 ^ p) →
        Preferred (rung x.magnitudeBits) (d.coefficient * 10 ^ p) (c * 10 ^ p) := by
  have hden := x.interval_den_pos
  obtain ⟨hfloor, hnext⟩ := Interval.floorAt_bounds hden p
  rw [interval_value] at hfloor hnext
  have hnearer := Interval.nearerToFloor_iff (c := x.interval.floorAt p) (p := p) hden
  rw [interval_value] at hnearer
  have hside (c : Nat) := owns_neighbour (c := c) (p := p) hb
  rw [Interval.onGrid?] at h
  simp only [← contains_interval_iff hb] at hside ⊢
  generalize x.interval.floorAt p = f at *
  generalize rung x.magnitudeBits = v at *
  have habove : |v - f * 10 ^ p| = v - f * 10 ^ p := abs_of_nonneg (sub_nonneg.2 hfloor)
  have hbelow : |v - (f + 1 : Nat) * 10 ^ p| = (f + 1 : Nat) * 10 ^ p - v := by
    rw [abs_sub_comm, abs_of_nonneg (sub_nonneg.2 hnext.le)]
  -- the neighbour below is preferred to what is further below, and so for the one above
  have hdown {c : Nat} (hcf : c ≤ f) : Preferred v (f * 10 ^ p) (c * 10 ^ p) := by
    refine .of_le ?_ (decimal_mono hcf p)
    rw [habove]
    exact sub_le_sub_left (decimal_mono hcf p) v
  have hup {c : Nat} (hfc : f + 1 ≤ c) : Preferred v ((f + 1 : Nat) * 10 ^ p) (c * 10 ^ p) :=
    .of_between hnext.le (decimal_mono hfc p)
  split at h
  case h_1 hfloorIn hnextIn =>
    -- both neighbours belong to the rung, and the nearer one is taken
    split at h <;> obtain rfl := Option.some.inj h
    case isTrue hnear =>
      refine ⟨rfl, Nat.le_succ f, hfloorIn, fun c hc => ?_⟩
      rcases hside c hc with ⟨hcf, -⟩ | ⟨hfc, -⟩
      · exact hdown hcf
      · refine .of_lt ?_
        rw [habove]
        exact (hnearer.1 hnear).trans_le (sub_le_sub_right (decimal_mono hfc p) v)
    case isFalse hfar =>
      refine ⟨rfl, le_rfl, hnextIn, fun c hc => ?_⟩
      rcases hside c hc with ⟨hcf, -⟩ | ⟨hfc, -⟩
      · refine .of_le ?_ (decimal_mono (hcf.trans (Nat.le_succ f)) p)
        rw [hbelow]
        exact (not_lt.1 fun h => hfar (hnearer.2 h)).trans (sub_le_sub_left (decimal_mono hcf p) v)
      · exact hup hfc
  case h_2 hfloorIn hnextOut =>
    -- only the neighbour below belongs to it
    obtain rfl := Option.some.inj h
    refine ⟨rfl, Nat.le_succ f, hfloorIn, fun c hc => ?_⟩
    rcases hside c hc with ⟨hcf, -⟩ | ⟨-, hnextIn⟩
    · exact hdown hcf
    · rw [hnextIn] at hnextOut
      contradiction
  case h_3 hfloorOut hnextIn =>
    -- only the neighbour above belongs to it
    obtain rfl := Option.some.inj h
    refine ⟨rfl, le_rfl, hnextIn, fun c hc => ?_⟩
    rcases hside c hc with ⟨-, hfloorIn⟩ | ⟨hfc, -⟩
    · rw [hfloorIn] at hfloorOut
      contradiction
    · exact hup hfc
  case h_4 => contradiction

end Number

end StructuralMatch
