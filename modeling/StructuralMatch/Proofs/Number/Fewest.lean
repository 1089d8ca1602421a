import Mathlib
import StructuralMatch.Proofs.Number.Search

/-! # The fewest digits

    The seventeenth grid is finer than the interval of a number is wide
    (`Number.exists_on_seventeenth`), so the search ends at a hit (`Number.exists_first_hit`).
    Whatever belongs to the rung with few digits has a point of an early grid beside it that
    does so as well (`Number.exists_onGrid`).

    So the shortest decimal belongs to the rung, nothing with fewer digits does, and it is
    preferred to everything with as many (`Number.owns_shortest`, `Number.shortest_lt`,
    `Number.preferred_shortest`). -/

namespace StructuralMatch

/-! ## Trailing zeros -/

namespace Decimal

/-- The rational that a decimal stands for. -/
def value (d : Decimal) : ℚ := d.coefficient * 10 ^ d.exponent

theorem value_stripZeros (fuel : Nat) (d : Decimal) : (d.stripZeros fuel).value = d.value := by
  induction fuel generalizing d with
  | zero => rfl
  | succ fuel ih =>
      rw [stripZeros]
      split
      case isTrue h =>
        have hcoefficient : d.coefficient = d.coefficient / 10 * 10 := by omega
        rw [ih, value, value, zpow_add_one₀ (by norm_num)]
        conv_rhs => rw [hcoefficient]
        push_cast
        ring
      case isFalse => rfl

theorem coefficient_stripZeros_le (fuel : Nat) (d : Decimal) :
    (d.stripZeros fuel).coefficient ≤ d.coefficient := by
  induction fuel generalizing d with
  | zero => exact le_rfl
  | succ fuel ih =>
      rw [stripZeros]
      split
      · exact (ih _).trans (Nat.div_le_self _ _)
      · exact le_rfl

/-- With enough fuel no trailing zero is left. -/
theorem coefficient_stripZeros_mod (fuel : Nat) (d : Decimal) (hpos : 0 < d.coefficient)
    (hlt : d.coefficient < 10 ^ (fuel + 1)) : (d.stripZeros fuel).coefficient % 10 ≠ 0 := by
  induction fuel generalizing d with
  | zero =>
      rw [stripZeros]
      omega
  | succ fuel ih =>
      rw [stripZeros]
      split
      · rw [Nat.pow_succ] at hlt
        exact ih _ (by dsimp only; omega) (Nat.div_lt_of_lt_mul (by rwa [Nat.mul_comm]))
      · omega

end Decimal

/-! ## The first hit -/

theorem findSome?_range_eq_some {α : Type} {f : Nat → Option α} {n : Nat} {a : α}
    (h : (List.range n).findSome? f = some a) :
    ∃ k < n, f k = some a ∧ ∀ j < k, f j = none := by
  induction n with
  | zero => contradiction
  | succ n ih =>
      rw [List.range_succ, List.findSome?_append] at h
      cases hn : (List.range n).findSome? f with
      | some b =>
          rw [hn, Option.some_or] at h
          obtain ⟨k, hk, hhit, hbefore⟩ := ih (hn.trans h)
          exact ⟨k, Nat.lt_succ_of_lt hk, hhit, hbefore⟩
      | none =>
          rw [hn, Option.none_or, List.findSome?_singleton] at h
          refine ⟨n, Nat.lt_succ_self n, h, fun j hj => ?_⟩
          exact List.findSome?_eq_none_iff.1 hn j (List.mem_range.2 hj)

namespace Number

variable {x : Number} {c : Nat} {e : Int}

/-- Sixteen places after the leading digit the grid is finer than the interval is wide. -/
theorem grid_lt_width (hb : 0 < x.magnitudeBits) :
    (10 : ℚ) ^ (x.interval.magnitude - 16) <
      halfway x.magnitudeBits - halfway (x.magnitudeBits - 1) := by
  have hleading := (magnitude_interval hb).1
  have hunit := two_zpow_pos (scaleAt x.magnitudeBits)
  rw [halfway_eq_add, halfway_pred hb, unit_pred hb]
  rw [ten_zpow_split _ 16, Nat.cast_ofNat, rung] at hleading
  generalize (10 : ℚ) ^ (x.interval.magnitude - 16) = grid at *
  generalize x.magnitudeBits = b at *
  generalize (2 : ℚ) ^ scaleAt b = unit at *
  split
  case isTrue hpower =>
    -- the interval is narrow below a power of two, but its mantissa is small
    have hmantissa : mantissaAt b = 2 ^ 52 := by
      rw [mantissaAt, if_neg (by omega), hpower.1, Nat.add_zero]
    rw [hmantissa] at hleading
    push_cast at hleading
    linarith
  case isFalse =>
    have hmantissa : mantissaAt b < 2 ^ 53 := by
      rw [mantissaAt]
      split <;> omega
    have hscaled : (mantissaAt b : ℚ) * unit ≤ 2 ^ 53 * unit :=
      mul_le_mul_of_nonneg_right (by exact_mod_cast hmantissa.le) hunit.le
    push_cast at hleading
    linarith

/-- Seventeen digits suffice. -/
theorem exists_on_seventeenth (hb : 0 < x.magnitudeBits) :
    x.interval.onGrid? (x.interval.magnitude - 16) ≠ none := by
  intro hnone
  have hwidth := grid_lt_width hb
  obtain ⟨hfloor, hnext⟩ :=
    Interval.floorAt_bounds x.interval_den_pos (x.interval.magnitude - 16)
  rw [interval_value] at hfloor hnext
  have hmiss := onGrid?_eq_none hb hnone
  have hmissFloor := hmiss (x.interval.floorAt (x.interval.magnitude - 16))
  have hmissNext := hmiss (x.interval.floorAt (x.interval.magnitude - 16) + 1)
  -- the neighbours would both be outside, with the whole interval between them
  have hlow : (x.interval.floorAt (x.interval.magnitude - 16) : ℚ)
      * 10 ^ (x.interval.magnitude - 16) ≤ halfway (x.magnitudeBits - 1) := by
    by_contra hlow
    exact hmissFloor ⟨.inl (not_le.1 hlow), .inl (hfloor.trans_lt (rung_lt_halfway _))⟩
  have hhigh : halfway x.magnitudeBits ≤
      ((x.interval.floorAt (x.interval.magnitude - 16) + 1 : Nat) : ℚ)
        * 10 ^ (x.interval.magnitude - 16) := by
    by_contra hhigh
    exact hmissNext ⟨.inl ((owns_rung hb).halfway_le.1.trans_lt hnext), .inl (not_le.1 hhigh)⟩
  push_cast at hhigh
  linarith

/-- The search ends at its first hit. -/
theorem exists_first_hit (hb : 0 < x.magnitudeBits) :
    ∃ k < 17, ∃ d : Decimal, x.interval.onGrid? (x.interval.magnitude - (k : Nat)) = some d ∧
      (∀ j < k, x.interval.onGrid? (x.interval.magnitude - (j : Nat)) = none) ∧
      x.shortest = d.stripZeros 17 := by
  cases hfound : (List.range 17).findSome? fun k =>
      x.interval.onGrid? (x.interval.magnitude - (k : Nat)) with
  | none =>
      have hmiss := List.findSome?_eq_none_iff.1 hfound 16 (by simp)
      exact absurd hmiss (exists_on_seventeenth hb)
  | some d =>
      obtain ⟨k, hk, hhit, hbefore⟩ := findSome?_range_eq_some hfound
      refine ⟨k, hk, d, hhit, hbefore, ?_⟩
      rw [shortest, hfound, Option.getD_some]

/-- Beside what belongs to the rung with `j + 1` digits there is a point of grid `j` that does
    so too, and that is as close to the value at least. -/
theorem exists_onGrid {j : Nat} (hb : 0 < x.magnitudeBits)
    (h : Owns x.magnitudeBits (c * 10 ^ e)) (hc : c < 10 ^ (j + 1)) :
    ∃ g : Nat, Owns x.magnitudeBits (g * 10 ^ (x.interval.magnitude - (j : Nat))) ∧
      ((g : ℚ) * 10 ^ (x.interval.magnitude - (j : Nat)) = c * 10 ^ e ∨
        (c : ℚ) * 10 ^ e < g * 10 ^ (x.interval.magnitude - (j : Nat)) ∧
          (g : ℚ) * 10 ^ (x.interval.magnitude - (j : Nat)) ≤ rung x.magnitudeBits) := by
  have hleading := (magnitude_interval hb).1
  generalize x.interval.magnitude = top at *
  rcases lt_or_ge ((c : ℚ) * 10 ^ e) (10 ^ top) with hlt | hge
  · -- fewer digits before the point than the number: the leading power is in between
    rw [ten_zpow_split top j] at hlt hleading
    exact ⟨10 ^ j, h.between (owns_rung hb) hlt.le hleading, .inr ⟨hlt, hleading⟩⟩
  · -- the last digit is not behind the grid
    have hbehind : top - (j : Int) ≤ e := by
      have hbound : (10 : ℚ) ^ top < 10 ^ ((j + 1 : Nat) + e) := by
        rw [zpow_add₀ (by norm_num), zpow_natCast]
        refine hge.trans_lt (mul_lt_mul_of_pos_right ?_ (ten_zpow_pos e))
        exact_mod_cast hc
      have := (zpow_lt_zpow_iff_right₀ (by norm_num)).1 hbound
      push_cast at this
      omega
    have hmove : ((c * 10 ^ (e - (top - (j : Int))).toNat : Nat) : ℚ) * 10 ^ (top - (j : Nat)) =
        c * 10 ^ e := by
      push_cast
      rw [mul_assoc, ← zpow_natCast, ← zpow_add₀ (by norm_num)]
      congr 2
      omega
    refine ⟨c * 10 ^ (e - (top - (j : Int))).toNat, ?_, .inl hmove⟩
    rwa [hmove]

/-! ## The shortest decimal -/

/-- The neighbour below has no more digits than the grid has places. -/
theorem floorAt_lt (hb : 0 < x.magnitudeBits) (k : Nat) :
    x.interval.floorAt (x.interval.magnitude - (k : Nat)) < 10 ^ (k + 1) := by
  obtain ⟨hfloor, -⟩ :=
    Interval.floorAt_bounds x.interval_den_pos (x.interval.magnitude - (k : Nat))
  have hplaces :
      x.interval.magnitude + 1 - ((k + 1 : Nat) : Int) = x.interval.magnitude - (k : Nat) := by
    push_cast
    ring
  have hlt := hfloor.trans_lt (interval_value x ▸ (magnitude_interval hb).2)
  rw [ten_zpow_split (x.interval.magnitude + 1) (k + 1), hplaces] at hlt
  exact_mod_cast lt_of_mul_lt_mul_right hlt (ten_zpow_pos _).le

/-- The shortest decimal comes from a grid, and the grids before it have no hit. -/
theorem exists_grid_shortest (hb : 0 < x.magnitudeBits) :
    ∃ k : Nat, x.shortest.coefficient % 10 ≠ 0 ∧ x.shortest.coefficient < 10 ^ (k + 1) ∧
      (∀ j < k, x.interval.onGrid? (x.interval.magnitude - (j : Nat)) = none) ∧
      Owns x.magnitudeBits x.shortest.value ∧
      ∀ g : Nat, Owns x.magnitudeBits (g * 10 ^ (x.interval.magnitude - (k : Nat))) →
        Preferred (rung x.magnitudeBits) x.shortest.value
          (g * 10 ^ (x.interval.magnitude - (k : Nat))) := by
  obtain ⟨k, hk, d, hhit, hbefore, hshortest⟩ := exists_first_hit hb
  obtain ⟨hexponent, hcoefficient, howns, hpreferred⟩ := onGrid?_eq_some hb hhit
  have hle : d.coefficient ≤ 10 ^ (k + 1) := hcoefficient.trans (floorAt_lt hb k)
  have hpos : 0 < d.coefficient := by
    refine Nat.pos_of_ne_zero fun hzero => ?_
    rw [hzero, Nat.cast_zero, zero_mul] at howns
    exact lt_irrefl 0 howns.pos
  have hfuel : d.coefficient < 10 ^ (17 + 1) :=
    hle.trans_lt (Nat.pow_lt_pow_right (by decide) (by omega))
  have hmod := d.coefficient_stripZeros_mod 17 hpos hfuel
  have hvalue : x.shortest.value = d.coefficient * 10 ^ (x.interval.magnitude - (k : Nat)) := by
    rw [hshortest, Decimal.value_stripZeros, Decimal.value, hexponent]
  rw [← hshortest] at hmod
  refine ⟨k, hmod, ?_, hbefore, ?_, ?_⟩
  · -- a power of ten loses its zeros
    refine lt_of_le_of_ne ?_ fun heq => hmod ?_
    · rw [hshortest]
      exact (d.coefficient_stripZeros_le 17).trans hle
    · rw [heq, Nat.pow_succ, Nat.mul_mod_left]
  · rwa [hvalue]
  · rwa [hvalue]

theorem owns_shortest (hb : 0 < x.magnitudeBits) : Owns x.magnitudeBits x.shortest.value := by
  obtain ⟨-, -, -, -, h, -⟩ := exists_grid_shortest hb
  exact h

theorem coefficient_shortest_mod (hb : 0 < x.magnitudeBits) :
    x.shortest.coefficient % 10 ≠ 0 := by
  obtain ⟨-, h, -⟩ := exists_grid_shortest hb
  exact h

/-- What belongs to the rung has as many digits at least. -/
theorem coefficient_shortest_lt {j : Nat} (hb : 0 < x.magnitudeBits)
    (h : Owns x.magnitudeBits (c * 10 ^ e)) (hc : c < 10 ^ j) :
    x.shortest.coefficient < 10 ^ j := by
  obtain ⟨k, -, hlt, hbefore, -⟩ := exists_grid_shortest hb
  cases j with
  | zero =>
      rw [Nat.lt_one_iff.1 hc, Nat.cast_zero, zero_mul] at h
      exact absurd h.pos (lt_irrefl 0)
  | succ j =>
      rcases Nat.lt_or_ge j k with hjk | hkj
      · obtain ⟨g, hg, -⟩ := exists_onGrid hb h hc
        exact absurd hg (onGrid?_eq_none hb (hbefore j hjk) g)
      · exact hlt.trans_le (Nat.pow_le_pow_right (by decide) (Nat.succ_le_succ hkj))

/-- Of what belongs to the rung with as many digits, the shortest decimal is preferred. -/
theorem preferred_shortest (hb : 0 < x.magnitudeBits)
    (h : Owns x.magnitudeBits (c * 10 ^ e)) (hc : c < 10 ^ x.shortest.digits.length) :
    Preferred (rung x.magnitudeBits) x.shortest.value (c * 10 ^ e) := by
  obtain ⟨k, -, hlt, -, -, hpreferred⟩ := exists_grid_shortest hb
  have hlength : x.shortest.digits.length ≤ k + 1 :=
    (Nat.length_toDigits_le_iff (by decide) (Nat.succ_pos k)).2 hlt
  obtain ⟨g, hg, hsame | ⟨hbelow, hle⟩⟩ :=
    exists_onGrid hb h (hc.trans_le (Nat.pow_le_pow_right (by decide) hlength))
  · rw [← hsame]
    exact hpreferred g hg
  · -- a decimal with fewer digits before the point is further away than its neighbour
    refine .inl ?_
    have hclose := (hpreferred g hg).elim le_of_lt fun h => h.1.le
    rw [abs_of_nonneg (sub_nonneg.2 hle)] at hclose
    rw [abs_of_pos (sub_pos.2 (hbelow.trans_le hle))]
    linarith

end Number

end StructuralMatch
