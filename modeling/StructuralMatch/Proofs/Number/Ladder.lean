import Mathlib
import StructuralMatch.Number

/-! # The ladder of magnitudes

    In the order of their bits, the magnitudes of finite numbers are the rungs of a ladder
    (`Number.rung`): from one rung to the next it is one unit in the last place, across the
    border between two exponents as well (`Number.rung_succ`).

    A rational reads as the number that is nearest to it, and half way as the one with the
    even mantissa (`Number.Reads`).  On the ladder this is an interval around each rung that
    reaches half way to its neighbours (`Number.Owns`, `Number.reads_iff_owns`), and the
    intervals of different rungs are apart and in order (`Number.owns_lt`). -/

namespace StructuralMatch.Number

/-! ## Rungs -/

/-- The exponent of the last place of a magnitude, by its bits. -/
def scaleAt (b : Nat) : Int := if b / 2 ^ 52 = 0 then -1074 else (b / 2 ^ 52 : Nat) - 1075

/-- The mantissa of a magnitude, by its bits. -/
def mantissaAt (b : Nat) : Nat := if b / 2 ^ 52 = 0 then b % 2 ^ 52 else 2 ^ 52 + b % 2 ^ 52

/-- The magnitude of given bits. -/
def rung (b : Nat) : ℚ := mantissaAt b * 2 ^ scaleAt b

/-- Units are positive. -/
theorem two_zpow_pos (k : Int) : (0 : ℚ) < 2 ^ k := zpow_pos (by norm_num) k

/-- The next rung is one unit in the last place further up. -/
theorem rung_succ (b : Nat) : rung (b + 1) = rung b + 2 ^ scaleAt b := by
  by_cases hcarry : b % 2 ^ 52 + 1 < 2 ^ 52
  · -- the exponent stays
    have hdiv : (b + 1) / 2 ^ 52 = b / 2 ^ 52 := by omega
    have hmantissa : mantissaAt (b + 1) = mantissaAt b + 1 := by
      rw [mantissaAt, mantissaAt, hdiv]
      split <;> omega
    rw [rung, rung, scaleAt, hdiv, ← scaleAt, hmantissa]
    push_cast
    ring
  · have hdiv : (b + 1) / 2 ^ 52 = b / 2 ^ 52 + 1 := by omega
    have hnext : mantissaAt (b + 1) = 2 ^ 52 := by
      rw [mantissaAt, hdiv, if_neg (Nat.succ_ne_zero _)]
      omega
    have hscale : scaleAt (b + 1) = (b / 2 ^ 52 : Nat) - 1074 := by
      rw [scaleAt, hdiv, if_neg (Nat.succ_ne_zero _)]
      push_cast
      ring
    by_cases hsub : b / 2 ^ 52 = 0
    · -- from the last subnormal magnitude to the first normal one the unit stays
      have hmantissa : mantissaAt b = 2 ^ 52 - 1 := by
        rw [mantissaAt, if_pos hsub]
        omega
      have hsame : scaleAt (b + 1) = scaleAt b := by
        rw [hscale, scaleAt, if_pos hsub, hsub]
        rfl
      rw [rung, rung, hnext, hsame, hmantissa]
      generalize (2 : ℚ) ^ scaleAt b = unit
      push_cast
      ring
    · -- the unit doubles
      have hmantissa : mantissaAt b = 2 ^ 53 - 1 := by
        rw [mantissaAt, if_neg hsub]
        omega
      have hdouble : (2 : ℚ) ^ scaleAt (b + 1) = 2 * 2 ^ scaleAt b := by
        rw [hscale, scaleAt, if_neg hsub, ← zpow_one_add₀ (by norm_num)]
        congr 1
        ring
      rw [rung, rung, hnext, hdouble, hmantissa]
      generalize (2 : ℚ) ^ scaleAt b = unit
      push_cast
      ring

/-- The ladder stands on zero. -/
theorem rung_zero : rung 0 = 0 := by simp [rung, mantissaAt]

/-- The order of the bits is the order of the magnitudes. -/
theorem rung_strictMono : StrictMono rung := by
  refine strictMono_nat_of_lt_succ fun b => ?_
  have := two_zpow_pos (scaleAt b)
  rw [rung_succ]
  linarith

theorem rung_nonneg (b : Nat) : 0 ≤ rung b := by
  rw [← rung_zero]
  exact rung_strictMono.monotone (Nat.zero_le b)

/-- No rung but the lowest is within 399 decimal places of zero. -/
theorem le_rung {b : Nat} (hb : 0 < b) : (1 : ℚ) / 10 ^ 399 ≤ rung b := by
  have hpowers : (2 : ℚ) ^ 1074 ≤ 10 ^ 399 := by
    calc (2 : ℚ) ^ 1074 ≤ 2 ^ (9 * 133) := pow_le_pow_right₀ (by norm_num) (by decide)
      _ = (2 ^ 9) ^ 133 := pow_mul ..
      _ ≤ (10 ^ 3) ^ 133 := pow_le_pow_left₀ (by norm_num) (by norm_num) 133
      _ = 10 ^ 399 := by rw [← pow_mul]
  have hone : rung 1 = 1 / 2 ^ 1074 := by
    have hunit : rung 1 = (1 : Nat) * 2 ^ (-1074 : Int) := rfl
    rw [hunit, zpow_neg, Nat.cast_one, one_mul, one_div]
    rfl
  calc (1 : ℚ) / 10 ^ 399 ≤ 1 / 2 ^ 1074 := one_div_le_one_div_of_le (by positivity) hpowers
    _ = rung 1 := hone.symm
    _ ≤ rung b := rung_strictMono.monotone hb

/-- Half way from a rung to the next. -/
def halfway (b : Nat) : ℚ := (rung b + rung (b + 1)) / 2

/-- Half way is above the rung. -/
theorem rung_lt_halfway (b : Nat) : rung b < halfway b := by
  have := rung_strictMono (Nat.lt_succ_self b)
  rw [halfway]
  linarith

/-- Half way is below the next rung. -/
theorem halfway_lt_rung (b : Nat) : halfway b < rung (b + 1) := by
  have := rung_strictMono (Nat.lt_succ_self b)
  rw [halfway]
  linarith

theorem halfway_strictMono : StrictMono halfway :=
  strictMono_nat_of_lt_succ fun b => (halfway_lt_rung b).trans (rung_lt_halfway (b + 1))

/-- Half way up is half a unit of the rung away. -/
theorem halfway_eq_add (b : Nat) : halfway b = rung b + 2 ^ scaleAt b / 2 := by
  rw [halfway, rung_succ]
  ring

/-- Half way down is half a unit of the rung below away. -/
theorem halfway_pred {b : Nat} (hb : 0 < b) :
    halfway (b - 1) = rung b - 2 ^ scaleAt (b - 1) / 2 := by
  have hsucc := rung_succ (b - 1)
  rw [Nat.sub_add_cancel hb] at hsucc
  rw [halfway_eq_add, hsucc]
  ring

/-- Below a power of two the unit is half as large, unless it is the least unit. -/
theorem unit_pred {b : Nat} (hb : 0 < b) :
    (2 : ℚ) ^ scaleAt (b - 1) =
      if b % 2 ^ 52 = 0 ∧ 1 < b / 2 ^ 52 then 2 ^ scaleAt b / 2 else 2 ^ scaleAt b := by
  split
  case isTrue hpower =>
    have hscale : scaleAt b = 1 + scaleAt (b - 1) := by
      have hdiv : (b - 1) / 2 ^ 52 = b / 2 ^ 52 - 1 := by omega
      rw [scaleAt, scaleAt, hdiv, if_neg (by omega), if_neg (by omega)]
      omega
    rw [hscale, zpow_one_add₀ (by norm_num)]
    ring
  case isFalse hpower =>
    have hscale : scaleAt (b - 1) = scaleAt b := by
      by_cases hfraction : b % 2 ^ 52 = 0
      · -- the first normal magnitude
        have hdiv : b / 2 ^ 52 = 1 := by omega
        have hdiv' : (b - 1) / 2 ^ 52 = 0 := by omega
        rw [scaleAt, scaleAt, hdiv, hdiv']
        rfl
      · have hdiv : (b - 1) / 2 ^ 52 = b / 2 ^ 52 := by omega
        rw [scaleAt, scaleAt, hdiv]
    rw [hscale]

/-! ## What belongs to a rung -/

/-- A rational that is nearer to a rung than to its neighbours, or half way to one of them if
    the rung is an even one. -/
def Owns (b : Nat) (q : ℚ) : Prop :=
  (halfway (b - 1) < q ∨ q = halfway (b - 1) ∧ b % 2 = 0) ∧
    (q < halfway b ∨ q = halfway b ∧ b % 2 = 0)

variable {b c : Nat} {q r : ℚ}

/-- What belongs to a rung is at most half way to its neighbours. -/
theorem Owns.halfway_le (h : Owns b q) : halfway (b - 1) ≤ q ∧ q ≤ halfway b :=
  ⟨h.1.elim le_of_lt fun h => h.1.ge, h.2.elim le_of_lt fun h => h.1.le⟩

theorem Owns.pos (h : Owns b q) : 0 < q := by
  have hzero : halfway 0 ≤ halfway (b - 1) := halfway_strictMono.monotone (Nat.zero_le _)
  have := rung_lt_halfway 0
  rw [rung_zero] at this
  exact this.trans_le (hzero.trans h.halfway_le.1)

/-- A rung belongs to itself. -/
theorem owns_rung (hb : 0 < b) : Owns b (rung b) := by
  have hbelow := halfway_lt_rung (b - 1)
  rw [Nat.sub_add_cancel hb] at hbelow
  exact ⟨.inl hbelow, .inl (rung_lt_halfway b)⟩

/-- An even rung owns both points half way. -/
theorem owns_iff_of_even (heven : b % 2 = 0) :
    Owns b q ↔ halfway (b - 1) ≤ q ∧ q ≤ halfway b := by
  simp only [Owns, heven, and_true, le_iff_lt_or_eq, eq_comm]

/-- An odd rung owns none of them. -/
theorem owns_iff_of_odd (hodd : b % 2 ≠ 0) : Owns b q ↔ halfway (b - 1) < q ∧ q < halfway b := by
  simp only [Owns, hodd, and_false, or_false]

/-- What lies between two that belong to a rung belongs to it. -/
theorem Owns.between {s : ℚ} (hq : Owns b q) (hr : Owns b r) (hqs : q ≤ s) (hsr : s ≤ r) :
    Owns b s := by
  constructor
  · rcases hqs.lt_or_eq with hlt | rfl
    · exact .inl (hq.halfway_le.1.trans_lt hlt)
    · exact hq.1
  · rcases hsr.lt_or_eq with hlt | rfl
    · exact .inl (hlt.trans_le hr.halfway_le.2)
    · exact hr.2

/-- What belongs to different rungs is in their order: a point half way between two neighbours
    belongs to one of them only, since one of them is odd. -/
theorem owns_lt (hbc : b < c) (hq : Owns b q) (hr : Owns c r) : q < r := by
  have hqb := hq.halfway_le.2
  have hcr := hr.halfway_le.1
  rcases (Nat.le_sub_one_of_lt hbc).lt_or_eq with hlt | heq
  · exact hqb.trans_lt ((halfway_strictMono hlt).trans_le hcr)
  · rw [← heq] at hcr
    refine lt_of_le_of_ne (hqb.trans hcr) ?_
    rintro rfl
    have hsame : q = halfway b := le_antisymm hqb hcr
    have heven : b % 2 = 0 := hq.2.elim (fun h => absurd hsame h.ne) And.right
    -- the point is half way, so both rungs would have to be even
    have heven' : c % 2 = 0 := by
      rcases hr.1 with h | h
      · rw [← heq] at h
        exact absurd hsame h.ne'
      · exact h.2
    omega

/-- A rational belongs to one rung only. -/
theorem owns_unique (hq : Owns b q) (hq' : Owns c q) : b = c := by
  rcases Nat.lt_trichotomy b c with h | h | h
  · exact absurd (owns_lt h hq hq') (lt_irrefl q)
  · exact h
  · exact absurd (owns_lt h hq' hq) (lt_irrefl q)

/-! ## Numbers -/

variable {x y : Number}

/-- Neither infinite nor NaN. -/
def IsFinite (x : Number) : Prop := x.exponentBits ≠ 2047

instance (x : Number) : Decidable x.IsFinite := inferInstanceAs (Decidable (_ ≠ _))

/-- The magnitude of a finite number. -/
def magnitude (x : Number) : ℚ := x.mantissa * 2 ^ x.scale

/-- The value of a finite number. -/
def value (x : Number) : ℚ := if x.negative then -x.magnitude else x.magnitude

/-- The number that a rational reads as: no finite number is nearer to it, and one that is
    equally near is odd.  Rationals from half way beyond the greatest number on are infinite. -/
structure Reads (q : ℚ) (x : Number) : Prop where
  finite : x.IsFinite
  bounded : |q| < 2 ^ 1024 - 2 ^ 970
  nearest : ∀ y : Number, y.IsFinite → |q - x.value| ≤ |q - y.value|
  even : ∀ y : Number, y.IsFinite → |q - y.value| = |q - x.value| → y.value ≠ x.value →
    x.mantissa % 2 = 0

/-- A number is on the rung of its bits. -/
theorem magnitude_eq_rung (x : Number) : x.magnitude = rung x.magnitudeBits := rfl

theorem value_of_nonneg (hsign : x.negative = false) : x.value = rung x.magnitudeBits := by
  rw [value, hsign, if_neg Bool.false_ne_true, magnitude_eq_rung]

theorem magnitudeBits_lt (x : Number) : x.magnitudeBits < 2 ^ 63 := Nat.mod_lt _ (by decide)

/-- The finite numbers are those below the bits of infinity. -/
theorem isFinite_iff : x.IsFinite ↔ x.magnitudeBits < 2047 * 2 ^ 52 := by
  have hlt := x.magnitudeBits_lt
  have hexponent : x.exponentBits = x.magnitudeBits / 2 ^ 52 := rfl
  rw [IsFinite, hexponent]
  omega

/-- A mantissa is even when its bits are. -/
theorem mantissa_mod_two (x : Number) : x.mantissa % 2 = x.magnitudeBits % 2 := by
  have hmantissa : x.mantissa = mantissaAt x.magnitudeBits := rfl
  rw [hmantissa, mantissaAt]
  split <;> omega

theorem magnitudeBits_ofMagnitudeBits (hb : b < 2 ^ 63) :
    (ofMagnitudeBits false b).magnitudeBits = b ∧ (ofMagnitudeBits false b).negative = false := by
  have hbits : (ofMagnitudeBits false b).bits.toNat = b := by
    have hlt : 0 + b < UInt64.size := by
      have : UInt64.size = 2 ^ 64 := rfl
      omega
    have hround : (UInt64.ofNat (0 + b)).toNat = 0 + b := UInt64.toNat_ofNat_of_lt hlt
    rw [ofMagnitudeBits, if_neg Bool.false_ne_true, hround, Nat.zero_add]
  rw [magnitudeBits, negative, hbits]
  exact ⟨Nat.mod_eq_of_lt hb, decide_eq_false (Nat.not_le.2 hb)⟩

/-- The number on a rung. -/
theorem exists_rung (hb : b < 2047 * 2 ^ 52) : ∃ y : Number, y.IsFinite ∧ y.value = rung b := by
  obtain ⟨hbits, hsign⟩ := magnitudeBits_ofMagnitudeBits (b := b) (by omega)
  refine ⟨ofMagnitudeBits false b, ?_, ?_⟩
  · rwa [isFinite_iff, hbits]
  · rw [value_of_nonneg hsign, hbits]

/-- A number is on a rung below, on the rung itself, or on a rung above. -/
theorem value_cases (b : Nat) (y : Number) :
    y.value ≤ rung (b - 1) ∨ y.value = rung b ∨ rung (b + 1) ≤ y.value := by
  rw [value, magnitude_eq_rung]
  split
  · exact .inl ((neg_nonpos.2 (rung_nonneg _)).trans (rung_nonneg _))
  · rcases Nat.lt_trichotomy y.magnitudeBits b with h | h | h
    · exact .inl (rung_strictMono.monotone (Nat.le_sub_one_of_lt h))
    · exact .inr (.inl (by rw [h]))
    · exact .inr (.inr (rung_strictMono.monotone h))

/-- Half way beyond the greatest finite magnitude. -/
theorem halfway_greatest : halfway (2047 * 2 ^ 52 - 1) = 2 ^ 1024 - 2 ^ 970 := by
  have hscale : scaleAt (2047 * 2 ^ 52 - 1) = 971 := rfl
  have hmantissa : mantissaAt (2047 * 2 ^ 52 - 1) = 2 ^ 53 - 1 := rfl
  have hunit : (2 : ℚ) ^ (971 : Int) = 2 * 2 ^ 970 := by
    rw [← pow_succ']
    rfl
  have htop : (2 : ℚ) ^ 1024 = 2 ^ 54 * 2 ^ 970 := by rw [← pow_add]
  rw [halfway, rung_succ, rung, hscale, hmantissa, hunit, htop]
  generalize (2 : ℚ) ^ 970 = unit
  push_cast
  ring

section Nearer

variable {s : ℚ}

/-- Of two points the lower is the nearer one up to half way. -/
theorem nearer_to_lower_iff (h : r < s) : |q - r| ≤ |q - s| ↔ q ≤ (r + s) / 2 := by
  rcases abs_cases (q - r) with ⟨hr, _⟩ | ⟨hr, _⟩ <;>
    rcases abs_cases (q - s) with ⟨hs, _⟩ | ⟨hs, _⟩ <;>
    rw [hr, hs] <;> constructor <;> intro <;> linarith

/-- And the upper from half way on. -/
theorem nearer_to_upper_iff (h : r < s) : |q - s| ≤ |q - r| ↔ (r + s) / 2 ≤ q := by
  rcases abs_cases (q - r) with ⟨hr, _⟩ | ⟨hr, _⟩ <;>
    rcases abs_cases (q - s) with ⟨hs, _⟩ | ⟨hs, _⟩ <;>
    rw [hr, hs] <;> constructor <;> intro <;> linarith

end Nearer

/-- What reads as a number is not nearer to another rung. -/
theorem Reads.nearest_rung (h : Reads q x) (hsign : x.negative = false) (hc : c < 2047 * 2 ^ 52) :
    |q - rung x.magnitudeBits| ≤ |q - rung c| ∧
      (|q - rung c| = |q - rung x.magnitudeBits| → c ≠ x.magnitudeBits →
        x.magnitudeBits % 2 = 0) := by
  obtain ⟨y, hy, hvalue⟩ := exists_rung hc
  have hnear := h.nearest y hy
  have heven := h.even y hy
  rw [hvalue, value_of_nonneg hsign] at hnear heven
  rw [mantissa_mod_two] at heven
  exact ⟨hnear, fun hsame hne => heven hsame (rung_strictMono.injective.ne hne)⟩

/-- What reads as a number belongs to its rung. -/
theorem Reads.owns (h : Reads q x) (hpos : 0 < x.magnitudeBits) (hsign : x.negative = false) :
    Owns x.magnitudeBits q := by
  have hlt := isFinite_iff.1 h.finite
  constructor
  · have hstep := rung_strictMono (Nat.sub_lt hpos Nat.one_pos)
    obtain ⟨hnear, heven⟩ := h.nearest_rung (c := x.magnitudeBits - 1) hsign (by omega)
    have hmiddle : halfway (x.magnitudeBits - 1) =
        (rung (x.magnitudeBits - 1) + rung x.magnitudeBits) / 2 := by
      rw [halfway, Nat.sub_add_cancel hpos]
    rw [hmiddle]
    rcases ((nearer_to_upper_iff hstep).1 hnear).lt_or_eq with hin | hhalf
    · exact .inl hin
    · have hsame := ((nearer_to_lower_iff hstep).2 hhalf.ge).antisymm hnear
      exact .inr ⟨hhalf.symm, heven hsame (by omega)⟩
  · -- upwards there may be no neighbour to compare with
    by_cases hlast : x.magnitudeBits + 1 < 2047 * 2 ^ 52
    · have hstep := rung_strictMono (Nat.lt_succ_self x.magnitudeBits)
      obtain ⟨hnear, heven⟩ := h.nearest_rung hsign hlast
      rcases ((nearer_to_lower_iff hstep).1 hnear).lt_or_eq with hin | hhalf
      · exact .inl hin
      · have hsame := ((nearer_to_upper_iff hstep).2 hhalf.ge).antisymm hnear
        exact .inr ⟨hhalf, heven hsame (by omega)⟩
    · -- there is no rung above the greatest
      have hgreatest : x.magnitudeBits = 2047 * 2 ^ 52 - 1 := by omega
      refine .inl ?_
      rw [hgreatest, halfway_greatest]
      exact (le_abs_self q).trans_lt h.bounded

/-- What belongs to a rung reads as its number. -/
theorem Owns.reads (h : Owns x.magnitudeBits q) (hfinite : x.IsFinite)
    (hpos : 0 < x.magnitudeBits) (hsign : x.negative = false) : Reads q x := by
  have hlt := isFinite_iff.1 hfinite
  have hvalue := value_of_nonneg hsign
  have hmantissa := mantissa_mod_two x
  obtain ⟨hlow, hhigh⟩ := h.halfway_le
  generalize x.magnitudeBits = b at *
  have hstep : rung (b - 1) < rung b := rung_strictMono (Nat.sub_lt hpos Nat.one_pos)
  have hstep' : rung b < rung (b + 1) := rung_strictMono (Nat.lt_succ_self b)
  have hbelow : halfway (b - 1) = (rung (b - 1) + rung b) / 2 := by
    rw [halfway, Nat.sub_add_cancel hpos]
  have habove : halfway b = (rung b + rung (b + 1)) / 2 := rfl
  refine ⟨hfinite, ?_, ?_, ?_⟩
  · -- the greatest rung is an odd one
    rw [abs_of_pos h.pos, ← halfway_greatest]
    rcases h.2 with hin | ⟨hhalf, heven⟩
    · exact hin.trans_le (halfway_strictMono.monotone (by omega))
    · rw [hhalf]
      exact halfway_strictMono (by omega)
  · intro y _
    rw [hvalue]
    rcases value_cases b y with hy | hy | hy
    · exact (nearer_to_upper_iff (hy.trans_lt hstep)).2 (by linarith)
    · rw [hy]
    · exact (nearer_to_lower_iff (hstep'.trans_le hy)).2 (by linarith)
  · intro y _ hsame hne
    rw [hvalue] at hsame hne
    rw [hmantissa]
    rcases value_cases b y with hy | hy | hy
    · have hhalf := (nearer_to_lower_iff (hy.trans_lt hstep)).1 hsame.le
      exact h.1.elim (fun hin => absurd hin (by linarith)) And.right
    · exact absurd hy hne
    · have hhalf := (nearer_to_upper_iff (hstep'.trans_le hy)).1 hsame.le
      exact h.2.elim (fun hin => absurd hin (by linarith)) And.right

/-- What reads as a positive number is what belongs to its rung. -/
theorem reads_iff_owns (hfinite : x.IsFinite) (hpos : 0 < x.magnitudeBits)
    (hsign : x.negative = false) : Reads q x ↔ Owns x.magnitudeBits q :=
  ⟨fun h => h.owns hpos hsign, fun h => h.reads hfinite hpos hsign⟩

end StructuralMatch.Number
