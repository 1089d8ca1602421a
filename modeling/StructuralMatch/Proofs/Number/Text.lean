import Mathlib
import StructuralMatch.Proofs.Number.Layout

/-! # The text of a number

    The plain notation asks two floating point comparisons whether it needs an exponent.  They
    agree with the decimal exponent of the shortest digits (`Number.isPositional_plain_iff`):
    each threshold is itself a power of ten by its shortest digits, what belongs to a lower rung
    is below that power, and what belongs to a higher rung is above it.

    The text of a finite number can be read back, sign and layout, to a rational that belongs to
    its rung (`Number.reading_text_of_isFinite`), so equal texts are of numbers that are equal,
    or both of NaN (`Number.text_eq_iff`). -/

namespace StructuralMatch.Number

variable {x y : Number}

/-! ## Numbers without their sign -/

/-- Without its sign a number has the same magnitude. -/
theorem magnitudeBits_abs (x : Number) : x.abs.magnitudeBits = x.magnitudeBits :=
  (magnitudeBits_ofMagnitudeBits x.magnitudeBits_lt).1

theorem negative_abs (x : Number) : x.abs.negative = false :=
  (magnitudeBits_ofMagnitudeBits x.magnitudeBits_lt).2

theorem isFinite_abs (h : x.IsFinite) : x.abs.IsFinite := by
  rw [isFinite_iff, magnitudeBits_abs]
  exact isFinite_iff.1 h

/-- Its distance from zero is its rung. -/
theorem abs_value (x : Number) : |x.value| = rung x.magnitudeBits := by
  rw [value, magnitude_eq_rung]
  split
  · rw [abs_neg, abs_of_nonneg (rung_nonneg _)]
  · exact abs_of_nonneg (rung_nonneg _)

/-- The digits depend on the magnitude only. -/
theorem shortest_congr (h : x.magnitudeBits = y.magnitudeBits) : x.shortest = y.shortest := by
  have hparts : x.exponentBits = y.exponentBits ∧ x.fraction = y.fraction := by
    rw [exponentBits, exponentBits, fraction, fraction, h]
    exact ⟨rfl, rfl⟩
  have hmantissa : x.mantissa = y.mantissa := by rw [mantissa, mantissa, hparts.1, hparts.2]
  have hscale : x.scale = y.scale := by rw [scale, scale, hparts.1]
  have hinterval : x.interval = y.interval := by
    rw [interval, interval]
    simp only [hmantissa, hscale, hparts]
  rw [shortest, shortest, hinterval]

/-- What is finite is a number. -/
theorem isNaN_of_isFinite (h : x.IsFinite) : x.isNaN = false := by
  rw [isNaN, beq_false_of_ne h, Bool.false_and]

theorem isInfinite_of_isFinite (h : x.IsFinite) : x.isInfinite = false := by
  rw [isInfinite, beq_false_of_ne h, Bool.false_and]

/-- Both zeros have no bits but the sign. -/
theorem isZero_iff : x.isZero = true ↔ x.magnitudeBits = 0 := beq_iff_eq

theorem pos_of_isZero (h : x.isZero = false) : 0 < x.magnitudeBits :=
  Nat.pos_of_ne_zero fun hzero => Bool.false_ne_true (h.symm.trans (isZero_iff.2 hzero))

/-- Finite numbers without a sign compare as their bits do. -/
theorem abs_lt_iff {limit : Number} (hx : x.IsFinite) (hlimit : limit.IsFinite)
    (hsign : limit.negative = false) :
    x.abs.lt limit = true ↔ x.magnitudeBits < limit.magnitudeBits := by
  have hrank : x.abs.rank = x.magnitudeBits := by
    rw [rank, negative_abs, if_neg Bool.false_ne_true, magnitudeBits_abs]
  have hrank' : limit.rank = limit.magnitudeBits := by
    rw [rank, hsign, if_neg Bool.false_ne_true]
  rw [lt, isNaN_of_isFinite (isFinite_abs hx), isNaN_of_isFinite hlimit, hrank, hrank']
  simp

/-! ## The thresholds -/

/-- A comparison with a number whose shortest decimal is a power of ten decides about the
    decimal exponent. -/
theorem abs_lt_iff_point_le {limit : Number} {e : Int} (hx : x.IsFinite)
    (hpos : 0 < x.magnitudeBits) (hlimit : limit.IsFinite) (hlimitPos : 0 < limit.magnitudeBits)
    (hsign : limit.negative = false) (hpower : limit.shortest = ⟨1, e⟩) :
    x.abs.lt limit = true ↔ x.shortest.point ≤ e := by
  have hspec := shortest_spec (isFinite_abs hx) (by rwa [magnitudeBits_abs]) x.negative_abs
  rw [shortest_congr x.magnitudeBits_abs] at hspec
  obtain ⟨hlow, hhigh⟩ :=
    pointed_bounds (n := x.shortest.point) hspec.digits hspec.nonempty hspec.leading
  rw [pointed_digits] at hlow hhigh
  have howns := owns_shortest hpos
  -- the power of ten belongs to the threshold, as its shortest decimal
  have howns' : Owns limit.magnitudeBits (10 ^ e) := by
    have := owns_shortest hlimitPos
    rwa [hpower, Decimal.value, Nat.cast_one, one_mul] at this
  rw [abs_lt_iff hx hlimit hsign]
  constructor
  · intro hlt
    -- the digits are below the power, so their exponent is smaller
    have hbelow := hlow.trans_lt (owns_lt hlt howns howns')
    have := (zpow_lt_zpow_iff_right₀ (by norm_num)).1 hbelow
    omega
  · intro hle
    by_contra hge
    rcases (not_lt.1 hge).lt_or_eq with hlt | heq
    · -- on a rung above the threshold the exponent is greater
      have habove := (owns_lt hlt howns' howns).trans hhigh
      have := (zpow_lt_zpow_iff_right₀ (by norm_num)).1 habove
      omega
    · -- the threshold itself has the next exponent
      rw [← shortest_congr heq, hpower] at hle
      have hdigits : Decimal.digits ⟨1, e⟩ = ['1'] :=
        Nat.toDigits_of_lt_base (show 1 < 10 by decide)
      rw [Decimal.point, hdigits, List.length_singleton] at hle
      dsimp only at hle
      omega

/-- The lower threshold reads `1e-6`. -/
theorem least_shortest : Notation.plain.least.shortest = ⟨1, -6⟩ := by decide +kernel

/-- The upper threshold reads `1e21`. -/
theorem limit_shortest : Notation.plain.limit.shortest = ⟨1, 21⟩ := by decide +kernel

/-- The comparisons choose between the layouts as the decimal exponent does. -/
theorem isPositional_plain_iff (hx : x.IsFinite) (hpos : 0 < x.magnitudeBits) :
    Notation.plain.isPositional x = true ↔ -6 < x.shortest.point ∧ x.shortest.point ≤ 21 := by
  have hleast := abs_lt_iff_point_le hx hpos (show Notation.plain.least.IsFinite by decide)
    (by decide) (by decide) least_shortest
  have hlimit := abs_lt_iff_point_le hx hpos (show Notation.plain.limit.IsFinite by decide)
    (by decide) (by decide) limit_shortest
  rw [Notation.isPositional, Bool.and_eq_true, Bool.not_eq_true', hlimit, ← not_le,
    ← hleast, Bool.not_eq_true]

/-- The lower threshold is the number nearest to a millionth. -/
theorem reads_least : Reads (1 / 10 ^ 6) Notation.plain.least := by
  refine (reads_iff_owns (by decide) (by decide) (by decide)).2 ?_
  have howns := owns_shortest (x := Notation.plain.least) (by decide)
  rwa [least_shortest, Decimal.value, Nat.cast_one, one_mul, zpow_neg, ← one_div] at howns

/-- The upper threshold is the number nearest to the twenty-first power of ten. -/
theorem reads_limit : Reads (10 ^ 21) Notation.plain.limit := by
  refine (reads_iff_owns (by decide) (by decide) (by decide)).2 ?_
  have howns := owns_shortest (x := Notation.plain.limit) (by decide)
  rwa [limit_shortest, Decimal.value, Nat.cast_one, one_mul] at howns

/-- The comparisons are those of the values. -/
theorem isPositional_iff_value (f : Notation) (hleast : f.least.IsFinite)
    (hlimit : f.limit.IsFinite) (hleastSign : f.least.negative = false)
    (hlimitSign : f.limit.negative = false) (hx : x.IsFinite) :
    f.isPositional x = true ↔ f.least.value ≤ |x.value| ∧ |x.value| < f.limit.value := by
  rw [Notation.isPositional, Bool.and_eq_true, Bool.not_eq_true', abs_lt_iff hx hlimit hlimitSign,
    ← Bool.not_eq_true, abs_lt_iff hx hleast hleastSign, not_lt, abs_value,
    value_of_nonneg hleastSign, value_of_nonneg hlimitSign, rung_strictMono.le_iff_le,
    rung_strictMono.lt_iff_lt]

/-! ## Texts -/

/-- The infinities have their own texts. -/
theorem text_of_isInfinite (h : x.isInfinite = true) :
    x.text = if x.negative then "-Infinity" else "Infinity" := by
  obtain ⟨hexponent, hfraction⟩ : x.exponentBits = 2047 ∧ x.fraction = 0 := by
    rwa [isInfinite, Bool.and_eq_true, beq_iff_eq, beq_iff_eq] at h
  have hnan : x.isNaN = false := by rw [isNaN, hfraction, bne_self_eq_false, Bool.and_false]
  have hzero : x.isZero = false := by
    refine Bool.eq_false_iff.2 fun hzero => ?_
    rw [exponentBits, isZero_iff.1 hzero] at hexponent
    contradiction
  rw [text, write, hnan, hzero, h]
  cases x.negative <;> rfl

/-- Both zeros read as `0`. -/
theorem text_of_isZero (h : x.isZero = true) : x.text = "0" := by
  have hnan : x.isNaN = false := by
    rw [isNaN, exponentBits, isZero_iff.1 h]
    rfl
  rw [text, write, hnan, h]
  rfl

/-- The text of a finite number is its sign before its digits in their layout. -/
theorem exists_laidOut_text (hx : x.IsFinite) (hzero : x.isZero = false) :
    ∃ t, LaidOut x.shortest.digits x.shortest.point t ∧
      x.text.toList = if x.negative then '-' :: t else t := by
  refine ⟨_, laidOut_of_point x.shortest, ?_⟩
  have hpositional := isPositional_plain_iff hx (pos_of_isZero hzero)
  simp only [← hpositional]
  rw [text, write, isNaN_of_isFinite hx, hzero, isInfinite_of_isFinite hx]
  have hflags : Notation.plain.pointZero = false ∧ Notation.plain.plus = true := ⟨rfl, rfl⟩
  rw [hflags.1, hflags.2]
  cases x.negative <;> simp

/-! ## Reading texts -/

/-- What a text stands for. -/
inductive Reading where
  | nan
  | infinite (negative : Bool)
  | finite (q : ℚ)

/-- Read a text by its first characters. -/
def reading : List Char → Reading
  | 'N' :: _ => .nan
  | 'I' :: _ => .infinite false
  | '-' :: 'I' :: _ => .infinite true
  | '-' :: cs => .finite (-denoted cs)
  | cs => .finite (denoted cs)

/-- A magnitude that a text can stand for: zero for the zeros, and what belongs to the rung. -/
def BelongsTo (q : ℚ) (x : Number) : Prop :=
  q = 0 ∧ x.magnitudeBits = 0 ∨ Owns x.magnitudeBits q ∧ 0 < x.magnitudeBits

/-- Magnitudes have no sign. -/
theorem BelongsTo.nonneg {q : ℚ} (h : BelongsTo q x) : 0 ≤ q :=
  h.elim (fun h => h.1.ge) fun h => h.1.pos.le

/-- A magnitude that is read back belongs to one number, but for the sign. -/
theorem BelongsTo.magnitudeBits_eq {q : ℚ} (h : BelongsTo q x) (h' : BelongsTo q y) :
    x.magnitudeBits = y.magnitudeBits := by
  rcases h with ⟨hq, hx⟩ | ⟨hx, -⟩
  · rcases h' with ⟨-, hy⟩ | ⟨hy, -⟩
    · rw [hx, hy]
    · exact absurd hq hy.pos.ne'
  · rcases h' with ⟨hq, -⟩ | ⟨hy, -⟩
    · exact absurd hq hx.pos.ne'
    · exact owns_unique hx hy

/-- A text that starts with a digit, signed or not, is that of a finite number. -/
theorem reading_digits {c : Char} (hc : c.isDigit = true) (cs : List Char) :
    reading (c :: cs) = .finite (denoted (c :: cs)) ∧
      reading ('-' :: c :: cs) = .finite (-denoted (c :: cs)) := by
  constructor
  · rw [reading]
    all_goals
      intro _ h
      obtain ⟨rfl, -⟩ := List.cons.inj h
      contradiction
  · rw [reading]
    intro _ h
    obtain ⟨rfl, -⟩ := List.cons.inj h
    contradiction

/-- A finite number is read back as a rational with its sign, which belongs to its rung. -/
theorem reading_text_of_isFinite (hx : x.IsFinite) :
    ∃ q, BelongsTo q x ∧ reading x.text.toList = .finite (if x.negative then -q else q) := by
  cases hzero : x.isZero with
  | true =>
      refine ⟨0, .inl ⟨rfl, isZero_iff.1 hzero⟩, ?_⟩
      have hdigit : ∀ c ∈ ['0'], c.isDigit = true := fun c hc => List.mem_singleton.1 hc ▸ rfl
      have hvalue : Key.decimalValue ['0'] = 0 := rfl
      have hdenoted : denoted ['0'] = 0 := by rw [denoted_whole hdigit, hvalue, Nat.cast_zero]
      rw [text_of_isZero hzero, neg_zero, ite_self, ← hdenoted]
      exact (reading_digits rfl []).1
  | false =>
      have hpos := pos_of_isZero hzero
      have hdigits : ∀ c ∈ x.shortest.digits, c.isDigit = true := fun c hc =>
        Nat.isDigit_of_mem_toDigits (by decide) (by decide) hc
      obtain ⟨t, hlaid, htext⟩ := exists_laidOut_text hx hzero
      -- a layout starts with a digit, so the text is none of the special ones
      obtain ⟨c, cs, rfl, hc⟩ := hlaid.exists_cons hdigits Nat.toDigits_ne_nil
      have hdenoted := hlaid.denoted hdigits
      rw [pointed_digits] at hdenoted
      refine ⟨x.shortest.value, .inr ⟨owns_shortest hpos, hpos⟩, ?_⟩
      rw [htext, ← hdenoted]
      split
      · exact (reading_digits hc cs).2
      · exact (reading_digits hc cs).1

/-! ## Equal texts -/

/-- Equal as numbers: the two zeros are, and NaN is equal to nothing. -/
def NumericallyEqual (x y : Number) : Prop :=
  x.IsFinite ∧ y.IsFinite ∧ x.value = y.value ∨
    x.isInfinite = true ∧ y.isInfinite = true ∧ x.negative = y.negative

/-- There are three kinds of numbers. -/
theorem isNaN_or_isInfinite_or_isFinite (x : Number) :
    x.isNaN = true ∨ x.isInfinite = true ∨ x.IsFinite := by
  by_cases hexponent : x.exponentBits = 2047
  · rw [isNaN, isInfinite, hexponent]
    by_cases hfraction : x.fraction = 0
    · refine .inr (.inl ?_)
      rw [hfraction]
      rfl
    · refine .inl ?_
      rw [bne_iff_ne.2 hfraction]
      rfl
  · exact .inr (.inr hexponent)

/-- A number is its sign and its magnitude. -/
theorem eq_of_parts (hbits : x.magnitudeBits = y.magnitudeBits) (hsign : x.negative = y.negative) :
    x = y := by
  have hx := x.bits.toNat_lt
  have hy := y.bits.toNat_lt
  rw [magnitudeBits, magnitudeBits] at hbits
  rw [negative, negative, decide_eq_decide] at hsign
  have hpow : Nat.pow 2 63 = 2 ^ 63 := rfl
  rw [hpow] at hbits hsign
  have hsame : x.bits = y.bits := UInt64.toNat_inj.1 (by omega)
  cases x
  cases y
  exact congrArg Number.mk hsame

/-- NaN is read back. -/
theorem reading_text_of_isNaN (h : x.isNaN = true) : reading x.text.toList = .nan := by
  rw [text_of_isNaN h]
  rfl

/-- And so is an infinity, with its sign. -/
theorem reading_text_of_isInfinite (h : x.isInfinite = true) :
    reading x.text.toList = .infinite x.negative := by
  rw [text_of_isInfinite h]
  cases x.negative <;> rfl

/-- Numbers that are equal have the same text. -/
theorem NumericallyEqual.text_eq (h : NumericallyEqual x y) : x.text = y.text := by
  rcases h with ⟨hx, hy, hvalue⟩ | ⟨hx, hy, hsign⟩
  · have hbits : x.magnitudeBits = y.magnitudeBits := by
      refine rung_strictMono.injective ?_
      rw [← abs_value, ← abs_value, hvalue]
    cases hzero : x.isZero with
    | true =>
        have hzero' : y.isZero = true := by
          rw [isZero_iff, ← hbits]
          exact isZero_iff.1 hzero
        rw [text_of_isZero hzero, text_of_isZero hzero']
    | false =>
        -- a magnitude other than zero shows its sign
        have hpos : 0 < rung y.magnitudeBits := by
          rw [← rung_zero]
          exact rung_strictMono (hbits ▸ pos_of_isZero hzero)
        rw [value, value, magnitude_eq_rung, magnitude_eq_rung, hbits] at hvalue
        have hsign : x.negative = y.negative := by
          cases hneg : x.negative <;> cases hneg' : y.negative <;>
            simp only [hneg, hneg', Bool.false_eq_true, if_true, if_false] at hvalue
          · rfl
          · linarith
          · linarith
          · rfl
        rw [eq_of_parts hbits hsign]
  · rw [text_of_isInfinite hx, text_of_isInfinite hy, hsign]

/-- Finite numbers that are read back as one rational are equal. -/
theorem value_eq_of_belongsTo {q r : ℚ} (hq : BelongsTo q x) (hr : BelongsTo r y)
    (h : (if x.negative then -q else q) = if y.negative then -r else r) : x.value = y.value := by
  have habs {z : Number} {s : ℚ} (hs : BelongsTo s z) : |if z.negative then -s else s| = s := by
    split
    · rw [abs_neg, abs_of_nonneg hs.nonneg]
    · exact abs_of_nonneg hs.nonneg
  obtain rfl : q = r := by rw [← habs hq, h, habs hr]
  have hbits := hq.magnitudeBits_eq hr
  rw [value, value, magnitude_eq_rung, magnitude_eq_rung, hbits]
  rcases hr with ⟨-, hzero⟩ | ⟨howns, -⟩
  · -- the two zeros are equal, whatever their signs
    rw [hzero, rung_zero, neg_zero, ite_self, ite_self]
  · have hpos := howns.pos
    cases hneg : x.negative <;> cases hneg' : y.negative <;>
      simp only [hneg, hneg', Bool.false_eq_true, if_true, if_false] at h ⊢
    · linarith
    · linarith

/-- Texts are equal of numbers that are equal, and of NaN. -/
theorem text_eq_iff (x y : Number) :
    x.text = y.text ↔ x.isNaN = true ∧ y.isNaN = true ∨ NumericallyEqual x y := by
  constructor
  · intro h
    have hreading : reading x.text.toList = reading y.text.toList := by rw [h]
    rcases x.isNaN_or_isInfinite_or_isFinite with hx | hx | hx
    · rw [reading_text_of_isNaN hx] at hreading
      rcases y.isNaN_or_isInfinite_or_isFinite with hy | hy | hy
      · exact .inl ⟨hx, hy⟩
      · rw [reading_text_of_isInfinite hy] at hreading
        contradiction
      · obtain ⟨_, -, hread⟩ := reading_text_of_isFinite hy
        rw [hread] at hreading
        contradiction
    · rw [reading_text_of_isInfinite hx] at hreading
      rcases y.isNaN_or_isInfinite_or_isFinite with hy | hy | hy
      · rw [reading_text_of_isNaN hy] at hreading
        contradiction
      · rw [reading_text_of_isInfinite hy] at hreading
        exact .inr (.inr ⟨hx, hy, Reading.infinite.inj hreading⟩)
      · obtain ⟨_, -, hread⟩ := reading_text_of_isFinite hy
        rw [hread] at hreading
        contradiction
    · -- two finite numbers with one text are read back as one rational
      obtain ⟨q, hq, hread⟩ := reading_text_of_isFinite hx
      rw [hread] at hreading
      rcases y.isNaN_or_isInfinite_or_isFinite with hy | hy | hy
      · rw [reading_text_of_isNaN hy] at hreading
        contradiction
      · rw [reading_text_of_isInfinite hy] at hreading
        contradiction
      · obtain ⟨r, hr, hread'⟩ := reading_text_of_isFinite hy
        rw [hread'] at hreading
        have hvalue := value_eq_of_belongsTo hq hr (Reading.finite.inj hreading)
        exact .inr (.inl ⟨hx, hy, hvalue⟩)
  · rintro (⟨hx, hy⟩ | h)
    · rw [text_of_isNaN hx, text_of_isNaN hy]
    · exact h.text_eq

/-! ## The text -/

/-- NaN, the infinities and the zeros have their own texts.  The text of every other number is
    its sign before its shortest digits, laid out by the position of the point: comparing with
    the numbers that `1e-6` and `1e21` read as chooses the same layout.  Two numbers have the
    same text exactly if they are equal, or if neither is a number. -/
theorem text_layout :
    (∀ x : Number, x.isNaN = true → x.text = "NaN") ∧
      (∀ x : Number, x.isInfinite = true →
        x.text = if x.negative then "-Infinity" else "Infinity") ∧
      (∀ x : Number, x.isZero = true → x.text = "0") ∧
      (∀ x : Number, x.IsFinite → x.isZero = false →
        ∃ (ds : List Char) (n : Int) (t : List Char),
          Shortest x.abs ds n ∧
          (∀ (es : List Char) (m : Int), Shortest x.abs es m → es = ds ∧ m = n) ∧
          LaidOut ds n t ∧
          x.text.toList = (if x.negative then '-' :: t else t) ∧
          (Notation.plain.isPositional x = true ↔
            Notation.plain.least.value ≤ |x.value| ∧ |x.value| < Notation.plain.limit.value) ∧
          (Notation.plain.isPositional x = true ↔ -6 < n ∧ n ≤ 21)) ∧
      Reads (1 / 10 ^ 6) Notation.plain.least ∧
      Reads (10 ^ 21) Notation.plain.limit ∧
      ∀ x y : Number,
        x.text = y.text ↔ x.isNaN = true ∧ y.isNaN = true ∨ NumericallyEqual x y := by
  refine ⟨fun x => text_of_isNaN, fun x => text_of_isInfinite, fun x => text_of_isZero, ?_,
    reads_least, reads_limit, text_eq_iff⟩
  intro x hx hzero
  have hpos := pos_of_isZero hzero
  have hshortest : Shortest x.abs x.shortest.digits x.shortest.point := by
    rw [← shortest_congr x.magnitudeBits_abs]
    exact shortest_spec (isFinite_abs hx) (by rwa [magnitudeBits_abs]) x.negative_abs
  obtain ⟨t, hlaid, htext⟩ := exists_laidOut_text hx hzero
  refine ⟨_, _, t, hshortest, fun es m h => hshortest.unique h, hlaid, htext, ?_,
    isPositional_plain_iff hx hpos⟩
  exact isPositional_iff_value .plain (by decide) (by decide) (by decide) (by decide) hx

/-- The numbers right below the thresholds. -/
example : (Number.mk 0x444B1AE4D6E2EF4F).text = "999999999999999900000" ∧
    (Number.mk 0x3EB0C6F7A0B5ED8C).text = "9.999999999999997e-7" := by decide +kernel

end StructuralMatch.Number
