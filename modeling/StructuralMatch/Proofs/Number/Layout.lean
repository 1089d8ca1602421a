import Mathlib
import StructuralMatch.Number.Notation
import StructuralMatch.Proofs.Number.Digits

/-! # Layouts

    Digits are laid out in one of four ways, by the position of the point
    (`Number.LaidOut`).  Each of them can be read back without knowing which one it is: the
    digits before and behind the point are taken together, and the exponent is added
    (`Number.denoted`, `Number.LaidOut.denoted`). -/

namespace StructuralMatch.Number

variable {ds t cs fs : List Char} {n : Int}

/-- The layout of shortest digits by the position of the point. -/
inductive LaidOut (ds : List Char) (n : Int) : List Char → Prop where
  /-- Zeros up to the point. -/
  | padded : ds.length ≤ n → n ≤ 21 → LaidOut ds n (ds ++ List.replicate (n - ds.length).toNat '0')
  /-- The point among the digits. -/
  | inside : 0 < n → n ≤ 21 → n < ds.length →
      LaidOut ds n (ds.take n.toNat ++ '.' :: ds.drop n.toNat)
  /-- Zeros behind the point. -/
  | fraction : -6 < n → n ≤ 0 → LaidOut ds n ('0' :: '.' :: (List.replicate (-n).toNat '0' ++ ds))
  /-- One digit before the point, and an exponent with its sign. -/
  | scientific (c : Char) (cs : List Char) : n ≤ -6 ∨ 21 < n → ds = c :: cs →
      LaidOut ds n ((if cs = [] then [c] else c :: '.' :: cs) ++
        'e' :: (if n - 1 < 0 then '-' else '+') :: Nat.toDigits 10 (n - 1).natAbs)

/-- The digits of the plain notation are laid out by the position of the point. -/
theorem laidOut_of_point (d : Decimal) :
    LaidOut d.digits d.point
      (if -6 < d.point ∧ d.point ≤ 21 then d.positional false else d.scientific true).toList := by
  split
  case isTrue h =>
    obtain ⟨hlow, hhigh⟩ := h
    rw [Decimal.positional]
    split
    case isTrue hpad =>
      rw [if_neg Bool.false_ne_true, String.append_empty, String.toList_ofList]
      exact .padded hpad hhigh
    case isFalse hpad =>
      split <;> rw [String.toList_ofList]
      case isTrue hpos => exact .inside hpos hhigh (not_le.1 hpad)
      case isFalse hpos => exact .fraction hlow (not_lt.1 hpos)
  case isFalse h =>
    obtain ⟨c, cs, hcs⟩ := List.exists_cons_of_ne_nil
      (show d.digits ≠ [] from Nat.toDigits_ne_nil)
    have htext : (d.scientific true).toList = (if cs = [] then [c] else c :: '.' :: cs) ++
        'e' :: (if d.point - 1 < 0 then '-' else '+') ::
          Nat.toDigits 10 (d.point - 1).natAbs := by
      rw [Decimal.scientific, hcs]
      cases cs <;> by_cases hneg : d.point < 1 <;> simp [hneg]
    rw [htext]
    exact .scientific c cs (by omega) hcs

/-! ## Reading back -/

/-- The exponent that digits behind a sign denote. -/
def signedValue : List Char → Int
  | '-' :: cs => -(Key.decimalValue cs : Int)
  | '+' :: cs => Key.decimalValue cs
  | cs => Key.decimalValue cs

/-- The rational that an unsigned text denotes: digits with a point, and an exponent after
    an `e`. -/
def denoted (t : List Char) : ℚ :=
  let mantissa := t.takeWhile (· != 'e')
  let exponent := (t.dropWhile (· != 'e')).drop 1
  let whole := mantissa.takeWhile (· != '.')
  let fraction := (mantissa.dropWhile (· != '.')).drop 1
  Key.decimalValue (whole ++ fraction) * 10 ^ (signedValue exponent - fraction.length)

theorem takeWhile_dropWhile_append {p : Char → Bool} {c : Char} (fs : List Char)
    (h : ∀ a ∈ cs, p a = true) (hc : p c = false) :
    (cs ++ c :: fs).takeWhile p = cs ∧ (cs ++ c :: fs).dropWhile p = c :: fs := by
  rw [List.takeWhile_append_of_pos h, List.dropWhile_append_of_pos h, List.takeWhile_cons,
    List.dropWhile_cons, hc]
  simp

theorem takeWhile_dropWhile_self {p : Char → Bool} (h : ∀ a ∈ cs, p a = true) :
    cs.takeWhile p = cs ∧ cs.dropWhile p = [] :=
  ⟨List.takeWhile_eq_self_iff.2 h, List.dropWhile_eq_nil_iff.2 h⟩

/-- Digits are neither the point nor the mark of an exponent. -/
theorem ne_of_isDigit {c d : Char} (h : c.isDigit = true) (hd : d.isDigit = false) :
    (c != d) = true := by
  rw [bne_iff_ne]
  rintro rfl
  rw [h] at hd
  contradiction

theorem denoted_whole (h : ∀ c ∈ cs, c.isDigit = true) : denoted cs = Key.decimalValue cs := by
  obtain ⟨he, he'⟩ := takeWhile_dropWhile_self (p := (· != 'e'))
    fun c hc => ne_of_isDigit (h c hc) rfl
  obtain ⟨hp, hp'⟩ := takeWhile_dropWhile_self (p := (· != '.'))
    fun c hc => ne_of_isDigit (h c hc) rfl
  rw [denoted, he, he', hp, hp']
  simp [signedValue, Key.decimalValue]

theorem denoted_point (h : ∀ c ∈ cs, c.isDigit = true) (h' : ∀ c ∈ fs, c.isDigit = true) :
    denoted (cs ++ '.' :: fs) = Key.decimalValue (cs ++ fs) * 10 ^ (-(fs.length : Int)) := by
  have hmarks : ∀ c ∈ cs ++ '.' :: fs, (c != 'e') = true := by
    intro c hc
    rcases List.mem_append.1 hc with hc | hc
    · exact ne_of_isDigit (h c hc) rfl
    · rcases List.mem_cons.1 hc with rfl | hc
      · rfl
      · exact ne_of_isDigit (h' c hc) rfl
  obtain ⟨he, he'⟩ := takeWhile_dropWhile_self hmarks
  obtain ⟨hp, hp'⟩ := takeWhile_dropWhile_append (p := (· != '.')) (c := '.') fs
    (fun c hc => ne_of_isDigit (h c hc) rfl) rfl
  rw [denoted, he, he', hp, hp']
  simp [signedValue, Key.decimalValue]

/-- An exponent moves the point. -/
theorem denoted_exponent (h : ∀ c ∈ cs, (c != 'e') = true) :
    denoted (cs ++ 'e' :: fs) = denoted cs * 10 ^ signedValue fs := by
  obtain ⟨he, he'⟩ := takeWhile_dropWhile_append (p := (· != 'e')) (c := 'e') fs h rfl
  obtain ⟨hs, hs'⟩ := takeWhile_dropWhile_self h
  have hnone : signedValue [] = 0 := rfl
  rw [denoted, denoted, he, he', hs, hs', mul_assoc, ← zpow_add₀ (by norm_num)]
  congr 2
  rw [List.drop_nil, hnone, List.drop_one, List.tail_cons]
  ring

theorem signedValue_exponent (k : Int) :
    signedValue ((if k < 0 then '-' else '+') :: Nat.toDigits 10 k.natAbs) = k := by
  split <;> rw [signedValue, Key.decimalValue_toDigits] <;> omega

/-- Every layout denotes the digits with their point. -/
theorem LaidOut.denoted (hdigits : ∀ c ∈ ds, c.isDigit = true) (h : LaidOut ds n t) :
    denoted t = pointed ds n := by
  have hzeros (k : Nat) : ∀ c ∈ List.replicate k '0', c.isDigit = true := by
    intro c hc
    rw [List.eq_of_mem_replicate hc]
    rfl
  cases h with
  | padded hpad =>
      -- zeros behind the digits multiply by their power of ten
      rw [denoted_whole, Key.decimalValue_append, Key.decimalValue_replicate_zero,
        List.length_replicate, pointed]
      · push_cast
        rw [← zpow_natCast, Int.toNat_of_nonneg (by omega), add_zero]
      · intro c hc
        exact (List.mem_append.1 hc).elim (hdigits c) (hzeros _ c)
  | inside hpos _ hin =>
      -- the point moves by as many digits as stand behind it
      rw [denoted_point, List.take_append_drop, List.length_drop, pointed]
      · congr 2
        omega
      · exact fun c hc => hdigits c (List.mem_of_mem_take hc)
      · exact fun c hc => hdigits c (List.mem_of_mem_drop hc)
  | fraction _ hnonpos =>
      have hzero : ∀ c ∈ ['0'], c.isDigit = true := hzeros 1
      have hrest : ∀ c ∈ List.replicate (-n).toNat '0' ++ ds, c.isDigit = true := fun c hc =>
        (List.mem_append.1 hc).elim (hzeros _ c) (hdigits c)
      refine (denoted_point hzero hrest).trans ?_
      -- zeros in front count for nothing but the place of the digits
      have hleading : Key.decimalValue ['0'] = 0 := rfl
      rw [Key.decimalValue_append, Key.decimalValue_append, Key.decimalValue_replicate_zero,
        hleading, List.length_append, List.length_replicate, pointed]
      simp only [zero_mul, zero_add]
      congr 2
      omega
  | scientific c cs _ hcs =>
      subst hcs
      have hdigit : ∀ d ∈ [c], d.isDigit = true := fun d hd =>
        hdigits d (List.mem_cons.2 (.inl (List.mem_singleton.1 hd)))
      have hrest : ∀ d ∈ cs, d.isDigit = true := fun d hd => hdigits d (List.mem_cons_of_mem c hd)
      have hmark : ∀ d ∈ (if cs = [] then [c] else c :: '.' :: cs), (d != 'e') = true := by
        intro d hd
        split at hd
        · exact ne_of_isDigit (hdigit d hd) rfl
        · rcases List.mem_cons.1 hd with rfl | hd
          · exact ne_of_isDigit (hdigits d List.mem_cons_self) rfl
          · rcases List.mem_cons.1 hd with rfl | hd
            · rfl
            · exact ne_of_isDigit (hrest d hd) rfl
      -- '.' :: cs) = :: the mantissa has its point behind the first digit, and the exponent moves
      -- it
      have hmantissa : Number.denoted (if cs = [] then [c] else c :: '.' :: cs) =
          Key.decimalValue (c :: cs) * 10 ^ (-(cs.length : Int)) := by
        split
        case isTrue hnil =>
          subst hnil
          rw [denoted_whole hdigit]
          simp
        case isFalse => exact denoted_point hdigit hrest
      rw [denoted_exponent hmark, hmantissa, signedValue_exponent, mul_assoc,
        ← zpow_add₀ (by norm_num), pointed, List.length_cons]
      congr 2
      push_cast
      ring

/-- A layout begins with a digit. -/
theorem LaidOut.exists_cons (hdigits : ∀ c ∈ ds, c.isDigit = true) (hne : ds ≠ [])
    (h : LaidOut ds n t) : ∃ c cs, t = c :: cs ∧ c.isDigit = true := by
  obtain ⟨d, ds, rfl⟩ := List.exists_cons_of_ne_nil hne
  have hd : d.isDigit = true := hdigits d List.mem_cons_self
  cases h with
  | padded => exact ⟨d, _, rfl, hd⟩
  | inside hpos =>
      obtain ⟨k, hk⟩ : ∃ k, n.toNat = k + 1 := ⟨n.toNat - 1, by omega⟩
      rw [hk]
      exact ⟨d, _, rfl, hd⟩
  | fraction => exact ⟨'0', _, rfl, rfl⟩
  | scientific c cs _ hcs =>
      obtain ⟨rfl, rfl⟩ := List.cons.inj hcs
      split
      · exact ⟨d, _, rfl, hd⟩
      · exact ⟨d, _, rfl, hd⟩

end StructuralMatch.Number
