import Mathlib
import StructuralMatch.Key

/-! # Positions as keys

    A key stands for a position exactly when it is the decimal form of one below
    `2 ^ 64`, and every position has one such form (`Key.index?_eq_some_iff`). -/

namespace StructuralMatch.Key

/-! ## Decimal forms -/

theorem decimalValue_concat (cs : List Char) (c : Char) :
    decimalValue (cs ++ [c]) = 10 * decimalValue cs + (c.toNat - '0'.toNat) := by
  rw [decimalValue, List.foldl_concat, decimalValue]

/-- A digit is below ten, and it is the digit of its value. -/
theorem digitChar_of_isDigit {c : Char} (h : c.isDigit = true) :
    c.toNat - '0'.toNat < 10 ∧ Nat.digitChar (c.toNat - '0'.toNat) = c := by
  have hrange : 48 ≤ c.toNat ∧ c.toNat ≤ 57 := by
    simpa [Char.isDigit, UInt32.le_iff_toNat_le] using h
  obtain ⟨n, hn⟩ : ∃ n, c.toNat = 48 + n := ⟨c.toNat - 48, by omega⟩
  have hlt : n < 10 := by omega
  have hc : c = Char.ofNat (48 + n) := by rw [← hn, Char.ofNat_toNat]
  subst hc
  interval_cases n <;> decide

/-- Only the decimal form of zero begins with a zero. -/
theorem eq_zero_of_head?_toDigits (n : Nat) :
    (Nat.toDigits 10 n).head? = some '0' → n = 0 := by
  induction n using Nat.strongRecOn with
  | ind n ih =>
      intro hhead
      by_cases hn : n < 10
      · rw [Nat.toDigits_of_lt_base hn] at hhead
        interval_cases n <;> first | rfl | cases hhead
      · have hsplit := Nat.toDigits_append_toDigits (b := 10) (n := n / 10) (d := n % 10)
          (by decide) (by omega) (by omega)
        rw [Nat.div_add_mod] at hsplit
        rw [← hsplit, List.head?_append_of_ne_nil _ Nat.toDigits_ne_nil] at hhead
        have := ih (n / 10) (by omega) hhead
        omega

/-- Canonical decimal forms by their digits: there is one, and a leading zero stands alone. -/
theorem isCanonicalDecimal_iff (cs : List Char) :
    isCanonicalDecimal cs = true ↔
      cs ≠ [] ∧ (∀ c ∈ cs, c.isDigit = true) ∧ (cs.head? = some '0' → cs = ['0']) := by
  match cs with
  | [] => simp [isCanonicalDecimal]
  | [c] => simp [isCanonicalDecimal]
  | c :: d :: cs =>
      have hzero : ((c :: d :: cs).head? = some '0' → c :: d :: cs = ['0']) ↔ c ≠ '0' := by simp
      simp only [isCanonicalDecimal, Bool.and_eq_true, bne_iff_ne, List.all_eq_true, hzero, ne_eq,
        reduceCtorEq, not_false_eq_true, true_and, List.forall_mem_cons (a := c)]
      tauto

/-- A decimal form is canonical. -/
theorem isCanonicalDecimal_toDigits (n : Nat) : isCanonicalDecimal (Nat.toDigits 10 n) = true := by
  refine (isCanonicalDecimal_iff _).2 ⟨Nat.toDigits_ne_nil, ?_, ?_⟩
  · intro c hc
    exact Nat.isDigit_of_mem_toDigits (by decide) (by decide) hc
  · intro hhead
    rw [eq_zero_of_head?_toDigits n hhead]
    decide

/-- A canonical decimal form is that of the number it denotes. -/
theorem toDigits_decimalValue (cs : List Char) :
    isCanonicalDecimal cs = true → Nat.toDigits 10 (decimalValue cs) = cs := by
  induction cs using List.reverseRecOn with
  | nil => exact nofun
  | append_singleton cs c ih =>
      intro hcanonical
      obtain ⟨-, hdigits, hzero⟩ := (isCanonicalDecimal_iff _).1 hcanonical
      obtain ⟨hlt, hchar⟩ := digitChar_of_isDigit (hdigits c (by simp))
      rw [decimalValue_concat]
      by_cases hnil : cs = []
      · subst hnil
        have hone : 10 * decimalValue [] + (c.toNat - '0'.toNat) = c.toNat - '0'.toNat := by
          simp [decimalValue]
        rw [hone, Nat.toDigits_of_lt_base hlt, hchar]
        rfl
      · -- more digits follow, so the first one is not a zero and the form before is canonical
        have hhead : cs.head? ≠ some '0' := by
          intro hhead
          have hall := hzero (by rw [List.head?_append_of_ne_nil _ hnil, hhead])
          have hlength := congrArg List.length hall
          simp [hnil] at hlength
        have hbefore : isCanonicalDecimal cs = true :=
          (isCanonicalDecimal_iff cs).2
            ⟨hnil, fun d hd => hdigits d (List.mem_append_left _ hd), fun h => absurd h hhead⟩
        have hpos : 0 < decimalValue cs := by
          refine Nat.pos_of_ne_zero fun h => hhead ?_
          rw [← ih hbefore, h]
          rfl
        rw [← Nat.toDigits_append_toDigits (by decide) hpos hlt, ih hbefore,
          Nat.toDigits_of_lt_base hlt, hchar]

/-! ## Keys of positions -/

/-- A key stands for a position exactly when it is the key of one that fits 64 bits. -/
theorem index?_eq_some_iff {k : Key} {i : Nat} :
    k.index? = some i ↔ k = .index i ∧ i < UInt64.size := by
  constructor
  · intro h
    simp only [index?, Option.ite_none_right_eq_some, Bool.and_eq_true, decide_eq_true_eq,
      Option.some.injEq] at h
    obtain ⟨⟨hcanonical, hlt⟩, rfl⟩ := h
    refine ⟨?_, hlt⟩
    rw [index, toDigits_decimalValue _ hcanonical, String.ofList_toList]
  · rintro ⟨rfl, hlt⟩
    have hlist : (index i).name.toList = Nat.toDigits 10 i := String.toList_ofList
    simp only [index?, hlist, isCanonicalDecimal_toDigits, decimalValue_toDigits, hlt,
      decide_true, Bool.and_true, if_true]

/-- No position has the key `length`. -/
theorem index_ne_length (i : Nat) : index i ≠ ⟨"length"⟩ := by
  intro h
  have hdigits : Nat.toDigits 10 i = "length".toList := by
    rw [← String.toList_ofList (l := Nat.toDigits 10 i)]
    exact congrArg (·.name.toList) h
  have hletter : 'l' ∈ Nat.toDigits 10 i := by
    rw [hdigits]
    decide
  exact absurd (Nat.isDigit_of_mem_toDigits (by decide) (by decide) hletter) (by decide)

end StructuralMatch.Key
