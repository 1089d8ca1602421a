import StructuralMatch.Matching
import StructuralMatch.Proofs.Sameness
import StructuralMatch.Store.Describe

/-! # Literals and sameness

    A literal pattern matches what is the same as its primitive.  Sameness is an
    equivalence (`Value.same_equivalence`) that for references is having one identity, and
    for primitives is being equal, up to the payload of what is not a number.  So values
    that are the same cannot be told apart by their type or by their text.

    The cases of `Value.same` are read off once (`Value.same_iff_of_identity`,
    `Primitive.same_iff`); that types and texts agree follows from them. -/

namespace StructuralMatch

variable {v w : Value}

/-! ## What sameness keeps -/

theorem Number.same_iff_bits {x y : Number} :
    x.same y = true ↔ (x.isNaN = true ∧ y.isNaN = true) ∨ x.bits = y.bits := by
  rw [same_iff]
  refine or_congr_right ⟨congrArg bits, ?_⟩
  intro h
  cases x
  cases y
  exact congrArg Number.mk h

/-- Primitives that are the same have one type and one text. -/
theorem Primitive.eq_of_same {p q : Primitive} (h : p.same q = true) :
    p.typeName = q.typeName ∧ p.toText = q.toText := by
  rcases same_iff.1 h with ⟨x, y, rfl, rfl, hxy⟩ | rfl
  · refine ⟨rfl, ?_⟩
    show x.text = y.text
    rcases Number.same_iff.1 hxy with ⟨hx, hy⟩ | rfl
    · rw [Number.text_of_isNaN hx, Number.text_of_isNaN hy]
    · rfl
  · exact ⟨rfl, rfl⟩

theorem Store.text_prim (σ : Store) (p : Primitive) : σ.text (.prim p) = p.toText := by
  rw [Store.text]
  cases σ.arrays.size <;> rfl

/-- Values that are the same have one type and, at any time, one text. -/
theorem Value.eq_of_same (h : v.same w = true) :
    v.typeName = w.typeName ∧ ∀ σ : Store, σ.text v = σ.text w := by
  rcases same_iff.1 h with ⟨p, q, rfl, rfl, hpq⟩ | rfl
  · obtain ⟨htype, htext⟩ := Primitive.eq_of_same hpq
    refine ⟨htype, fun σ => ?_⟩
    rw [σ.text_prim, σ.text_prim, htext]
  · exact ⟨rfl, fun σ => rfl⟩

/-- Where one of two values has an identity, they are the same if both have it. -/
theorem Value.same_iff_of_identity {r : Ref} (hr : v.identity = some r) :
    v.same w = true ↔ w.identity = some r := by
  cases v with
  | prim p => cases hr
  | ref q =>
      have hq : q = r := Option.some.inj hr
      cases w with
      | prim p => simp [Value.same, identity]
      | ref s =>
          show (q == s) = true ↔ some s = some r
          rw [beq_iff_eq, Option.some.injEq, hq, eq_comm]

/-! ## Matching literals -/

/-- A literal pattern decides sameness, binds nothing and touches nothing. -/
theorem matchPattern_literal (p : Primitive) (w : Value) (s : State) :
    matchPattern (.literal p) w s =
      (if (Value.prim p).same w then .matched .empty else .unmatched, s) := by
  rw [matchPattern, matchAt, matchLiteral]

/-- **Sameness is an equivalence that refines identity**: numbers are the same if neither is a
    number or if their bits agree, so the two zeros differ; references are the same if they have
    one identity; values of different types are never the same, and those that are the same have
    one text.  The literal pattern of a primitive matches exactly what is the same, and so the
    primitive itself. -/
theorem Value.same_refines_identity :
    (Equivalence fun v w : Value => v.same w = true) ∧
    (∀ x y : Number, (number x).same (number y) = true ↔
      (x.isNaN = true ∧ y.isNaN = true) ∨ x.bits = y.bits) ∧
    (∀ x y : Number, x.isZero = true → y.isZero = true → x.negative ≠ y.negative →
      (number x).same (number y) = false) ∧
    (∀ v w : Value, v.typeName ≠ w.typeName → v.same w = false) ∧
    (∀ (v w : Value) (r : Ref), v.identity = some r →
      (v.same w = true ↔ w.identity = some r)) ∧
    (∀ v w : Value, v.same w = true →
      v.typeName = w.typeName ∧ ∀ σ : Store, σ.text v = σ.text w) ∧
    (∀ v : Value, (∃ p, Pattern.ofValue? v = some p) ↔ v.identity = none) ∧
    ∀ (v : Value) (p : Pattern), Pattern.ofValue? v = some p → ∀ s : State,
      (∀ w : Value, ((matchPattern p w s).1 = .matched .empty ↔ v.same w = true) ∧
        ((matchPattern p w s).1 = .unmatched ↔ v.same w = false) ∧
          (matchPattern p w s).2 = s) ∧
      (matchPattern p v s).1 = .matched .empty := by
  refine ⟨same_equivalence, fun x y => Number.same_iff_bits, ?_, ?_, ?_, ?_, ?_, ?_⟩
  · intro x y hx hy hsign
    rw [← Bool.not_eq_true]
    intro hsame
    rcases Number.same_iff.1 hsame with ⟨hnan, -⟩ | rfl
    · -- a zero has no exponent, so it is a number
      have hbits : x.magnitudeBits = 0 := by simpa [Number.isZero] using hx
      simp [Number.isNaN, Number.exponentBits, hbits] at hnan
    · exact hsign rfl
  · intro v w htype
    rw [← Bool.not_eq_true]
    intro hsame
    exact htype (eq_of_same hsame).1
  · intro v w r hr
    exact same_iff_of_identity hr
  · intro v w hsame
    exact eq_of_same hsame
  · intro v
    cases v <;> simp [Pattern.ofValue?, identity]
  · intro v p hp s
    cases v with
    | ref r => cases hp
    | prim q =>
        cases hp
        simp only [matchPattern_literal, same_self, if_true, and_true]
        intro w
        cases (Value.prim q).same w <;> simp

/-- What is not a number matches itself whatever its payload, and zero does not match the zero
    with the other sign. -/
example (s : State) :
    (matchPattern (.literal (.number ⟨0x7FF8000000000000⟩))
        (.number ⟨0xFFF8000000000001⟩) s).1 = .matched .empty ∧
      (matchPattern (.literal (.number ⟨0⟩)) (.number ⟨0x8000000000000000⟩) s).1 = .unmatched := by
  simp only [matchPattern_literal]
  decide

end StructuralMatch
