import Mathlib.Data.List.Perm.Subperm
import Mathlib.Data.Option.Defs
import StructuralMatch.Proofs.Insertion

/-! # Sameness of values and of bindings

    Sameness of values is an equivalence: primitives are the same if they are equal or
    neither is a number, references if they have one identity.

    Bindings are compared in one direction only, once their sizes are known to agree.
    That is enough: names are distinct on both sides, so as many names of which all on
    the left are bound on the right leave none on the right unbound on the left
    (`Bindings.keys_perm`).  So the comparison says that every name is bound to the same
    on both sides (`Bindings.same_iff_alike`), and it is an equivalence that does not
    depend on any order (`Bindings.same_extensional`). -/

namespace StructuralMatch

/-! ## Values -/

theorem Number.same_iff {x y : Number} :
    x.same y = true ↔ (x.isNaN = true ∧ y.isNaN = true) ∨ x = y := by
  simp [Number.same]

theorem Number.same_symm {x y : Number} (h : x.same y = true) : y.same x = true :=
  same_iff.2 ((same_iff.1 h).imp And.symm Eq.symm)

theorem Number.same_trans {x y z : Number} (hxy : x.same y = true) (hyz : y.same z = true) :
    x.same z = true := by
  rw [same_iff] at hxy hyz ⊢
  rcases hxy with ⟨hx, hy⟩ | rfl
  · rcases hyz with ⟨-, hz⟩ | rfl
    · exact .inl ⟨hx, hz⟩
    · exact .inl ⟨hx, hy⟩
  · exact hyz

/-- Primitives are the same as numbers or by being equal. -/
theorem Primitive.same_iff {p q : Primitive} :
    p.same q = true ↔ (∃ x y, p = .number x ∧ q = .number y ∧ x.same y = true) ∨ p = q := by
  constructor
  · intro h
    cases p with
    | number x =>
        cases q with
        | number y => exact .inl ⟨x, y, rfl, rfl, h⟩
        | _ => simp [Primitive.same] at h
    | _ => exact .inr (by simpa [Primitive.same] using h)
  · rintro (⟨x, y, rfl, rfl, h⟩ | rfl)
    · exact h
    · cases p <;> simp [Primitive.same, Number.same]

/-- Values are the same as primitives or by being equal. -/
theorem Value.same_iff {v w : Value} :
    v.same w = true ↔ (∃ p q, v = .prim p ∧ w = .prim q ∧ p.same q = true) ∨ v = w := by
  cases v with
  | prim p =>
      cases w with
      | prim q =>
          refine ⟨fun h => .inl ⟨p, q, rfl, rfl, h⟩, ?_⟩
          rintro (⟨_, _, ⟨⟩, ⟨⟩, h⟩ | heq)
          · exact h
          · exact Primitive.same_iff.2 (.inr (Value.prim.inj heq))
      | ref s => simp [Value.same]
  | ref r => cases w <;> simp [Value.same]

/-- Every value is the same as itself. -/
theorem Value.same_self (v : Value) : v.same v = true := same_iff.2 (.inr rfl)

theorem Primitive.same_symm {p q : Primitive} (h : p.same q = true) : q.same p = true := by
  rcases same_iff.1 h with ⟨x, y, rfl, rfl, hxy⟩ | rfl
  · exact Number.same_symm hxy
  · exact h

theorem Primitive.same_trans {p q r : Primitive} (hpq : p.same q = true) (hqr : q.same r = true) :
    p.same r = true := by
  rcases same_iff.1 hpq with ⟨x, y, rfl, rfl, hxy⟩ | rfl
  · rcases same_iff.1 hqr with ⟨_, z, ⟨⟩, rfl, hyz⟩ | rfl
    · exact Number.same_trans hxy hyz
    · exact hpq
  · exact hqr

theorem Value.same_symm {v w : Value} (h : v.same w = true) : w.same v = true := by
  rcases same_iff.1 h with ⟨p, q, rfl, rfl, hpq⟩ | rfl
  · exact Primitive.same_symm hpq
  · exact h

theorem Value.same_trans {u v w : Value} (huv : u.same v = true) (hvw : v.same w = true) :
    u.same w = true := by
  rcases same_iff.1 huv with ⟨p, q, rfl, rfl, hpq⟩ | rfl
  · rcases same_iff.1 hvw with ⟨_, r, ⟨⟩, rfl, hqr⟩ | rfl
    · exact Primitive.same_trans hpq hqr
    · exact huv
  · exact hvw

/-- Sameness of values is an equivalence. -/
theorem Value.same_equivalence : Equivalence fun v w : Value => v.same w = true where
  refl := same_self
  symm := same_symm
  trans := same_trans

/-! ## Bindings -/

namespace Bindings

variable {a b c : Bindings}

/-- Both bind a name to values that are the same, or neither binds it. -/
def Alike (a b : Bindings) : Prop :=
  ∀ k, Option.Rel (fun v w => v.same w = true) (a.get? k) (b.get? k)

theorem Alike.refl (a : Bindings) : a.Alike a := by
  intro k
  cases a.get? k with
  | none => exact .none
  | some v => exact .some v.same_self

theorem Alike.symm (h : a.Alike b) : b.Alike a := by
  intro k
  have hk := h k
  generalize a.get? k = x at hk ⊢
  generalize b.get? k = y at hk ⊢
  cases hk with
  | none => exact .none
  | some hsame => exact .some (Value.same_symm hsame)

theorem Alike.trans (hab : a.Alike b) (hbc : b.Alike c) : a.Alike c := by
  intro k
  have hfirst := hab k
  have hsecond := hbc k
  generalize a.get? k = x at hfirst ⊢
  generalize b.get? k = y at hfirst hsecond
  generalize c.get? k = z at hsecond ⊢
  cases hfirst with
  | none => exact hsecond
  | some huv =>
      cases hsecond with
      | some hvw => exact .some (Value.same_trans huv hvw)

theorem length_keys (b : Bindings) : b.keys.length = b.size := List.length_map _

/-- A name is bound to nothing exactly when it is not one of the keys. -/
theorem get?_eq_none_iff {k : Key} : b.get? k = none ↔ k ∉ b.keys :=
  Assoc.get?_eq_none_iff b.entries k

/-- As many names, and all of the left ones bound on the right: then the names agree. -/
theorem keys_perm (hsize : a.size = b.size) (hsub : ∀ k ∈ a.keys, k ∈ b.keys) :
    a.keys.Perm b.keys := by
  have hlength : b.keys.length = a.keys.length := by rw [length_keys, length_keys, hsize]
  exact (a.nodup.subperm hsub).perm_of_length_le (Nat.le_of_eq hlength)

/-- What the comparison of bindings looks at. -/
theorem same_iff : a.same b = true ↔
    a.size = b.size ∧ ∀ e ∈ a.entries, ∃ w, b.get? e.1 = some w ∧ w.same e.2 = true := by
  rw [same, Bool.and_eq_true, beq_iff_eq, List.all_eq_true]
  refine and_congr_right fun _ => forall₂_congr fun e _ => ?_
  cases b.get? e.1 <;> simp

/-- The comparison is whether every name is bound to the same, or to nothing, on both sides. -/
theorem same_iff_alike : a.same b = true ↔ a.Alike b := by
  rw [same_iff]
  constructor
  · rintro ⟨hsize, hall⟩ k
    have hsub : ∀ j ∈ a.keys, j ∈ b.keys := by
      intro j hj
      obtain ⟨e, he, rfl⟩ := List.mem_map.1 hj
      obtain ⟨w, hw, -⟩ := hall e he
      exact (contains_iff b e.1).1 (Option.isSome_of_eq_some hw)
    cases hk : a.get? k with
    | some v =>
        obtain ⟨w, hw, hsame⟩ := hall (k, v) (Assoc.mem_of_get?_eq_some hk)
        rw [hw]
        exact .some (Value.same_symm hsame)
    | none =>
        -- a name that is bound on the right only would be one too many
        rw [get?_eq_none_iff, (keys_perm hsize hsub).mem_iff, ← get?_eq_none_iff] at hk
        rw [hk]
        exact .none
  · intro h
    have hmem : ∀ k, k ∈ a.keys ↔ k ∈ b.keys := by
      intro k
      rw [← not_iff_not, ← get?_eq_none_iff, ← get?_eq_none_iff]
      have hk := h k
      generalize a.get? k = x at hk ⊢
      generalize b.get? k = y at hk ⊢
      cases hk <;> simp
    have hperm : a.keys.Perm b.keys := (List.perm_ext_iff_of_nodup a.nodup b.nodup).2 hmem
    refine ⟨by rw [← length_keys, ← length_keys, hperm.length_eq], fun e he => ?_⟩
    have hbound : a.get? e.1 = some e.2 := Assoc.get?_eq_some_of_mem a.nodup he
    have hk := h e.1
    rw [hbound] at hk
    generalize hw : b.get? e.1 = x at hk
    cases hk with
    | some hsame => exact ⟨_, rfl, Value.same_symm hsame⟩

/-- Bindings with the same entries in another order are alike. -/
theorem Alike.of_perm (h : a.entries.Perm b.entries) : a.Alike b := by
  have hsub : ∀ {a b : Bindings}, a.entries.Perm b.entries → ∀ {k v}, a.get? k = some v →
      b.get? k = some v := fun {_ b} h {_ _} hv =>
    Assoc.get?_eq_some_of_mem b.nodup (h.subset (Assoc.mem_of_get?_eq_some hv))
  intro k
  have heq : a.get? k = b.get? k := Option.ext fun v => ⟨hsub h, hsub h.symm⟩
  rw [← heq]
  exact Alike.refl a k

/-- **Equality of bindings is extensional**: bindings are the same exactly when every name is
    bound on both sides, to values that are the same, or on neither.  So sameness is an
    equivalence, and the order in which names were bound makes no difference to it. -/
theorem same_extensional :
    (∀ a b : Bindings, a.same b = true ↔
      ∀ k, Option.Rel (fun v w => v.same w = true) (a.get? k) (b.get? k)) ∧
    (Equivalence fun a b : Bindings => a.same b = true) ∧
    ∀ a a' b b' : Bindings, a.entries.Perm a'.entries → b.entries.Perm b'.entries →
      a'.same b' = a.same b := by
  refine ⟨fun a b => same_iff_alike, ⟨?_, ?_, ?_⟩, ?_⟩
  · exact fun a => same_iff_alike.2 (.refl a)
  · exact fun h => same_iff_alike.2 (same_iff_alike.1 h).symm
  · exact fun hab hbc => same_iff_alike.2 ((same_iff_alike.1 hab).trans (same_iff_alike.1 hbc))
  · intro a a' b b' ha hb
    rw [Bool.eq_iff_iff, same_iff_alike, same_iff_alike]
    have hleft : a.Alike a' := .of_perm ha
    have hright : b.Alike b' := .of_perm hb
    exact ⟨fun h => (hleft.trans h).trans hright.symm, fun h => (hleft.symm.trans h).trans hright⟩

/-- Two names in either order; every NaN is the same as every NaN, and zeros differ. -/
example :
    ((single ⟨"x"⟩ (.number ⟨0x7FF8000000000000⟩)).insert ⟨"y"⟩ .undefined).same
        ((single ⟨"y"⟩ .undefined).insert ⟨"x"⟩ (.number ⟨0xFFF8000000000001⟩)) = true ∧
      (single ⟨"z"⟩ (.number ⟨0⟩)).same (single ⟨"z"⟩ (.number ⟨0x8000000000000000⟩)) = false := by
  decide

end Bindings

end StructuralMatch
