import StructuralMatch.Proofs.Store.Views

/-! # Positions and their keys

    A key stands for a position exactly when its name is the decimal form of a number
    that fits 64 bits.  What a decimal form is, `DecimalForm` says by its digits; that each
    number has one, and which number it is, is known from `Key.index?_eq_some_iff`.

    So the two ways between positions and keys undo each other, all other names are
    ordinary ones, and there are four reasons for a name to be ordinary
    (`index?_eq_none_iff`).  An array looks its elements up by the same correspondence
    (`Key.index_corresponds`). -/

namespace StructuralMatch

namespace Key

variable {s : String} {n i : Nat}

/-! ## Decimal forms by their digits -/

/-- A text that is the decimal form of a number: its digits, most significant first, with a
    zero in front only if there is no other digit. -/
structure DecimalForm (s : String) (n : Nat) : Prop where
  nonempty : s ≠ ""
  digits : ∀ c ∈ s.toList, '0' ≤ c ∧ c ≤ '9'
  leading : s.toList.head? = some '0' → s = "0"
  value : Nat.ofDigits 10 (s.toList.reverse.map fun c => c.toNat - '0'.toNat) = n

theorem isDigit_iff (c : Char) : c.isDigit = true ↔ '0' ≤ c ∧ c ≤ '9' := by
  simp [Char.isDigit, Char.le_def]

/-- Read from the front, digits denote the sum of their values in the powers of ten. -/
theorem decimalValue_eq_ofDigits (cs : List Char) :
    decimalValue cs = Nat.ofDigits 10 (cs.reverse.map fun c => c.toNat - '0'.toNat) := by
  induction cs using List.reverseRecOn with
  | nil => rfl
  | append_singleton cs c ih =>
      rw [decimalValue_concat, ih, List.reverse_concat, List.map_cons, Nat.ofDigits_cons,
        Nat.add_comm]

/-- Decimal forms are what is recognised, and they denote what is computed. -/
theorem decimalForm_iff :
    DecimalForm s n ↔ isCanonicalDecimal s.toList = true ∧ decimalValue s.toList = n := by
  have hnil : s.toList ≠ [] ↔ s ≠ "" := by simp
  have hzero : s.toList = ['0'] ↔ s = "0" := by
    rw [← String.toList_inj]
    exact Iff.rfl
  rw [isCanonicalDecimal_iff, decimalValue_eq_ofDigits, hnil, hzero]
  simp only [isDigit_iff]
  constructor
  · intro h
    exact ⟨⟨h.nonempty, h.digits, h.leading⟩, h.value⟩
  · rintro ⟨⟨hnonempty, hdigits, hleading⟩, hvalue⟩
    exact ⟨hnonempty, hdigits, hleading, hvalue⟩

/-- A key stands for a position exactly when its name is the decimal form of the position,
    which fits 64 bits. -/
theorem index?_eq_some_iff_decimalForm :
    (⟨s⟩ : Key).index? = some i ↔ i < 2 ^ 64 ∧ DecimalForm s i := by
  rw [decimalForm_iff, index?]
  simp only [Option.ite_none_right_eq_some, Bool.and_eq_true, decide_eq_true_eq,
    Option.some.injEq]
  constructor
  · rintro ⟨⟨hcanonical, hlt⟩, rfl⟩
    exact ⟨hlt, hcanonical, rfl⟩
  · rintro ⟨hlt, hcanonical, rfl⟩
    exact ⟨⟨hcanonical, hlt⟩, rfl⟩

/-- The reasons for which a name is an ordinary one: it is empty, it contains something that is
    not a digit, a zero stands in front of other digits, or the number is too large. -/
theorem index?_eq_none_iff (s : String) :
    (⟨s⟩ : Key).index? = none ↔
      s = "" ∨ (∃ c ∈ s.toList, ¬('0' ≤ c ∧ c ≤ '9')) ∨ (∃ t, t ≠ "" ∧ s = "0" ++ t) ∨
        ∃ n, 2 ^ 64 ≤ n ∧ DecimalForm s n := by
  constructor
  · intro hnone
    by_contra hreasons
    push Not at hreasons
    obtain ⟨hnonempty, hdigits, hpadded, hlarge⟩ := hreasons
    -- without any of the reasons the name is the decimal form of its value
    have hform : DecimalForm s (decimalValue s.toList) := by
      refine ⟨hnonempty, hdigits, ?_, (decimalValue_eq_ofDigits _).symm⟩
      intro hhead
      by_contra hother
      obtain ⟨cs, hcs⟩ := List.head?_eq_some_iff.1 hhead
      refine hpadded (String.ofList cs) ?_ ?_
      · rintro hempty
        rw [String.ofList_eq_empty_iff] at hempty
        refine hother (String.toList_inj.1 ?_)
        rw [hcs, hempty]
        rfl
      · rw [← String.toList_inj, hcs]
        simp
    -- and the value is small enough
    have hlt : decimalValue s.toList < 2 ^ 64 := by
      by_contra hnot
      exact hlarge _ (Nat.le_of_not_lt hnot) hform
    rw [index?_eq_some_iff_decimalForm.2 ⟨hlt, hform⟩] at hnone
    cases hnone
  · intro hreasons
    by_contra hsome
    obtain ⟨i, hi⟩ := Option.ne_none_iff_exists'.1 hsome
    obtain ⟨hlt, hform⟩ := index?_eq_some_iff_decimalForm.1 hi
    rcases hreasons with hempty | ⟨c, hc, hnot⟩ | ⟨t, ht, rfl⟩ | ⟨n, hn, hlarge⟩
    · exact hform.nonempty hempty
    · exact hnot (hform.digits c hc)
    · -- a decimal form that starts with a zero is the zero
      have hshort := hform.leading (by simp)
      rw [← String.toList_inj] at hshort
      simp at hshort
      exact ht hshort
    · have hsame := hform.value.symm.trans hlarge.value
      omega

end Key

/-! ## Elements of arrays -/

namespace Store

/-- A key addresses an element exactly when it is the key of its position. -/
theorem element?_eq_some_iff_index {xs : List Value} {k : Key} {x : Value} :
    element? xs k = some x ↔ ∃ i : UInt64, k = .index i.toNat ∧ xs[i.toNat]? = some x := by
  rw [element?, Option.bind_eq_some_iff]
  constructor
  · rintro ⟨i, hi, hx⟩
    obtain ⟨rfl, hlt⟩ := Key.index?_eq_some_iff.1 hi
    -- a position that a key stands for fits into 64 bits
    have hround : (UInt64.ofNat i).toNat = i := UInt64.toNat_ofNat_of_lt hlt
    exact ⟨.ofNat i, by rw [hround], by rw [hround]; exact hx⟩
  · rintro ⟨i, rfl, hx⟩
    exact ⟨i.toNat, Key.index?_eq_some_iff.2 ⟨rfl, i.toNat_lt⟩, hx⟩

/-- What an array shows under a key other than `length`: the element that the key addresses. -/
theorem array_of_ne_length (σ : Store) (a : Nat) {k : Key} (hk : k ≠ ⟨"length"⟩) :
    σ.hasProperty (.ref (.array a)) k = (element? (σ.items a) k).isSome ∧
      σ.get (.ref (.array a)) k = ((element? (σ.items a) k).getD .undefined, σ) := by
  have hname : (k.name == "length") = false :=
    beq_eq_false_iff_ne.2 fun h => hk (congrArg Key.mk h)
  simp only [hasProperty, get, hname, Bool.false_or, Bool.false_eq_true, if_false, and_self]

end Store

/-- **Positions and their decimal forms correspond exactly**: the key of a position below
    `2 ^ 64` stands for it, and a name that stands for a position is the name of its key.  All
    other names are ordinary: the empty one, those with anything but digits, those padded with
    zeros and those too large.  Distinct positions have distinct keys, and a key other than
    `length` addresses an element of an array exactly when it is the key of its position. -/
theorem Key.index_corresponds :
    (∀ i : UInt64, (index i.toNat).index? = some i.toNat) ∧
    (∀ (s : String) (i : Nat), (⟨s⟩ : Key).index? = some i → i < 2 ^ 64 ∧ index i = ⟨s⟩) ∧
    (∀ s : String, (⟨s⟩ : Key).index? = none ↔ ¬∃ n < 2 ^ 64, DecimalForm s n) ∧
    (∀ s : String, (⟨s⟩ : Key).index? = none ↔
      s = "" ∨ (∃ c ∈ s.toList, ¬('0' ≤ c ∧ c ≤ '9')) ∨ (∃ t, t ≠ "" ∧ s = "0" ++ t) ∨
        ∃ n, 2 ^ 64 ≤ n ∧ DecimalForm s n) ∧
    (∀ i j : Nat, index i = index j → i = j) ∧
    ∀ (σ : Store) (a : Nat) (k : Key), k ≠ ⟨"length"⟩ →
      (σ.hasProperty (.ref (.array a)) k = true ↔
        ∃ i : UInt64, i.toNat < (σ.items a).length ∧ k = index i.toNat) ∧
      (∀ (i : UInt64) (x : Value), k = index i.toNat → (σ.items a)[i.toNat]? = some x →
        σ.get (.ref (.array a)) k = (x, σ)) ∧
      ((∀ i : UInt64, i.toNat < (σ.items a).length → k ≠ index i.toNat) →
        σ.get (.ref (.array a)) k = (.undefined, σ)) := by
  refine ⟨?_, ?_, ?_, index?_eq_none_iff, fun i j h => index_injective h, ?_⟩
  · intro i
    exact index?_eq_some_iff.2 ⟨rfl, i.toNat_lt⟩
  · intro s i h
    obtain ⟨hkey, hlt⟩ := index?_eq_some_iff.1 h
    exact ⟨hlt, hkey.symm⟩
  · intro s
    simp only [Option.eq_none_iff_forall_ne_some, ne_eq, index?_eq_some_iff_decimalForm, not_exists]
  · intro σ a k hk
    obtain ⟨hhas, hget⟩ := σ.array_of_ne_length a hk
    -- the key addresses an element exactly when it is the key of a position in the array
    have hpresent : (Store.element? (σ.items a) k).isSome = true ↔
        ∃ i : UInt64, i.toNat < (σ.items a).length ∧ k = index i.toNat := by
      simp only [Option.isSome_iff_exists, Store.element?_eq_some_iff_index,
        List.getElem?_eq_some_iff]
      constructor
      · rintro ⟨x, i, hi, hlt, -⟩
        exact ⟨i, hlt, hi⟩
      · rintro ⟨i, hlt, hi⟩
        exact ⟨_, i, hi, hlt, rfl⟩
    refine ⟨by rw [hhas, hpresent], ?_, ?_⟩
    · intro i x hi hx
      rw [hget, Store.element?_eq_some_iff_index.2 ⟨i, hi, hx⟩, Option.getD_some]
    · intro hother
      have hnone : Store.element? (σ.items a) k = none := by
        rw [← Option.not_isSome_iff_eq_none, hpresent]
        rintro ⟨i, hlt, hi⟩
        exact hother i hlt hi
      rw [hget, hnone, Option.getD_none]

end StructuralMatch
