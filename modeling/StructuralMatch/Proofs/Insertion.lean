import Mathlib.Data.List.Induction
import StructuralMatch.Bindings

/-! # Pairs inserted one after another

    Properties, bindings and the entries of patterns are filled by insertion: a new key
    goes to the end, and a key that is there is overwritten where it stands.  So the keys
    are the distinct ones in the order of first mention (`keys_ofPairs`), each with what it
    was given last (`get?_ofPairs`).

    The law behind merging is that inserting what was inserted into another map is the same
    as inserting both lists (`insertAll_insertAll`).  Maps with the same keys in the same
    order and related contents (`Related`) stay so when related pairs are inserted. -/

namespace StructuralMatch

namespace Assoc

variable {κ α : Type} [DecidableEq κ]

/-! ## What is there afterwards -/

/-- Inserted pairs are the old ones and the new one. -/
theorem mem_insert {m : Assoc κ α} {k : κ} {a : α} {p : κ × α} (h : p ∈ m.insert k a) :
    p ∈ m ∨ p = (k, a) := by
  induction m with
  | nil => exact .inr (List.mem_singleton.1 h)
  | cons q m ih =>
      obtain ⟨j, b⟩ := q
      rw [insert] at h
      split at h
      · rename_i hj
        subst hj
        exact (List.mem_cons.1 h).elim .inr fun h => .inl (List.mem_cons_of_mem _ h)
      · rcases List.mem_cons.1 h with rfl | h
        · exact .inl (List.mem_cons_self ..)
        · exact (ih h).imp_left (List.mem_cons_of_mem _)

theorem mem_keys_insert {m : Assoc κ α} {j k : κ} (a : α) (h : k ∈ m.keys) :
    k ∈ (m.insert j a).keys := by
  rw [← get?_isSome_iff] at h ⊢
  rw [get?_insert]
  split <;> simp [h]

theorem mem_keys_insert_self (m : Assoc κ α) (k : κ) (a : α) : k ∈ (m.insert k a).keys := by
  rw [← get?_isSome_iff, get?_insert, if_pos rfl]
  rfl

/-- Inserting pairs with distinct new keys appends them. -/
theorem insertAll_of_nodup {m pairs : Assoc κ α} (h : (m ++ pairs).keys.Nodup) :
    m.insertAll pairs = m ++ pairs := by
  induction pairs generalizing m with
  | nil => exact (List.append_nil m).symm
  | cons p pairs ih =>
      obtain ⟨k, a⟩ := p
      have hnew : k ∉ m.keys := by
        intro hmem
        rw [keys, List.map_append] at h
        exact (List.nodup_append.1 h).2.2 k hmem k (List.mem_cons_self ..) rfl
      rw [insertAll, List.foldl_cons, insert_of_not_mem hnew]
      have happend : m ++ [(k, a)] ++ pairs = m ++ (k, a) :: pairs := by simp
      exact (ih (happend ▸ h)).trans happend

/-- Of two lists of pairs the first is looked up first. -/
theorem get?_append (m n : Assoc κ α) (k : κ) : (m ++ n).get? k = (m.get? k).or (n.get? k) := by
  induction m with
  | nil => rfl
  | cons p m ih =>
      obtain ⟨j, b⟩ := p
      by_cases hj : j = k
      · simp [hj]
      · simp [hj, ih]

theorem get?_append_of_some {m : Assoc κ α} {k : κ} {a : α} (h : m.get? k = some a)
    (more : Assoc κ α) : get? (m ++ more) k = some a := by
  rw [get?_append, h, Option.some_or]

/-- A key is not found exactly when it is not one of the keys. -/
theorem get?_eq_none_iff (m : Assoc κ α) (k : κ) : m.get? k = none ↔ k ∉ m.keys := by
  rw [← get?_isSome_iff, Option.not_isSome_iff_eq_none]

/-! ## Inserting maps -/

theorem insertAll_append (m : Assoc κ α) (ps qs : List (κ × α)) :
    m.insertAll (ps ++ qs) = (m.insertAll ps).insertAll qs := List.foldl_append

/-- The last value inserted under a key counts. -/
theorem insert_insert_self (m : Assoc κ α) (k : κ) (a b : α) :
    (m.insert k a).insert k b = m.insert k b := by
  induction m with
  | nil => simp [insert]
  | cons p m ih =>
      obtain ⟨j, c⟩ := p
      by_cases hj : j = k
      · simp [insert, hj]
      · simp [insert, hj, ih]

/-- A key that is present is overwritten where it stands, before or after another key. -/
theorem insert_comm_of_mem {m : Assoc κ α} {k : κ} (hk : k ∈ m.keys) {j : κ} (hne : j ≠ k)
    (a b : α) : (m.insert j b).insert k a = (m.insert k a).insert j b := by
  induction m with
  | nil => cases hk
  | cons p m ih =>
      obtain ⟨i, c⟩ := p
      by_cases hik : i = k
      · subst hik
        simp [insert, hne.symm]
      · have hm : k ∈ keys m := (List.mem_cons.1 hk).resolve_left (Ne.symm hik)
        by_cases hij : i = j
        · subst hij
          simp [insert, hik]
        · simp [insert, hik, hij, ih hm]

/-- A key that is present is overwritten where it stands, before or after other keys. -/
theorem insertAll_insert_of_mem {m : Assoc κ α} {k : κ} (hk : k ∈ m.keys)
    {ps : List (κ × α)} (hps : k ∉ keys ps) (a : α) :
    (m.insertAll ps).insert k a = (m.insert k a).insertAll ps := by
  induction ps generalizing m with
  | nil => rfl
  | cons p ps ih =>
      obtain ⟨j, b⟩ := p
      obtain ⟨hj, hps⟩ := not_or.1 (mt List.mem_cons.2 hps)
      calc ((m.insert j b).insertAll ps).insert k a
          = ((m.insert j b).insert k a).insertAll ps := ih (mem_keys_insert b hk) hps
        _ = ((m.insert k a).insert j b).insertAll ps := by
            rw [insert_comm_of_mem hk (Ne.symm hj)]

/-- Inserting a map with one more pair is inserting the map and then the pair. -/
theorem insertAll_insert {n : Assoc κ α} (hn : n.keys.Nodup) (m : Assoc κ α) (k : κ) (a : α) :
    m.insertAll (n.insert k a) = (m.insertAll n).insert k a := by
  induction n generalizing m with
  | nil => rfl
  | cons p n ih =>
      obtain ⟨j, b⟩ := p
      obtain ⟨hj, hn⟩ := List.nodup_cons.1 hn
      by_cases hjk : j = k
      · subst hjk
        -- the key is overwritten, and the rest of the map leaves it alone
        calc m.insertAll (insert ((j, b) :: n) j a)
            = (m.insert j a).insertAll n := by rw [insert, if_pos rfl]; rfl
          _ = ((m.insert j b).insert j a).insertAll n := by rw [insert_insert_self]
          _ = ((m.insert j b).insertAll n).insert j a :=
              (insertAll_insert_of_mem (mem_keys_insert_self m j b) hj a).symm
      · rw [insert, if_neg hjk]
        exact ih hn (m.insert j b)

/-- Inserting a map and what was inserted into it is inserting both. -/
theorem insertAll_insertAll {n : Assoc κ α} (hn : n.keys.Nodup) (m : Assoc κ α)
    (ps : List (κ × α)) : m.insertAll (n.insertAll ps) = (m.insertAll n).insertAll ps := by
  induction ps generalizing n with
  | nil => rfl
  | cons p ps ih =>
      calc m.insertAll ((n.insert p.1 p.2).insertAll ps)
          = (m.insertAll (n.insert p.1 p.2)).insertAll ps := ih (nodup_keys_insert hn p.1 p.2)
        _ = ((m.insertAll n).insert p.1 p.2).insertAll ps := by rw [insertAll_insert hn]

/-- It makes no difference whether pairs are inserted as they come or collected first. -/
theorem insertAll_ofPairs (m : Assoc κ α) (ps : List (κ × α)) :
    m.insertAll (ofPairs ps) = m.insertAll ps :=
  insertAll_insertAll (n := []) List.nodup_nil m ps

/-! ## Keys and values -/

/-- The keys of inserted pairs stand in the order of their first mention. -/
theorem keys_ofPairs (ps : List (κ × α)) : (ofPairs ps).keys = (keys ps).eraseDups := by
  induction ps using List.reverseRecOn with
  | nil => rfl
  | append_singleton ps p ih =>
      obtain ⟨k, a⟩ := p
      have hkeys : keys (ps ++ [(k, a)]) = keys ps ++ [k] := List.map_append
      have hofPairs : ofPairs (ps ++ [(k, a)]) = (ofPairs ps).insert k a :=
        insertAll_append [] ps [(k, a)]
      rw [hofPairs, hkeys, List.eraseDups_append]
      by_cases hk : k ∈ keys ps
      · rw [keys_insert_of_mem (by rwa [ih, List.mem_eraseDups]), ih]
        simp [List.removeAll, hk]
      · rw [keys_insert_of_not_mem (by rwa [ih, List.mem_eraseDups]), ih]
        simp [List.removeAll, hk, List.eraseDups_cons]

/-- The value of inserted pairs under a key is the last one given. -/
theorem get?_ofPairs (ps : List (κ × α)) (k : κ) : (ofPairs ps).get? k = get? ps.reverse k := by
  induction ps using List.reverseRecOn with
  | nil => rfl
  | append_singleton ps p ih =>
      have hofPairs : ofPairs (ps ++ [p]) = (ofPairs ps).insert p.1 p.2 :=
        insertAll_append [] ps [p]
      rw [hofPairs, get?_insert, ih, List.reverse_concat, get?_cons]

/-- Of what is inserted the last counts, and then what was there. -/
theorem get?_insertAll (m : Assoc κ α) (ps : List (κ × α)) (k : κ) :
    (m.insertAll ps).get? k = ((ofPairs ps).get? k).or (m.get? k) := by
  induction ps using List.reverseRecOn with
  | nil => rfl
  | append_singleton ps p ih =>
      have hlast : ∀ n : Assoc κ α, (n.insertAll (ps ++ [p])).get? k =
          if p.1 = k then some p.2 else (n.insertAll ps).get? k := by
        intro n
        rw [insertAll_append]
        exact get?_insert _ _ _ _
      rw [ofPairs, hlast, hlast, ih]
      split
      · rfl
      · rfl

/-- Pairs with distinct keys are a map as they stand. -/
theorem ofPairs_eq_self {m : Assoc κ α} (hm : m.keys.Nodup) : ofPairs m = m :=
  insertAll_of_nodup (m := []) hm

/-- The keys of a map that is inserted go to the end, in order, those that are there apart. -/
theorem keys_insertAll (m : Assoc κ α) {n : Assoc κ α} (hn : n.keys.Nodup) :
    (m.insertAll n).keys = m.keys ++ n.keys.filter fun k => !m.keys.contains k := by
  induction n using List.reverseRecOn with
  | nil => exact (List.append_nil _).symm
  | append_singleton n p ih =>
      obtain ⟨k, a⟩ := p
      have hkeys : keys (n ++ [(k, a)]) = keys n ++ [k] := List.map_append
      rw [hkeys] at hn ⊢
      obtain ⟨hn, -, hnew⟩ := List.nodup_append.1 hn
      have hk : k ∉ keys n := fun h => hnew k h k (List.mem_singleton_self k) rfl
      have hmem : k ∈ (m.insertAll n).keys ↔ k ∈ m.keys := by
        rw [ih hn]
        simp [hk]
      have hinsert : m.insertAll (n ++ [(k, a)]) = (m.insertAll n).insert k a :=
        insertAll_append m n [(k, a)]
      rw [hinsert]
      by_cases hold : k ∈ m.keys
      · rw [keys_insert_of_mem (hmem.2 hold), ih hn]
        simp [hold]
      · rw [keys_insert_of_not_mem (mt hmem.1 hold), ih hn]
        simp [hold]

theorem get?_ofPairs_append (ps qs : List (κ × α)) (k : κ) :
    (ofPairs (ps ++ qs)).get? k = ((ofPairs qs).get? k).or ((ofPairs ps).get? k) := by
  rw [ofPairs, insertAll_append, get?_insertAll]
  rfl

/-! ## Related maps -/

section Related

variable {β : Type} {R : α → β → Prop} {m : Assoc κ α} {n : Assoc κ β}

omit [DecidableEq κ] in
/-- Two maps have the same keys in the same order, with related contents. -/
def Related (R : α → β → Prop) (m : Assoc κ α) (n : Assoc κ β) : Prop :=
  List.Forall₂ (fun e f => e.1 = f.1 ∧ R e.2 f.2) m n

/-- Related contents inserted under one key. -/
theorem Related.insert (h : m.Related R n) (k : κ) {a : α} {b : β} (hab : R a b) :
    (m.insert k a).Related R (n.insert k b) := by
  rw [Related] at h
  induction h with
  | nil => exact .cons ⟨rfl, hab⟩ .nil
  | @cons e f m n he hrest ih =>
      obtain ⟨j, u⟩ := e
      obtain ⟨j', y⟩ := f
      obtain ⟨hj, hy⟩ := he
      dsimp only at hj hy
      subst hj
      simp only [Assoc.insert]
      by_cases hk : j = k
      · simp only [hk, if_true]
        exact .cons ⟨rfl, hab⟩ hrest
      · simp only [hk, if_false]
        exact .cons ⟨rfl, hy⟩ ih

/-- Related pairs inserted one after another. -/
theorem Related.insertAll {pairs : Assoc κ α} {pairs' : Assoc κ β} (h : m.Related R n)
    (hpairs : pairs.Related R pairs') : (m.insertAll pairs).Related R (n.insertAll pairs') := by
  rw [Related] at hpairs
  induction hpairs generalizing m n with
  | nil => exact h
  | @cons e f pairs pairs' he hrest ih =>
      obtain ⟨k, a⟩ := e
      obtain ⟨k', b⟩ := f
      obtain ⟨rfl, hab⟩ := he
      exact ih (h.insert k hab)

omit [DecidableEq κ] in
/-- Related maps have the same keys. -/
theorem Related.keys_eq (h : m.Related R n) : m.keys = n.keys := by
  rw [Related] at h
  induction h with
  | nil => rfl
  | cons he _ ih =>
      rw [keys, keys, List.map_cons, List.map_cons, he.1]
      exact congrArg _ ih

/-- Related maps have related contents under each key. -/
theorem Related.get? (h : m.Related R n) (k : κ) :
    Option.Rel R (m.get? k) (n.get? k) := by
  rw [Related] at h
  induction h with
  | nil => exact .none
  | @cons e f m n he _ ih =>
      obtain ⟨j, a⟩ := e
      obtain ⟨j', b⟩ := f
      obtain ⟨rfl, hab⟩ := he
      rw [get?_cons, get?_cons]
      split
      · exact .some hab
      · exact ih

end Related

end Assoc

/-! ## Bindings and objects -/

/-- Inserting pairs one after another. -/
theorem Bindings.entries_foldl_insert (b : Bindings) (ps : List (Key × Value)) :
    (ps.foldl (fun b p => b.insert p.1 p.2) b).entries = b.entries.insertAll ps := by
  induction ps generalizing b with
  | nil => rfl
  | cons p ps ih => exact ih (b.insert p.1 p.2)

/-- Merging inserts all bindings. -/
theorem Bindings.entries_merge (b d : Bindings) :
    (b.merge d).entries = b.entries.insertAll d.entries := by
  rw [Bindings.merge]
  split
  · rename_i hempty
    rw [List.isEmpty_iff.1 hempty]
    exact (Assoc.insertAll_of_nodup (m := []) d.nodup).symm
  · rfl

/-- Merging nothing changes nothing. -/
theorem Bindings.merge_empty (b : Bindings) : b.merge .empty = b := by
  obtain ⟨entries, nodup⟩ := b
  cases entries <;> rfl

/-- Adding properties changes nothing but the properties. -/
theorem Object.addAll_eq (o : Object) (ps : List (Key × Property)) :
    o.addAll ps =
      { o with
        properties := o.properties.insertAll ps
        nodup := Assoc.nodup_keys_insertAll o.nodup ps } := by
  induction ps generalizing o with
  | nil => rfl
  | cons p ps ih => exact ih (o.add p.1 p.2)

/-- Where keys are distinct, adding fields one after another is listing them. -/
theorem Object.addAll_fields {es : List (Key × Value)} (hes : (Assoc.keys es).Nodup) :
    addAll {} (es.map fun e => (e.1, .field e.2)) = ofFields es hes := by
  have hall : Assoc.insertAll [] (ofFields es hes).properties = (ofFields es hes).properties :=
    Assoc.insertAll_of_nodup (m := []) (ofFields es hes).nodup
  rw [addAll_eq]
  exact Object.ext rfl hall rfl rfl

end StructuralMatch
