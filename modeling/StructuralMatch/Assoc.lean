/-! # Association lists in order of first mention

    Properties, bindings, pattern entries and the tables of a cache are all
    finite maps whose order can be observed.  They are kept as lists of pairs:
    a new key goes to the end, a repeated key is overwritten where it stands.
    Each operation is pinned down by what it does to `get?` and to `keys`. -/

namespace StructuralMatch

/-- Pairs in the order in which their keys were first mentioned. -/
abbrev Assoc (κ α : Type) := List (κ × α)

namespace Assoc

variable {κ α β : Type} [DecidableEq κ]

/-! ## Operations -/

/-- The value of the first pair whose key is `k`. -/
def get? : Assoc κ α → κ → Option α
  | [], _ => none
  | (k', a) :: m, k => if k' = k then some a else get? m k

/-- Overwrite the value of `k` in place, or append the pair. -/
def insert : Assoc κ α → κ → α → Assoc κ α
  | [], k, a => [(k, a)]
  | (k', a') :: m, k, a =>
      if k' = k then (k', a) :: m else (k', a') :: insert m k a

/-- The keys, in order. -/
def keys (m : Assoc κ α) : List κ := m.map Prod.fst

/-- Whether some pair has the key `k`. -/
def contains (m : Assoc κ α) (k : κ) : Bool := (m.get? k).isSome

/-- Insert the pairs one after another. -/
def insertAll (m : Assoc κ α) (pairs : List (κ × α)) : Assoc κ α :=
  pairs.foldl (fun acc p => acc.insert p.1 p.2) m

/-- The map that the pairs describe, later pairs winning. -/
def ofPairs (pairs : List (κ × α)) : Assoc κ α := insertAll [] pairs

/-! ## Looking up -/

@[simp] theorem get?_nil (k : κ) : get? ([] : Assoc κ α) k = none := rfl

@[simp] theorem get?_cons (k' : κ) (a : α) (m : Assoc κ α) (k : κ) :
    get? ((k', a) :: m) k = if k' = k then some a else get? m k := rfl

omit [DecidableEq κ] in
@[simp] theorem keys_nil : keys ([] : Assoc κ α) = [] := rfl

omit [DecidableEq κ] in
@[simp] theorem keys_cons (k : κ) (a : α) (m : Assoc κ α) :
    keys ((k, a) :: m) = k :: keys m := rfl

/-- The inserted key holds the inserted value; every other key keeps its own. -/
@[simp] theorem get?_insert (m : Assoc κ α) (k : κ) (a : α) (k' : κ) :
    (m.insert k a).get? k' = if k = k' then some a else m.get? k' := by
  induction m with
  | nil => rfl
  | cons p m ih =>
      obtain ⟨j, b⟩ := p
      by_cases hj : j = k
      · subst hj
        by_cases hk : j = k' <;> simp [insert, hk]
      · by_cases hk : j = k'
        · subst hk
          simp [insert, hj, Ne.symm hj]
        · simp [insert, hj, hk, ih]

/-- A key is found exactly when it is one of the keys. -/
theorem get?_isSome_iff (m : Assoc κ α) (k : κ) :
    (m.get? k).isSome ↔ k ∈ m.keys := by
  induction m with
  | nil => simp
  | cons p m ih =>
      obtain ⟨j, b⟩ := p
      by_cases hj : j = k
      · simp [hj]
      · simp [hj, Ne.symm hj, ih]

/-- A pair that is found is one of the pairs. -/
theorem mem_of_get?_eq_some {m : Assoc κ α} {k : κ} {a : α} (h : m.get? k = some a) :
    (k, a) ∈ m := by
  induction m with
  | nil => nomatch h
  | cons p m ih =>
      obtain ⟨j, b⟩ := p
      rw [get?_cons] at h
      split at h
      · rename_i hj
        rw [← hj, ← Option.some.inj h]
        exact List.mem_cons_self ..
      · exact List.mem_cons_of_mem _ (ih h)

/-- Where keys are distinct every pair is found. -/
theorem get?_eq_some_of_mem {m : Assoc κ α} {k : κ} {a : α} (hm : m.keys.Nodup)
    (h : (k, a) ∈ m) : m.get? k = some a := by
  induction m with
  | nil => nomatch h
  | cons p m ih =>
      obtain ⟨j, b⟩ := p
      obtain ⟨hj, hm⟩ := List.nodup_cons.1 hm
      rcases List.mem_cons.1 h with heq | htail
      · cases heq
        exact if_pos rfl
      · have hk : k ∈ keys m := List.mem_map_of_mem htail
        have hne : j ≠ k := fun e => hj (e ▸ hk)
        rw [get?_cons, if_neg hne]
        exact ih hm htail

/-! ## Keys after an insertion -/

/-- Inserting a key that is present leaves the keys as they are. -/
theorem keys_insert_of_mem {m : Assoc κ α} {k : κ} (h : k ∈ m.keys) (a : α) :
    (m.insert k a).keys = m.keys := by
  induction m with
  | nil => simp at h
  | cons p m ih =>
      obtain ⟨j, b⟩ := p
      by_cases hj : j = k
      · simp [insert, hj]
      · have hm : k ∈ keys m := by
          simpa [Ne.symm hj] using h
        simp [insert, hj, ih hm]

/-- A new key goes to the end. -/
theorem insert_of_not_mem {m : Assoc κ α} {k : κ} (h : k ∉ m.keys) (a : α) :
    m.insert k a = m ++ [(k, a)] := by
  induction m with
  | nil => rfl
  | cons p m ih =>
      obtain ⟨j, b⟩ := p
      have hj : j ≠ k := fun e => h (by simp [e])
      have hm : k ∉ keys m := fun e => h (by simp [e])
      simp [insert, hj, ih hm]

/-- Inserting a new key puts it last. -/
theorem keys_insert_of_not_mem {m : Assoc κ α} {k : κ} (h : k ∉ m.keys) (a : α) :
    (m.insert k a).keys = m.keys ++ [k] := by
  rw [insert_of_not_mem h, keys, List.map_append]
  rfl

omit [DecidableEq κ] in
/-- Other values leave the keys as they are. -/
theorem keys_map (m : Assoc κ α) (f : κ × α → β) :
    keys (m.map fun p => (p.1, f p)) = m.keys := by
  rw [keys, List.map_map]
  rfl

omit [DecidableEq κ] in
/-- Leaving out pairs keeps the keys distinct. -/
theorem nodup_keys_filter {m : Assoc κ α} (h : m.keys.Nodup) (q : κ × α → Bool) :
    (keys (m.filter q)).Nodup :=
  h.sublist (List.filter_sublist.map _)

/-- Insertion keeps the keys distinct. -/
theorem nodup_keys_insert {m : Assoc κ α} (h : m.keys.Nodup) (k : κ) (a : α) :
    (m.insert k a).keys.Nodup := by
  by_cases hk : k ∈ m.keys
  · rw [keys_insert_of_mem hk]
    exact h
  · rw [keys_insert_of_not_mem hk]
    exact List.nodup_append.2 ⟨h, by simp, by
      intro x hx y hy e
      simp only [List.mem_singleton] at hy
      exact hk (hy ▸ e ▸ hx)⟩

/-- Inserting pairs keeps the keys distinct. -/
theorem nodup_keys_insertAll {m : Assoc κ α} (h : m.keys.Nodup)
    (pairs : List (κ × α)) : (m.insertAll pairs).keys.Nodup := by
  induction pairs generalizing m with
  | nil => exact h
  | cons p pairs ih => exact ih (nodup_keys_insert h p.1 p.2)

end Assoc

end StructuralMatch
