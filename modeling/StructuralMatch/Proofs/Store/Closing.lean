import StructuralMatch.Proofs.Store.Polling

/-! # An iterator is closed once

    Closing an iterator that is open records it, and an iterator that is closed is
    left alone.  So the trace and the cells are in balance: the trace shows that an
    iterator was closed once if its cell is closed, and never if it is not
    (`Reaches.balanced`). -/

namespace StructuralMatch.Store

variable {P : Event → Prop} {σ τ : Store}

/-- Whether an iterator is closed. -/
def isClosed (σ : Store) (i : Nat) : Bool := σ.iterators[i]?.any (·.closed)

/-- How often an iterator was closed. -/
def closings (σ : Store) (i : Nat) : Nat := σ.events.count (.closed i)

/-- An iterator that is there is as closed as its cell. -/
theorem isClosed_of_getElem? {i : Nat} {it : Iterator} (here : σ.iterators[i]? = some it) :
    σ.isClosed i = it.closed := by
  rw [isClosed, here, Option.any_some]

/-- An iterator that is closed stays closed. -/
theorem Keeps.isClosed_of_isClosed (hk : σ.Keeps τ) {i : Nat} (h : σ.isClosed i = true) :
    τ.isClosed i = true := by
  cases here : σ.iterators[i]? with
  | none => simp [isClosed, here] at h
  | some it =>
      obtain ⟨it', here', hkeeps⟩ := hk.iterators here
      rw [isClosed_of_getElem? here] at h
      rw [isClosed_of_getElem? here', hkeeps.closed h]

/-! ## The balance of the trace and the cells -/

/-- The trace shows of every iterator whether it is closed, and that it was closed once. -/
def Balanced (σ : Store) : Prop := ∀ i : Nat, σ.closings i = (σ.isClosed i).toNat

/-- Replacing an iterator that is there decides whether it is closed. -/
theorem isClosed_setIterator {i : Nat} {it : Iterator} (here : σ.iterators[i]? = some it)
    (it' : Iterator) (j : Nat) :
    (σ.setIterator i it').isClosed j = if i = j then it'.closed else σ.isClosed j := by
  have hi : i < σ.iterators.size := (Array.getElem?_eq_some_iff.1 here).1
  by_cases hij : i = j
  · subst hij
    simp [isClosed, setIterator, hi]
  · rw [if_neg hij, isClosed, getElem?_setIterator_of_ne hij, isClosed]

theorem isClosed_record (e : Event) (i : Nat) : (σ.record e).isClosed i = σ.isClosed i := rfl

/-- An event adds to the closings of an iterator only if it is one. -/
theorem closings_of_events {e : Event} (h : τ.events = σ.events ++ [e]) (i : Nat) :
    τ.closings i = σ.closings i + if e = .closed i then 1 else 0 := by
  rw [closings, h, List.count_append, closings, List.count_singleton]
  simp

/-- An event that is no closing leaves the balance alone. -/
theorem Balanced.of_events {e : Event} (hσ : σ.Balanced) (h : τ.events = σ.events ++ [e])
    (he : ∀ i, e ≠ .closed i) (hsame : ∀ i, τ.isClosed i = σ.isClosed i) : τ.Balanced := by
  intro i
  rw [closings_of_events h, if_neg (he i), hsame, hσ i, Nat.add_zero]

/-- A change keeps the balance. -/
theorem Change.balanced (h : Change P σ τ) (hσ : σ.Balanced) : τ.Balanced := by
  cases h with
  | iterator it fresh =>
      intro i
      have hold := hσ i
      show σ.closings i = _
      rw [hold, isClosed, isClosed, newIterator, Array.getElem?_push]
      by_cases hi : i = σ.iterators.size
      · subst hi
        simp [fresh.2]
      · rw [if_neg hi]
  | startGetter cell g allowed =>
      exact hσ.of_events (events_startGetter σ cell g) (by simp) fun _ => rfl
  | startFactory cell f iterable allowed =>
      exact hσ.of_events (events_startFactory σ cell f iterable) (by simp)
        fun _ => rfl
  | poll i it output rest here live allowed =>
      -- a poll may drop the source, but it does not close the iterator
      have hafter : (it.after output rest).closed = it.closed := by cases output <;> rfl
      refine hσ.of_events (events_record _ _) (by simp) ?_
      intro j
      rw [isClosed_record, isClosed_setIterator here, hafter]
      by_cases hij : i = j
      · subst hij
        rw [if_pos rfl, isClosed_of_getElem? here]
      · rw [if_neg hij]
  | close i it here isOpen allowed =>
      intro j
      have hevents : ((σ.setIterator i { it with source := none, closed := true }).record
          (.closed i)).events = σ.events ++ [.closed i] := events_record _ _
      rw [closings_of_events hevents, isClosed_record, isClosed_setIterator here, hσ j]
      by_cases hij : i = j
      · subst hij
        simp [isClosed_of_getElem? here, isOpen]
      · simp [hij]
  | remark e isRemark allowed =>
      refine hσ.of_events (events_record σ e) ?_ fun _ => rfl
      rintro i rfl
      exact isRemark
  | _ => exact hσ

/-- A run keeps the balance. -/
theorem Reaches.balanced (h : σ.Reaches P τ) (hσ : σ.Balanced) : τ.Balanced := by
  induction h with
  | refl => exact hσ
  | tail _ last ih => exact last.balanced ih

/-- The store in which nothing has been made. -/
theorem balanced_empty : empty.Balanced := fun _ => rfl

/-! ## Closing one iterator -/

/-- Closing an iterator that is there says whether it was open. -/
theorem close_fst {i : Nat} (hi : i < σ.iterators.size) : (σ.close i).1 = !σ.isClosed i := by
  have here := Array.getElem?_eq_getElem hi
  rw [isClosed_of_getElem? here, close, here]
  cases h : σ.iterators[i].closed <;> simp [h]

/-- Closing an iterator that is there leaves it closed. -/
theorem isClosed_close {i : Nat} (hi : i < σ.iterators.size) :
    (σ.close i).2.isClosed i = true := by
  have here := Array.getElem?_eq_getElem hi
  rw [close, here]
  cases h : σ.iterators[i].closed with
  | true => simp [h, isClosed_of_getElem? here]
  | false =>
      simp only [h, Bool.false_eq_true, if_false]
      rw [isClosed_record, isClosed_setIterator here, if_pos rfl]

/-- Closing an iterator that is there records it, if it was open. -/
theorem events_close {i : Nat} (hi : i < σ.iterators.size) :
    (σ.close i).2.events = σ.events ++ if σ.isClosed i then [] else [.closed i] := by
  have here := Array.getElem?_eq_getElem hi
  rw [isClosed_of_getElem? here, close, here]
  cases h : σ.iterators[i].closed <;> simp [h]

/-- Closing an iterator leaves the others alone. -/
theorem getElem?_close_of_ne {i j : Nat} (hij : i ≠ j) :
    (σ.close i).2.iterators[j]? = σ.iterators[j]? := by
  rw [close]
  split
  · rfl
  · split
    · rfl
    · exact getElem?_setIterator_of_ne hij _

end StructuralMatch.Store
