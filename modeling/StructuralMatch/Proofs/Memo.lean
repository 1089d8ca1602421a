import Mathlib
import StructuralMatch.Cache

/-! # What a memo stands for

    A memo keeps the values of an iterator in two places and can note completion in
    two ways: as a last positional step, or by being drained.  All forms stand for
    one thing, the values so far and whether they are all (`Memo.Stands`), and a
    reader of the memo cannot tell them apart: `Stands.at?_eq` for positional
    reads, `Stands.drop_eq` for drains.

    Values in the tail of a memo that is not drained exist only while a drain is
    going on.  Between operations memos are settled. -/

namespace StructuralMatch

namespace Step

/-- The steps of an iterator that yields the values, with completion if they are all. -/
def run (vs : List Value) (ended : Bool) : List Step :=
  vs.map .yielded ++ if ended then [.done] else []

theorem run_false (vs : List Value) : run vs false = vs.map .yielded := List.append_nil _

theorem run_true (vs : List Value) : run vs true = vs.map .yielded ++ [.done] := rfl

/-- One more step of a run that has not ended. -/
theorem run_concat (vs : List Value) (step : Step) :
    run vs false ++ [step] = run (vs ++ step.value?.toList) step.isDone := by
  cases step with
  | yielded v => simp [run, value?]
  | done => simp [run, value?]

/-- The values of a run. -/
@[simp] theorem filterMap_run (vs : List Value) (ended : Bool) :
    (run vs ended).filterMap value? = vs := by
  have hvalues : (vs.map yielded).filterMap value? = vs := by
    rw [List.filterMap_map]
    exact List.filterMap_some
  cases ended with
  | false => rw [run_false, hvalues]
  | true => rw [run_true, List.filterMap_append, hvalues]; exact List.append_nil vs

/-- A run has ended exactly when it contains a completion. -/
theorem done_mem_run (vs : List Value) (ended : Bool) : done ∈ run vs ended ↔ ended = true := by
  cases ended <;> simp [run]

/-- How many steps a run has. -/
theorem length_run (vs : List Value) (ended : Bool) :
    (run vs ended).length = vs.length + if ended then 1 else 0 := by
  cases ended <;> simp [run]

/-- Up to the end of its values, a run is determined by them. -/
theorem getElem?_run {vs : List Value} {ended : Bool} {p : Nat} (hp : p < vs.length) :
    (run vs ended)[p]? = some (.yielded vs[p]) := by
  rw [run, List.getElem?_append_left (by simpa using hp), List.getElem?_map,
    List.getElem?_eq_getElem hp, Option.map_some]

/-- Behind its values, a run tells whether it has ended. -/
theorem getElem?_run_length (vs : List Value) (ended : Bool) :
    (run vs ended)[vs.length]? = if ended then some .done else none := by
  rw [run, List.getElem?_append_right (by simp)]
  cases ended <;> simp

/-- What a run tells of a position: its value, or completion behind all values. -/
def told (vs : List Value) (ended : Bool) (p : Nat) : Option Step :=
  match vs[p]? with
  | some v => some (.yielded v)
  | none => if ended then some .done else none

/-- Up to the end of its values, a run tells its steps. -/
theorem told_eq_run {vs : List Value} {ended : Bool} {p : Nat} (hp : p ≤ vs.length) :
    told vs ended p = (run vs ended)[p]? := by
  rcases Nat.eq_or_lt_of_le hp with rfl | hlt
  · rw [getElem?_run_length, told, List.getElem?_eq_none (Nat.le_refl _)]
  · rw [getElem?_run hlt, told, List.getElem?_eq_getElem hlt]

/-- A run tells something of a position exactly when it has ended or reaches beyond it. -/
theorem isSome_told {vs : List Value} {ended : Bool} {p : Nat} :
    (told vs ended p).isSome ↔ ended = true ∨ p < vs.length := by
  rw [told]
  by_cases hp : p < vs.length
  · simp [hp]
  · rw [List.getElem?_eq_none (Nat.le_of_not_lt hp)]
    cases ended <;> simp [hp]

/-- A run that tells nothing of a position waits for more and has not reached it. -/
theorem told_eq_none {vs : List Value} {ended : Bool} {p : Nat} (h : told vs ended p = none) :
    ended = false ∧ vs.length ≤ p := by
  have hnot : ¬(ended = true ∨ p < vs.length) := by
    rw [← isSome_told, h]
    simp
  simpa using hnot

/-- Longer runs have more values. -/
theorem values_extend {vs ws : List Value} {ended ended' : Bool}
    (h : run vs ended <+: run ws ended') : vs <+: ws := by
  have hvalues := h.filterMap value?
  rwa [filterMap_run, filterMap_run] at hvalues

/-- The value at a position of a run. -/
theorem getElem?_of_run_yielded {vs : List Value} {ended : Bool} {p : Nat} {x : Value}
    (h : (run vs ended)[p]? = some (.yielded x)) : vs[p]? = some x := by
  by_cases hp : p < vs.length
  · rw [getElem?_run hp, Option.some.injEq, yielded.injEq] at h
    rw [List.getElem?_eq_getElem hp, h]
  · rw [run, List.getElem?_append_right (by simpa using hp)] at h
    cases ended with
    | false => cases h
    | true =>
        have hmem := List.mem_of_getElem? h
        simp at hmem

/-- A completion stands behind all values of a run. -/
theorem eq_length_of_run_done {vs : List Value} {ended : Bool} {p : Nat}
    (h : (run vs ended)[p]? = some .done) : p = vs.length ∧ ended = true := by
  have hended := (done_mem_run vs ended).1 (List.mem_of_getElem? h)
  subst hended
  have hlt := (List.getElem?_eq_some_iff.1 h).1
  rw [length_run] at hlt
  refine ⟨?_, rfl⟩
  by_cases hp : p < vs.length
  · rw [getElem?_run hp] at h
    cases h
  · simp at hlt
    omega

/-- A step of a run that begins a list of values, or is all of it, is that of the list. -/
theorem eq_ofOption_of_run {vs all : List Value} {ended : Bool} {p : Nat} {step : Step}
    (hfound : (run vs ended)[p]? = some step) (hextends : vs <+: all)
    (hall : ended = true → vs = all) : step = .ofOption all[p]? := by
  cases step with
  | yielded x =>
      have hget := getElem?_of_run_yielded hfound
      obtain ⟨rest, rfl⟩ := hextends
      rw [List.getElem?_append_left (List.getElem?_eq_some_iff.1 hget).1, hget]
      rfl
  | done =>
      obtain ⟨rfl, hended⟩ := eq_length_of_run_done hfound
      rw [hall hended, List.getElem?_eq_none (Nat.le_refl _)]
      rfl

/-- A run that has ended gets no longer. -/
theorem eq_of_extends {vs ws : List Value} {ended : Bool} (h : run vs true <+: run ws ended) :
    vs = ws ∧ ended = true := by
  have hdone : (run vs true)[vs.length]? = some .done := getElem?_run_length vs true
  obtain ⟨rest, hrest⟩ := h
  have hlt := (List.getElem?_eq_some_iff.1 hdone).1
  rw [← List.getElem?_append_left hlt, hrest] at hdone
  obtain ⟨hlength, hended⟩ := eq_length_of_run_done hdone
  exact ⟨(values_extend ⟨rest, hrest⟩).eq_of_length hlength, hended⟩

/-- Nothing follows the completion of a run. -/
theorem eq_nil_of_run_append {vs : List Value} {ended : Bool} {steps more : List Step}
    (h : steps ++ more = run vs ended) (hdone : done ∈ steps) : more = [] := by
  obtain ⟨p, hp⟩ := List.mem_iff_getElem?.1 hdone
  have hlt := (List.getElem?_eq_some_iff.1 hp).1
  -- a completion stands at the very end
  rw [← List.getElem?_append_left hlt, h] at hp
  obtain ⟨rfl, rfl⟩ := eq_length_of_run_done hp
  have hlength := congrArg List.length h
  rw [List.length_append, length_run, if_pos rfl] at hlength
  exact List.eq_nil_of_length_eq_zero (by omega)

/-- What a run tells, longer runs tell as well. -/
theorem told_extends {vs ws : List Value} {ended ended' : Bool} {p : Nat} {step : Step}
    (hextends : run vs ended <+: run ws ended') (h : told vs ended p = some step) :
    told ws ended' p = some step := by
  cases ended with
  | true =>
      obtain ⟨rfl, rfl⟩ := eq_of_extends hextends
      exact h
  | false =>
      -- the run has not ended, so it told a value of its own
      have hp : p < vs.length := by
        rcases isSome_told.1 (Option.isSome_of_eq_some h) with hended | hp
        · cases hended
        · exact hp
      obtain ⟨rest, hrest⟩ := values_extend hextends
      rw [told, List.getElem?_eq_getElem hp] at h
      rw [told, ← hrest, List.getElem?_append_left hp, List.getElem?_eq_getElem hp]
      exact h

end Step

namespace Memo

/-- The values before a completion. -/
theorem valuesOf_run (vs : List Value) (ended : Bool) : valuesOf (Step.run vs ended) = vs := by
  have htake : (Step.run vs ended).takeWhile (fun s => !s.isDone) = vs.map .yielded := by
    induction vs with
    | nil => cases ended <;> rfl
    | cons v vs ih =>
        rw [Step.run, List.map_cons, List.cons_append, List.takeWhile_cons_of_pos rfl]
        exact congrArg _ ih
  rw [valuesOf, htake, ← Step.run_false, Step.filterMap_run]

/-- A memo stands for the values so far and for whether they are all. -/
inductive Stands : Memo → List Value → Bool → Prop where
  | going (vs tail : List Value) : Stands ⟨vs.map .yielded, tail, false⟩ (vs ++ tail) false
  | stepped (vs : List Value) : Stands ⟨vs.map .yielded ++ [.done], [], false⟩ vs true
  | drained (vs tail : List Value) : Stands ⟨vs.map .yielded, tail, true⟩ (vs ++ tail) true

/-- No drain is going on. -/
def Settled (m : Memo) : Prop := m.drained = false → m.tail = []

variable {m : Memo} {vs : List Value} {ended : Bool}

theorem stands_empty : Stands {} [] false := .going [] []

theorem settled_empty : Settled {} := fun _ => rfl

/-- A memo is exhausted exactly when its values are all. -/
theorem Stands.exhausted_eq (h : m.Stands vs ended) : m.exhausted = ended := by
  cases h with
  | going vs tail =>
      cases hlast : (vs.map Step.yielded).getLast? with
      | none => simp [exhausted, hlast]
      | some step =>
          obtain ⟨v, -, rfl⟩ := List.mem_map.1 (List.mem_of_getLast? hlast)
          simp [exhausted, hlast]
  | stepped vs => simp [exhausted]
  | drained vs tail => rfl

/-- A memo that waits for values knows as many as it has steps and tail. -/
theorem Stands.length_eq (h : m.Stands vs false) : m.steps.length + m.tail.length = vs.length := by
  cases h with
  | going vs tail => simp

/-- A settled memo that waits for values knows as many as it has steps. -/
theorem Stands.length_eq_of_settled (h : m.Stands vs false) (hm : m.Settled) :
    m.steps.length = vs.length := by
  cases h with
  | going vs tail =>
      have htail : tail = [] := hm rfl
      subst htail
      simp

/-- The positional steps are themselves a run. -/
theorem Stands.steps_eq (h : m.Stands vs ended) : ∃ ws ended', m.steps = Step.run ws ended' := by
  cases h with
  | going vs tail => exact ⟨vs, false, (Step.run_false vs).symm⟩
  | stepped vs => exact ⟨vs, true, rfl⟩
  | drained vs tail => exact ⟨vs, false, (Step.run_false vs).symm⟩

/-! ## Reading -/

/-- A positional read finds the value at its position, or the completion behind all values. -/
theorem Stands.at?_eq_told (h : m.Stands vs ended) (hm : m.Settled) (p : Nat) :
    m.at? p = Step.told vs ended p := by
  have hexhausted := h.exhausted_eq
  cases h with
  | going vs tail =>
      have htail : tail = [] := hm rfl
      subst htail
      rw [at?, hexhausted, Step.told, List.append_nil, List.getElem?_map]
      cases vs[p]? <;> rfl
  | stepped vs =>
      rw [at?, hexhausted, Step.told]
      by_cases hp : p < vs.length
      · rw [List.getElem?_append_left (by simpa using hp), List.getElem?_map,
          List.getElem?_eq_getElem hp]
        rfl
      · -- the completion is the last step, and behind it the memo answers the same
        have hvs : vs[p]? = none := List.getElem?_eq_none (Nat.le_of_not_lt hp)
        rw [hvs]
        cases hget : (vs.map Step.yielded ++ [.done])[p]? with
        | none => simp [Step.ofOption]
        | some step =>
            rw [List.getElem?_append_right (by simpa using hp)] at hget
            have hdone := List.mem_singleton.1 (List.mem_of_getElem? hget)
            rw [hdone]
            rfl
  | drained vs tail =>
      rw [at?, hexhausted, Step.told]
      by_cases hp : p < vs.length
      · rw [List.getElem?_append_left hp, List.getElem?_map, List.getElem?_eq_getElem hp]
        rfl
      · -- behind the steps the tail answers, and behind the tail the completion
        have hsteps : (vs.map Step.yielded)[p]? = none := by simpa using Nat.le_of_not_lt hp
        rw [hsteps, List.getElem?_append_right (Nat.le_of_not_lt hp), List.length_map]
        cases tail[p - vs.length]? <;> rfl

/-- A positional read finds the step of the run. -/
theorem Stands.at?_eq (h : m.Stands vs ended) (hm : m.Settled) {p : Nat} (hp : p ≤ vs.length) :
    m.at? p = (Step.run vs ended)[p]? := by
  rw [h.at?_eq_told hm, Step.told_eq_run hp]

/-- The known values from a position on. -/
theorem Stands.drop_eq (h : m.Stands vs ended) {p : Nat} (hp : p ≤ vs.length) :
    valuesOf (m.steps.drop p) ++ m.tail.drop (p - m.steps.length) = vs.drop p := by
  -- steps without a completion are all values
  have hrun : ∀ ws : List Value, valuesOf ((ws.map Step.yielded).drop p) = ws.drop p := by
    intro ws
    rw [← List.map_drop, ← Step.run_false, valuesOf_run]
  cases h with
  | going vs tail => rw [hrun, List.length_map, List.drop_append]
  | drained vs tail => rw [hrun, List.length_map, List.drop_append]
  | stepped vs =>
      rw [List.drop_append_of_le_length (by simpa using hp), ← List.map_drop,
        ← Step.run_true, valuesOf_run, List.drop_nil, List.append_nil]

/-- Once a completion is among the steps, there is no tail and nothing to pull. -/
theorem Stands.of_any_isDone (h : m.Stands vs ended) {p : Nat}
    (hdone : (m.steps.drop p).any Step.isDone = true) : ended = true ∧ m.tail = [] := by
  cases h with
  | stepped vs => exact ⟨rfl, rfl⟩
  | _ vs tail =>
      obtain ⟨step, hstep, hisDone⟩ := List.any_eq_true.1 hdone
      obtain ⟨v, -, rfl⟩ := List.mem_map.1 (List.mem_of_mem_drop hstep)
      cases hisDone

/-- A memo that is not drained and shows no completion among its steps waits for more. -/
theorem Stands.waits_of_any_isDone (h : m.Stands vs ended) {p : Nat} (hp : p ≤ vs.length)
    (hknown : (m.steps.drop p).any Step.isDone = false) (hdrained : m.drained = false) :
    ended = false := by
  cases h with
  | going vs tail => rfl
  | drained vs tail => cases hdrained
  | stepped vs =>
      rw [List.drop_append_of_le_length (by simpa using hp)] at hknown
      simp at hknown

/-- A memo stands for one thing only. -/
theorem Stands.unique (h : m.Stands vs ended) {ws : List Value} {ended' : Bool}
    (h' : m.Stands ws ended') : vs = ws ∧ ended = ended' := by
  have hvs := h.drop_eq (Nat.zero_le _)
  have hws := h'.drop_eq (Nat.zero_le _)
  rw [List.drop_zero] at hvs hws
  exact ⟨hvs.symm.trans hws, h.exhausted_eq.symm.trans h'.exhausted_eq⟩

/-- Without a tail, the steps answer, or it is completion. -/
theorem at?_eq_getD {p : Nat} (htail : m.tail = []) (h : (m.at? p).isSome) :
    m.at? p = some (m.steps[p]?.getD .done) := by
  rw [at?] at h ⊢
  cases hstep : m.steps[p]? with
  | some step => rfl
  | none =>
      simp only [hstep] at h
      split at h
      · rename_i hexhausted
        simp [hexhausted, htail, Step.ofOption]
      · cases h

/-! ## Learning -/

/-- A positional read adds its step to the run. -/
theorem Stands.addStep (h : m.Stands vs false) (hm : m.Settled) (step : Step) :
    (m.addStep step).Stands (vs ++ step.value?.toList) step.isDone := by
  cases h with
  | going vs tail =>
      have htail : tail = [] := hm rfl
      subst htail
      cases step with
      | yielded v => simpa [Memo.addStep, Step.value?] using going (vs ++ [v]) []
      | done => simpa [Memo.addStep, Step.value?] using stepped vs

/-- A positional read leaves the memo settled. -/
theorem Settled.addStep (hm : m.Settled) (step : Step) : (m.addStep step).Settled := hm

/-- A pull of a drain adds its step to the run. -/
theorem Stands.addTail (h : m.Stands vs false) (step : Step) :
    (m.addTail step).Stands (vs ++ step.value?.toList) step.isDone := by
  cases h with
  | going vs tail =>
      cases step with
      | yielded v => simpa [Memo.addTail, Step.value?] using going vs (tail ++ [v])
      | done => simpa [Memo.addTail, Step.value?] using drained vs tail

/-- A pull of a drain leaves the positional steps alone. -/
@[simp] theorem addTail_steps (m : Memo) (step : Step) : (m.addTail step).steps = m.steps := by
  cases step <;> rfl

end Memo

end StructuralMatch
