import StructuralMatch.Condition
import StructuralMatch.Matching.Course

/-! # Scripted matchers

    A matcher that asks a condition and then reacts: it decides, fails, or runs a
    selection of its own over the same value, with its own cache. -/

namespace StructuralMatch

/-- What a scripted matcher does once its condition is decided. -/
inductive Reaction where
  | accept
  | refuse
  | fail (e : MatchError)
  /-- Match a pattern in a selection of its own, which must match. -/
  | nested (p : Pattern)

/-- Carry out a reaction. -/
def Reaction.judge (v : Value) (σ : Store) : Reaction → Verdict Unit × Store
  | .accept => (.matched (), σ)
  | .refuse => (.unmatched, σ)
  | .fail e => (.failed e, σ)
  | .nested p =>
      match Selection.finish [Arm.when p fun _ σ => ((), σ)] v σ with
      | (.ok (), σ) => (.matched (), σ)
      | (.error e, σ) => (.failed e, σ)

/-- The custom matchers that a reaction asks in its turn. -/
def Reaction.matchers : Reaction → List Matcher
  | .nested p => p.matchers
  | _ => []

/-- A reaction respects what the matchers that it asks and every operation on a store respect. -/
theorem Reaction.judge_respects {R : Store → Store → Prop} (hR : Store.Respected R) {r : Reaction}
    (hm : ∀ m ∈ r.matchers, m.Respects R) (v : Value) (σ : Store) : R σ (r.judge v σ).2 := by
  cases r with
  | accept => exact hR.refl σ
  | refuse => exact hR.refl σ
  | fail e => exact hR.refl σ
  | nested p =>
      have hfinish : R σ (Selection.finish [Arm.when p fun _ σ => ((), σ)] v σ).2 := by
        refine Selection.finish_respects hR ?_ v σ
        intro arm harm
        rw [List.mem_singleton.1 harm]
        exact ⟨hm, fun _ τ => hR.refl τ⟩
      rw [Reaction.judge]
      generalize Selection.finish _ v σ = finished at hfinish ⊢
      rcases finished with ⟨_ | _, τ⟩
      · exact hfinish
      · exact hfinish

/-- The message of a labelled matcher that is asked. -/
def Matcher.announce (label : Option String) (v : Value) (σ : Store) : Store :=
  match label with
  | some label => σ.record (.note ("custom " ++ label ++ " " ++ v.typeName))
  | none => σ

theorem Matcher.announce_respects {R : Store → Store → Prop} (hR : Store.Indifferent R)
    (label : Option String) (v : Value) (σ : Store) : R σ (announce label v σ) := by
  cases label with
  | none => exact hR.refl σ
  | some label => exact hR.remark σ trivial

/-- A matcher that reacts to a condition; a labelled one leaves a message on each run. -/
def Matcher.scripted (name : String) (label : Option String) (test : Condition)
    (yes no : Reaction) : Matcher where
  name := name
  judge := fun v σ =>
    let σ := announce label v σ
    (if test.holds σ v then yes else no).judge v σ
  leads := fun v σ =>
    (announce_respects Store.leads_respected.toIndifferent label v σ).trans
      (Reaction.judge_respects Store.leads_respected (fun m _ => m.leads) v _)

/-- Such a matcher respects what every operation on a store does, if the matchers that it asks in
    its turn do. -/
theorem Matcher.scripted_respects {R : Store → Store → Prop} (hR : Store.Respected R)
    (name : String) (label : Option String) (test : Condition) {yes no : Reaction}
    (hyes : ∀ m ∈ yes.matchers, m.Respects R) (hno : ∀ m ∈ no.matchers, m.Respects R) :
    (Matcher.scripted name label test yes no).Respects R := by
  intro v σ
  refine hR.trans (announce_respects hR.toIndifferent label v σ) ?_
  refine Reaction.judge_respects hR ?_ v _
  split
  · exact hyes
  · exact hno

end StructuralMatch
