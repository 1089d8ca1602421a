import StructuralMatch.Matching
import StructuralMatch.Proofs.Store.Getters
import StructuralMatch.Proofs.Store.Lineage

/-! # Instances of a class

    A class is searched for along a chain of prototypes, and objects without a class do
    not end the search.  So the pattern for the instances of a class matches an object
    exactly when the class is that of some object in its lineage.

    A function can have a class and prototypes just as an object can, and its properties
    are looked up along them.  But the search begins at objects only: no function is an
    instance of anything, whatever its class (`instanceOf_recognises`). -/

namespace StructuralMatch

variable {σ τ : Store} {v : Value}

namespace Store

theorem classOf?_eq_some_iff {w : Value} {className : String} :
    σ.classOf? w = some className ↔
      ∃ o, σ.objectOf? w = some o ∧ o.className = some className :=
  Option.bind_eq_some_iff

/-- An object that is there is the one behind its value. -/
theorem objectOf?_of_holds {n : Nat} (held : σ.holds (.ref (.object n)) = true) :
    σ.objectOf? (.ref (.object n)) = some (σ.object n) := by
  have hn : n < σ.objects.size := by simpa [Store.holds] using held
  simp [objectOf?, object, Array.getD_eq_getD_getElem?, hn]

/-- The instances of a class are the objects in whose lineage it occurs. -/
theorem Grounded.isInstance_iff (hσ : σ.Grounded) (held : σ.holds v = true)
    (className : String) :
    σ.isInstance v className = true ↔
      (∃ n, v = .ref (.object n)) ∧ ∃ w, σ.Lineage v w ∧ σ.classOf? w = some className := by
  by_cases hobject : ∃ n, v = .ref (.object n)
  · obtain ⟨n, rfl⟩ := hobject
    simp only [isInstance, Value.object?, List.any_eq_true, beq_iff_eq, classOf?_eq_some_iff,
      hσ.mem_chain_iff _ _ (objectOf?_of_holds held)]
    constructor
    · rintro ⟨q, ⟨w, hw, hq⟩, hclass⟩
      exact ⟨⟨n, rfl⟩, w, hw, q, hq, hclass⟩
    · rintro ⟨-, w, hw, q, hq, hclass⟩
      exact ⟨q, ⟨w, hw, hq⟩, hclass⟩
  · have hnone : v.object? = none := by
      cases v with
      | prim p => rfl
      | ref r =>
          cases r with
          | object n => exact absurd ⟨n, rfl⟩ hobject
          | _ => rfl
    simp only [isInstance, hnone, hobject, false_and, Bool.false_eq_true]

/-- Of what class a value is stays. -/
theorem Keeps.isInstance_eq (hk : σ.Keeps τ) (hσ : σ.Grounded) (held : σ.holds v = true)
    (className : String) : τ.isInstance v className = σ.isInstance v className := by
  cases v with
  | prim p => rfl
  | ref r =>
      cases r with
      | object n =>
          have hchain := hk.chain_eq hσ (hσ.fits (objectOf?_of_holds held))
          simp only [isInstance, Value.object?, hk.object_eq held, hchain]
      | _ => rfl

end Store

/-! ## Matching -/

/-- What a match of the instances of a class comes to, from one state to another. -/
structure Recognises (className : String) (v : Value) (s : State) (verdict : Verdict Bindings)
    (t : State) : Prop where
  /-- Either way nothing is bound. -/
  binds : verdict = .matched .empty ∨ verdict = .unmatched
  /-- A value is recognised if it is an object, and one in its lineage has the class. -/
  recognised : verdict.isMatched = true ↔
    (∃ n, v = .ref (.object n)) ∧
      ∃ w, s.store.Lineage v w ∧ s.store.classOf? w = some className
  /-- Only that somebody asked is recorded. -/
  store : t.store = s.store.record (.consulted "instance_of")
  /-- No getter runs. -/
  runs : s.store.Runs t.store []

/-- **Instances of a class**: the pattern for the instances of a class matches the objects in
    whose lineage the class occurs and nothing else; it binds nothing and runs no getter. -/
theorem instanceOf_recognises {s : State} (made : Store.empty.Leads s.store)
    (held : s.store.holds v = true) (className : String) (place : Option Key) :
    Recognises className v s (matchAt (.instanceOf className) place v s).1
      (matchAt (.instanceOf className) place v s).2 := by
  have hσ := made.grounded Store.grounded_empty
  let asked := s.store.record (.consulted "instance_of")
  have hstore : (matchAt (.instanceOf className) place v s).2.store = asked := by
    rw [Pattern.instanceOf, matchAt]
    rfl
  have hverdict : (matchAt (.instanceOf className) place v s).1 =
      if asked.isInstance v className then .matched .empty else .unmatched := by
    rw [Pattern.instanceOf, matchAt, matchCustom, State.consult]
    dsimp only
    split <;> rfl
  have hremark : s.store.Reaches (· = .consulted "instance_of") asked :=
    Store.Change.reaches (.remark s.store _ trivial rfl)
  rw [hremark.keeps.isInstance_eq hσ held] at hverdict
  refine ⟨?_, ?_, hstore, ?_⟩
  · rw [hverdict]
    split
    · exact .inl rfl
    · exact .inr rfl
  · rw [hverdict, ← hσ.isInstance_iff held]
    split <;> simp [Verdict.isMatched, *]
  · rw [hstore]
    refine hremark.runs_nil ?_
    rintro e rfl
    rfl

/-! ## A class along the way -/

namespace Shapes

/-- A class, an object without one that goes on with it, an object with another class that
    goes on with that, and a function of the first class. -/
def blueprints : List Blueprint :=
  [.object (.mk (some "Square")
      (some (.object (.mk none (some (.object (.mk (some "Shape") none [] none))) [] none))) [] none),
    .function "f" (.mk (some "Shape") none [] none) .sum none]

/-- A new cache, the objects and the function. -/
def start : State := { store := (Blueprint.buildAll blueprints .empty).2 }

theorem made : Store.empty.Leads start.store := Blueprint.buildAll_reaches blueprints .empty

/-- The object at the end of the line. -/
def square : Value := .ref (.object 2)

/-- The function. -/
def maker : Value := .ref (.function 0)

end Shapes

/-- The class of the last prototype is found past a prototype without a class. -/
theorem instanceOf_recognises_square :
    Store.empty.Leads Shapes.start.store ∧ Shapes.start.store.holds Shapes.square = true ∧
      Recognises "Shape" Shapes.square Shapes.start
        (matchAt (.instanceOf "Shape") none Shapes.square Shapes.start).1
        (matchAt (.instanceOf "Shape") none Shapes.square Shapes.start).2 ∧
      (matchAt (.instanceOf "Shape") none Shapes.square Shapes.start).1 = .matched .empty :=
  ⟨Shapes.made, by decide, instanceOf_recognises Shapes.made (by decide) "Shape" none, by decide⟩

/-- A function with a class is no instance of its own class. -/
theorem instanceOf_misses_function :
    Store.empty.Leads Shapes.start.store ∧ Shapes.start.store.holds Shapes.maker = true ∧
      Shapes.start.store.classOf? Shapes.maker = some "Shape" ∧
        (matchAt (.instanceOf "Shape") none Shapes.maker Shapes.start).1 = .unmatched :=
  ⟨Shapes.made, by decide, by decide, by decide⟩

end StructuralMatch
