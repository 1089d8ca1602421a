import StructuralMatch.Proofs.Insertion
import StructuralMatch.Proofs.Snapshot

/-! # Outcomes of matches and of plain matches

    A match binds values, and where elements are left it binds an array made for the
    occasion.  A plain match captures the elements themselves.  Outcomes agree when
    they bind the same names in the same order to the same things
    (`Verdict.Agrees`); arrays never change, so they go on agreeing. -/

namespace StructuralMatch

/-- The value is what was captured; elements that were left are in an array. -/
inductive Capture.Realised (σ : Store) : Capture → Value → Prop where
  | value (v : Value) : Realised σ (.value v) v
  | array {items : List Value} {a : Nat} (here : σ.arrays[a]? = some items) :
      Realised σ (.array items) (.ref (.array a))

/-- The bindings are what was captured, name by name. -/
def Bindings.Realise (σ : Store) (b : Bindings) (c : Captures) : Prop :=
  b.entries.Related (fun v x => x.Realised σ v) c

/-- The outcome of a match is that of a plain match. -/
def Verdict.Agrees (σ : Store) : Verdict Bindings → Verdict Captures → Prop
  | .matched b, .matched c => b.Realise σ c
  | .unmatched, .unmatched => True
  | .failed e, .failed e' => e = e'
  | _, _ => False

/-! ## What agrees goes on agreeing -/

variable {σ τ : Store}

theorem Capture.Realised.keeps (hk : σ.Keeps τ) {c : Capture} {v : Value}
    (h : c.Realised σ v) : c.Realised τ v := by
  cases h with
  | value v => exact .value v
  | array here => exact .array (hk.arrays here)

theorem Bindings.Realise.keeps (hk : σ.Keeps τ) {b : Bindings} {c : Captures}
    (h : b.Realise σ c) : b.Realise τ c :=
  List.Forall₂.imp (fun _ _ he => ⟨he.1, he.2.keeps hk⟩) h

/-- Agreement does not depend on what becomes of the store. -/
theorem Verdict.Agrees.keeps (hk : σ.Keeps τ) {x : Verdict Bindings} {y : Verdict Captures}
    (h : x.Agrees σ y) : x.Agrees τ y := by
  cases x <;> cases y <;> first | exact Bindings.Realise.keeps hk h | exact h

theorem Bindings.realise_empty (σ : Store) : Bindings.empty.Realise σ [] := .nil

/-- Merging what was captured. -/
theorem Bindings.Realise.merge {b d : Bindings} {c e : Captures} (h : b.Realise σ c)
    (hd : d.Realise σ e) : (b.merge d).Realise σ (c.insertAll e) := by
  rw [Bindings.Realise, Bindings.entries_merge]
  exact Assoc.Related.insertAll h hd

/-- What an identifier captures. -/
theorem realise_matchIdentifier (σ : Store) (name place : Option Key) (v : Value) :
    (matchIdentifier name place v).Realise σ (Snapshot.captureOne name place v) := by
  rw [matchIdentifier, Snapshot.captureOne]
  cases name.or place with
  | none => exact .nil
  | some k => exact .cons ⟨rfl, .value v⟩ .nil

/-- What a literal decides. -/
theorem agrees_matchLiteral (σ : Store) (p : Primitive) (v : Value) :
    (matchLiteral p v).Agrees σ (if (Value.prim p).same v then .matched [] else .unmatched) := by
  rw [matchLiteral]
  split
  · exact .nil
  · trivial

/-- What a regular expression captures. -/
theorem agrees_matchRegex (σ : Store) (r : Regex) (v : Value) :
    (matchRegex r v σ).Agrees σ (Snapshot.captureGroups r (σ.text v)) := by
  rw [matchRegex_eq, Snapshot.captureGroups]
  cases r.participants (σ.text v) with
  | none => trivial
  | some groups =>
      have hpairs : Assoc.Related (fun v x => Capture.Realised σ x v)
          (groups.map fun g => ((⟨g.1⟩ : Key), Value.text g.2))
          (groups.map fun g => ((⟨g.1⟩ : Key), Capture.value (.text g.2))) := by
        induction groups with
        | nil => exact .nil
        | cons g groups ih => exact .cons ⟨rfl, .value _⟩ ih
      exact Assoc.Related.insertAll (Bindings.realise_empty σ) hpairs

end StructuralMatch
