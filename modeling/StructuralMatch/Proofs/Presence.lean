import StructuralMatch.Proofs.Carrying
import StructuralMatch.Proofs.Session

/-! # Only what is there is remembered

    A match asks whether a property is there before it reads it, so no cache ever
    remembers a property that its owner does not have (`Session.remembers_present`). -/

namespace StructuralMatch

namespace State

variable {s t u : State}

/-- What is newly remembered of properties is of properties that are there. -/
def Attends (s t : State) : Prop :=
  ∀ (r : Ref) (k : Key) (x : Value), t.cache.property? (.ref r) k = some x →
    s.cache.property? (.ref r) k = some x ∨
      t.store.holds (.ref r) = true ∧ t.store.hasProperty (.ref r) k = true

theorem Attends.refl (s : State) : Attends s s := fun _ _ _ hx => .inl hx

theorem Attends.trans (ht : t.Sound) (hworks : Works t u) (h₁ : Attends s t) (h₂ : Attends t u) :
    Attends s u := by
  intro r k x hx
  have hkeeps := hworks.leads.keeps
  rcases h₂ r k x hx with hold | hnew
  · rcases h₁ r k x hold with holder | ⟨hr, hpresent⟩
    · exact .inl holder
    · exact .inr ⟨hkeeps.holds hr, (hkeeps.hasProperty_eq ht.grounded hr k).trans hpresent⟩
  · exact .inr hnew

/-- Where no property is remembered anew. -/
theorem Attends.of_properties_eq (h : t.cache.properties = s.cache.properties) : Attends s t := by
  intro r k x hx
  rw [Cache.property?, h] at hx
  exact .inl hx

theorem properties_pull (s : State) (add : Memo → Step → Memo) (h : Handle) :
    (s.pull add h).2.cache.properties = s.cache.properties := by
  cases h <;> rfl

theorem properties_step (s : State) (h : Handle) (position : Nat) :
    (s.step h position).2.cache.properties = s.cache.properties :=
  step_preserves (P := fun t => t.cache.properties = s.cache.properties)
    (Cache.properties_adopt _ _) (fun t ht => (t.properties_pull _ h).trans ht) position

theorem properties_drainFrom (s : State) (h : Handle) (position : Nat) :
    (s.drainFrom h position).2.cache.properties = s.cache.properties :=
  drainFrom_preserves (P := fun t => t.cache.properties = s.cache.properties)
    (Cache.properties_adopt _ _) (fun t ht => (t.properties_pull _ h).trans ht) position

theorem properties_iteratorFor (s : State) (v : Value) :
    (s.iteratorFor v).2.cache.properties = s.cache.properties := by
  cases v with
  | prim p =>
      cases p with
      | text text => exact Cache.properties_adopt _ _
      | _ => rfl
  | ref r =>
      simp only [iteratorFor]
      split
      · rfl
      · split
        · rfl
        · exact Cache.properties_adopt _ _

/-- Reading a property that is there. -/
theorem read_attends (hs : s.Sound) {v : Value} {k : Key} (held : s.store.holds v = true)
    (hpresent : s.store.hasProperty v k = true) : Attends s (s.read v k).2 := by
  cases v with
  | prim p => exact .refl s
  | ref r =>
      rw [read]
      dsimp only [Value.identity]
      split
      · exact .refl s
      · intro q j x hx
        have hkeeps := (Store.get_leads s.store (.ref r) k).keeps
        have hx : (s.cache.remember r k (s.store.get (.ref r) k).1).property? (.ref q) j = some x :=
          hx
        rw [Cache.property?_remember] at hx
        split at hx
        · rename_i heq
          obtain ⟨rfl, rfl⟩ := heq
          exact .inr ⟨hkeeps.holds held, (hkeeps.hasProperty_eq hs.grounded held k).trans hpresent⟩
        · exact .inl hx

/-- Every operation of a match remembers only properties that are there. -/
theorem attends_carried : Carried (fun _ => true) Attends where
  refl := .refl
  trans := .trans
  register := by
    intro s v r k x hx
    cases v with
    | prim p => exact .inl hx
    | ref q => exact .inl (Cache.property?_visit s.cache q (.ref r) k ▸ hx)
  read := read_attends
  remainder := fun _ _ => .of_properties_eq rfl
  iteratorFor := fun _ s v => .of_properties_eq (s.properties_iteratorFor v)
  step := fun _ s h position => .of_properties_eq (s.properties_step h position)
  drainFrom := fun _ s h position => .of_properties_eq (s.properties_drainFrom h position)
  collect := fun _ _ _ => .of_properties_eq rfl
  consult := fun _ _ _ => .of_properties_eq rfl

/-- What properties are remembered of is there. -/
theorem Sound.holds_of_property? (hs : s.Sound) {r : Ref} {k : Key} {x : Value}
    (h : s.cache.property? (.ref r) k = some x) : s.store.holds (.ref r) = true := by
  have hreadings := hs.faithful.readings r k
  rw [h] at hreadings
  have hmem : x ∈ s.cache.readings r k := by simp [hreadings]
  obtain ⟨e, he, hvalue⟩ := List.mem_filterMap.1 hmem
  have hheld := hs.held e he
  cases haccess : e.access with
  | read q j y =>
      rw [haccess, Access.value?, Option.ite_none_right_eq_some] at hvalue
      rw [haccess] at hheld
      exact hvalue.1.1 ▸ hheld.1
  | _ => simp [haccess, Access.value?] at hvalue

/-- Closing remembers no property anew. -/
theorem property?_close (hs : s.Sound) (r : Ref) (k : Key) :
    s.close.2.cache.property? (.ref r) k = s.cache.property? (.ref r) k := by
  have hclosed := ((close_remembers s).sound hs).faithful.readings r k
  have hreadings := hs.faithful.readings r k
  rw [Cache.readings, (close_remembers s).log, ← Cache.readings, hreadings] at hclosed
  simpa using congrArg List.head? hclosed.symm

end State

open State

/-- A call remembers only properties that are there. -/
theorem Call.perform_attends (c : Call) {s : State} (hs : s.Sound) (hset : s.Settled)
    (held : s.store.holds c.subject = true) : Attends s (c.perform s).2 := by
  cases c with
  | pattern p v =>
      exact matchAt_carries attends_carried p none v s p.every_true hs hset held
  | object o v =>
      exact matchAt_carries attends_carried o.toPattern none v s (Pattern.every_true _) hs hset held
  | array a i =>
      exact matchElements_carries attends_carried a.elements rfl a.elements (.cell i) 0 .empty s
        (Pattern.everyElement_true _) hs hset held (hs.reached_zero held)

/-- Every property that is remembered is there. -/
theorem Session.remembers_present {turns : List Turn} {s : State} (h : Session turns s) {r : Ref}
    {k : Key} {x : Value} (hx : s.cache.property? (.ref r) k = some x) :
    s.store.hasProperty (.ref r) k = true := by
  -- what was there when it was remembered stays there
  have hstays : ∀ {s : State} {τ : Store}, s.Sound → s.store.Leads τ →
      s.cache.property? (.ref r) k = some x → s.store.hasProperty (.ref r) k = true →
        τ.hasProperty (.ref r) k = true := by
    intro s τ hs hleads hold hpresent
    exact (hleads.keeps.hasProperty_eq hs.grounded (hs.holds_of_property? hold) k).trans hpresent
  induction h with
  | start made => cases hx
  | call before c held ih =>
      have hworks := (c.perform_proceeds before.sound before.settled held).works
      rcases c.perform_attends before.sound before.settled held r k x hx with hold | hnew
      · exact hstays before.sound hworks.leads hold (ih hold)
      · exact hnew.2
  | @close turns s before ih =>
      rw [property?_close before.sound] at hx
      exact hstays before.sound s.close_leads hx (ih hx)
  | outside before done ih => exact hstays before.sound done hx (ih hx)

end StructuralMatch
