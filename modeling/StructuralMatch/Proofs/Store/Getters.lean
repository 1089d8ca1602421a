import StructuralMatch.Proofs.Store.Polling
import StructuralMatch.Proofs.Store.Results

/-! # Which getters run

    Reading a property runs the getter behind it, if there is one, and no other;
    copying properties runs the getters of all own enumerable accessors, once each
    and in order, whichever keys are left out of the copy (`without_runs`).  User
    code that advances iterators runs no getter at all.

    Which getters these are is read off cells that never change, so it stays. -/

namespace StructuralMatch

/-- The getter that started to run. -/
def Event.ran? : Event → Option Nat
  | .ran g => some g
  | _ => none

/-- What comes from a script is no run of a getter. -/
theorem Event.OfScript.ran? {e : Event} (h : e.OfScript) : e.ran? = none := by
  cases e <;> first | rfl | exact h.elim

/-- The getter of an accessor. -/
def Property.getter? (p : Property) : Option Nat :=
  match p.slot with
  | .data _ => none
  | .accessor g => some g

namespace Object

/-- The getters of the own enumerable accessors, with their keys and in order. -/
def ownGetters (o : Object) : List (Key × Nat) :=
  (o.properties.filter fun p => p.2.enumerable).filterMap fun p =>
    p.2.getter?.map fun g => (p.1, g)

/-- The getters without their keys. -/
theorem map_snd_ownGetters (o : Object) :
    o.ownGetters.map Prod.snd =
      (o.properties.filter fun p => p.2.enumerable).filterMap (·.2.getter?) := by
  rw [ownGetters, List.map_filterMap]
  refine congrArg (List.filterMap · _) (funext ?_)
  intro p
  cases p.2.getter? <;> rfl

/-- The keys without their getters are keys of the object. -/
theorem map_fst_ownGetters_sublist (o : Object) :
    (o.ownGetters.map Prod.fst).Sublist o.properties.keys := by
  have hkeys : ∀ ps : List (Key × Property),
      ((ps.filterMap fun p => p.2.getter?.map fun g => (p.1, g)).map Prod.fst).Sublist
        (ps.map Prod.fst) := by
    intro ps
    induction ps with
    | nil => exact .refl _
    | cons p ps ih =>
        cases hp : p.2.getter? with
        | none => simpa [hp] using ih.cons p.1
        | some g => simpa [hp] using ih.cons_cons p.1
  exact (hkeys _).trans (List.filter_sublist.map _)

end Object

namespace Store

variable {P : Event → Prop} {σ τ υ : Store}

/-- The getter behind a property, own or inherited. -/
def getterOf? (σ : Store) (r : Ref) (k : Key) : Option Nat :=
  ((σ.objectOf? (.ref r)).bind fun o => σ.findProperty o k).bind Property.getter?

/-- The getters of the own enumerable accessors of a value, with their keys and in order. -/
def ownGetters (σ : Store) (r : Ref) : List (Key × Nat) :=
  match σ.objectOf? (.ref r) with
  | some o => o.ownGetters
  | none => []

/-- Between two stores exactly these getters started to run, in order. -/
def Runs (σ τ : Store) (getters : List Nat) : Prop :=
  ∃ new, τ.events = σ.events ++ new ∧ new.filterMap Event.ran? = getters

theorem Runs.refl (σ : Store) : σ.Runs σ [] := ⟨[], (List.append_nil _).symm, rfl⟩

theorem Runs.trans {gs hs : List Nat} (h₁ : σ.Runs τ gs) (h₂ : τ.Runs υ hs) :
    σ.Runs υ (gs ++ hs) := by
  obtain ⟨new, hnew, rfl⟩ := h₁
  obtain ⟨more, hmore, rfl⟩ := h₂
  exact ⟨new ++ more, by rw [hmore, hnew, List.append_assoc], List.filterMap_append⟩

/-- A run of changes whose condition allows no getter runs none. -/
theorem Reaches.runs_nil (hP : ∀ e, P e → e.ran? = none) (h : σ.Reaches P τ) : σ.Runs τ [] := by
  obtain ⟨new, hnew, hall⟩ := h.events
  exact ⟨new, hnew, List.filterMap_eq_nil_iff.2 fun e he => hP e (hall e he)⟩

/-- Carrying out a script runs no getter. -/
theorem runScript_runs {α : Type} (script : Script α) (σ : Store) :
    σ.Runs (σ.runScript script).2 [] :=
  (runScript_reaches script σ).runs_nil fun _ => Event.OfScript.ran?

/-! ## Reading -/

/-- Running a getter runs this getter and no other. -/
theorem runGetter_runs {g : Nat} (hg : g < σ.getters.size) : σ.Runs (σ.runGetter g).2 [g] := by
  have hstart : ∀ getter : Getter, σ.Runs (σ.startGetter g getter) [g] :=
    fun getter => ⟨[.ran g], events_startGetter σ g getter, rfl⟩
  rw [runGetter, Array.getElem?_eq_getElem hg]
  exact (hstart _).trans (runScript_runs _ _)

/-- Reading a property runs its getter, if it has one. -/
theorem readProperty_runs {p : Property} (hp : ∀ g, p.slot = .accessor g → g < σ.getters.size) :
    σ.Runs (σ.readProperty p).2 p.getter?.toList := by
  obtain ⟨slot, enumerable⟩ := p
  cases slot with
  | data v => exact .refl σ
  | accessor g => exact runGetter_runs (hp g rfl)

/-- The getters of an object that fits are there. -/
theorem Fits.getter_lt {limit : Nat} {o : Object} (ho : σ.Fits limit o) {k : Key} {p : Property}
    (hp : (k, p) ∈ o.properties) : ∀ g, p.slot = .accessor g → g < σ.getters.size := by
  obtain ⟨slot, enumerable⟩ := p
  rintro g rfl
  exact ho.accessor hp

/-- Reading a property by its key runs the getter behind it, if there is one. -/
theorem Grounded.get_runs (hσ : σ.Grounded) (r : Ref) (k : Key) :
    σ.Runs (σ.get (.ref r) k).2 (σ.getterOf? r k).toList := by
  have hmissing : (σ.objectOf? (.ref r)).bind (fun o => σ.findProperty o k) = none →
      σ.Runs σ (σ.getterOf? r k).toList := by
    intro hnone
    rw [getterOf?, hnone]
    exact .refl σ
  have hfound : ∀ p, (σ.objectOf? (.ref r)).bind (fun o => σ.findProperty o k) = some p →
      σ.Runs (σ.readProperty p).2 (σ.getterOf? r k).toList := by
    intro p hsome
    obtain ⟨o, ho, hfind⟩ := Option.bind_eq_some_iff.1 hsome
    obtain ⟨q, hq, hown⟩ := hσ.exists_of_findProperty (hσ.fits ho) hfind
    rw [getterOf?, hsome]
    exact readProperty_runs (hq.getter_lt hown)
  cases r with
  | array a =>
      rw [Store.get]
      split <;> exact .refl σ
  | _ =>
      simp only [Store.get]
      split
      · exact hfound _ ‹_›
      · exact hmissing ‹_›

/-! ## Copying -/

/-- Reading properties one after another runs their getters in order. -/
theorem readAll_runs : ∀ (ps : List (Key × Property)) (σ : Store),
    (∀ p ∈ ps, ∀ g, p.2.slot = .accessor g → g < σ.getters.size) →
      σ.Runs (readAll ps σ).2 (ps.filterMap (·.2.getter?))
  | [], σ, _ => .refl σ
  | (k, p) :: ps, σ, hps => by
      have hfirst : σ.Runs (σ.readProperty p).2 p.getter?.toList :=
        readProperty_runs (hps (k, p) (List.mem_cons_self ..))
      have hkeeps := (readProperty_leads σ p).keeps
      have hrest := readAll_runs ps (σ.readProperty p).2 fun q hq g hg =>
        Nat.lt_of_lt_of_le (hps q (List.mem_cons_of_mem _ hq) g hg) hkeeps.getters
      have hgetters : ((k, p) :: ps).filterMap (·.2.getter?) =
          p.getter?.toList ++ ps.filterMap (·.2.getter?) := by
        cases hp : p.getter? <;> simp [hp]
      rw [hgetters]
      exact hfirst.trans hrest

/-- Enumerating properties runs the getters of all own enumerable accessors. -/
theorem Grounded.entries_runs (hσ : σ.Grounded) (r : Ref) :
    σ.Runs (σ.entries (.ref r)).2 ((σ.ownGetters r).map Prod.snd) := by
  have hobject : σ.Runs
      (match σ.objectOf? (.ref r) with
        | some o => readAll (o.properties.filter fun p => p.2.enumerable) σ
        | none => ([], σ)).2 ((σ.ownGetters r).map Prod.snd) := by
    rw [ownGetters]
    cases ho : σ.objectOf? (.ref r) with
    | none => exact .refl σ
    | some o =>
        have hread := readAll_runs (o.properties.filter fun p => p.2.enumerable) σ
          fun p hp => (hσ.fits ho).getter_lt (List.mem_filter.1 hp).1
        rw [← Object.map_snd_ownGetters] at hread
        exact hread
  cases r with
  | array a => exact .refl σ
  | _ => exact hobject

/-- Copying properties runs the getters of all own enumerable accessors, also of those
    whose keys are excluded. -/
theorem Grounded.without_runs (hσ : σ.Grounded) (r : Ref) (excluded : List Key) :
    σ.Runs (σ.without (.ref r) excluded).2 ((σ.ownGetters r).map Prod.snd) := by
  -- making the object adds nothing to the trace
  obtain ⟨new, hnew, hgetters⟩ := hσ.entries_runs r
  exact ⟨new, hnew, hgetters⟩

/-! ## Iterating -/

/-- Advancing an iterator runs no getter. -/
theorem next_runs (σ : Store) (i : Nat) : σ.Runs (σ.next i).2 [] :=
  (next_reaches σ i).runs_nil fun _ h => h.ofScript.ran?

/-- Running a factory runs no getter. -/
theorem runFactory_runs (σ : Store) (iterable : Ref) (f : Nat) :
    σ.Runs (σ.runFactory iterable f).2 [] := by
  rw [runFactory]
  split
  · exact .refl σ
  · rename_i factory here
    have hstart : σ.Runs (σ.startFactory f factory iterable) [] :=
      ⟨_, events_startFactory σ f factory iterable, rfl⟩
    have hsupply : ∀ (τ : Store) (handed : Supply), τ.Runs (τ.supply handed).2 [] :=
      fun τ handed => (supply_reaches τ handed).runs_nil fun _ h => Event.OfScript.ran? h
    exact (hstart.trans (runScript_runs _ _)).trans (hsupply _ _)

/-- Making an iterator over a value runs no getter. -/
theorem iterate_runs (σ : Store) (v : Value) : σ.Runs (σ.iterate v).2 [] := by
  simp only [iterate]
  split
  · exact .refl σ
  · rename_i a
    exact ⟨[.opened (.array a)], events_record σ _, rfl⟩
  · exact ⟨[], (List.append_nil _).symm, rfl⟩
  · split
    · exact runFactory_runs σ _ _
    · exact .refl σ
  · exact .refl σ

/-! ## What stays -/

/-- The getter behind a property stays. -/
theorem Keeps.getterOf?_eq (hk : σ.Keeps τ) (hσ : σ.Grounded) {r : Ref}
    (hr : σ.holds (.ref r) = true) (k : Key) : τ.getterOf? r k = σ.getterOf? r k := by
  rw [getterOf?, getterOf?, hk.objectOf?_eq hr]
  cases h : σ.objectOf? (.ref r) with
  | none => rfl
  | some o => simp only [Option.bind_some, findProperty, hk.chain_eq hσ (hσ.fits h)]

/-- The own enumerable accessors stay. -/
theorem Keeps.ownGetters_eq (hk : σ.Keeps τ) {r : Ref} (hr : σ.holds (.ref r) = true) :
    τ.ownGetters r = σ.ownGetters r := by
  rw [ownGetters, ownGetters, hk.objectOf?_eq hr]

/-- No key has two own enumerable accessors. -/
theorem nodup_ownGetters (σ : Store) (r : Ref) : ((σ.ownGetters r).map Prod.fst).Nodup := by
  rw [ownGetters]
  cases σ.objectOf? (.ref r) with
  | none => exact List.nodup_nil
  | some o => exact o.nodup.sublist o.map_fst_ownGetters_sublist

/-- An own enumerable accessor is what a read of its key finds. -/
theorem getterOf?_of_mem_ownGetters {r : Ref} {k : Key} {g : Nat}
    (h : (k, g) ∈ σ.ownGetters r) : σ.getterOf? r k = some g := by
  rw [ownGetters] at h
  cases ho : σ.objectOf? (.ref r) with
  | none => simp [ho] at h
  | some o =>
      rw [ho] at h
      obtain ⟨⟨j, p⟩, hp, hpair⟩ := List.mem_filterMap.1 h
      obtain ⟨g', hg', heq⟩ := Option.map_eq_some_iff.1 hpair
      obtain ⟨rfl, rfl⟩ := Prod.mk.inj heq
      have hfind := σ.findProperty_of_mem (List.mem_filter.1 hp).1
      simpa [getterOf?, ho, hfind] using hg'

end Store

end StructuralMatch
