import StructuralMatch.Proofs.Snapshot

/-! # Covering states by snapshots

    A snapshot covers a state when all that the state has seen so far is as the
    snapshot says.  The snapshot of a state covers it, and it covers every earlier
    state: nothing that was seen is ever seen differently later on. -/

namespace StructuralMatch

open State

/-- All that a state has seen so far is as the snapshot says. -/
structure Snapshot.Covers (S : Snapshot) (s : State) : Prop where
  present : ∀ (r : Ref) (k : Key), s.store.holds (.ref r) = true →
    S.present r k = s.store.hasProperty (.ref r) k
  text : ∀ v : Value, s.store.holds v = true → S.text v = s.store.text v
  property : ∀ (r : Ref) (k : Key), ∀ x ∈ s.cache.readings r k, S.property r k = x
  iterator : ∀ r : Ref, ∀ i ∈ s.cache.openings r, S.iterator r = some i
  barren : ∀ r : Ref, s.store.holds (.ref r) = true →
    s.store.isIterable (.ref r) = false → S.iterator r = none
  yields : ∀ (i : Nat) (vs : List Value) (ended : Bool),
    (s.cache.memo (.cell i)).Stands vs ended →
      vs <+: S.yields i ∧ (ended = true → vs = S.yields i)

/-- Everything that a state has seen and could see, at once. -/
def State.snapshot (s : State) : Snapshot where
  present := fun r k => s.store.hasProperty (.ref r) k
  property := fun r k => (s.cache.readings r k).headD .undefined
  text := s.store.text
  iterator := fun r => (s.cache.openings r).head?
  yields := fun i => (s.cache.advances i).filterMap (·.1.value?)

/-- The snapshot of a state covers it. -/
theorem State.Sound.covers_snapshot {s : State} (hs : s.Sound) : s.snapshot.Covers s where
  present := fun _ _ _ => rfl
  text := fun _ _ => rfl
  property := by
    intro r k x hx
    show (s.cache.readings r k).headD .undefined = x
    rw [hs.faithful.readings] at hx ⊢
    rw [Option.mem_toList.1 hx]
    rfl
  iterator := by
    intro r i hi
    show (s.cache.openings r).head? = some i
    rw [hs.faithful.openings] at hi ⊢
    rw [Option.mem_toList.1 hi]
    rfl
  barren := by
    intro r hr hbarren
    show (s.cache.openings r).head? = none
    rw [List.head?_eq_none_iff]
    refine List.filterMap_eq_nil_iff.2 ?_
    intro e he
    -- an iterator in the log was made for something that can be iterated over
    have hheld := hs.held e he
    cases ha : e.access with
    | opened q i =>
        rw [ha] at hheld
        have hne : q ≠ r := by
          rintro rfl
          rw [hheld.2.1] at hbarren
          cases hbarren
        simp [Access.iterator?, hne]
    | _ => rfl
  yields := by
    intro i vs ended hm
    have hvalues : s.snapshot.yields i = vs := hs.faithful.filterMap_advances hm
    rw [hvalues]
    exact ⟨List.prefix_refl _, fun _ => rfl⟩

/-- What covers a state covers every state before it. -/
theorem Snapshot.Covers.earlier {S : Snapshot} {s t : State} (hS : S.Covers t) (hs : s.Sound)
    (ht : t.Sound) (hleads : s.store.Leads t.store) (hlog : s.cache.log <+: t.cache.log) :
    S.Covers s where
  present := by
    intro r k hr
    rw [hS.present r k (hleads.keeps.holds hr), hleads.keeps.hasProperty_eq hs.grounded hr]
  text := by
    intro v hv
    rw [hS.text v (hleads.keeps.holds hv), hleads.keeps.text_eq hs.grounded hv]
  property := fun r k x hx => hS.property r k x ((hlog.filterMap _).subset hx)
  iterator := fun r i hi => hS.iterator r i ((hlog.filterMap _).subset hi)
  barren := by
    intro r hr hbarren
    exact hS.barren r (hleads.keeps.holds hr) ((hleads.keeps.isIterable_eq hr).trans hbarren)
  yields := by
    intro i vs ended hm
    obtain ⟨vs', ended', hstands, hadvances⟩ := hs.faithful.advances i
    obtain ⟨rfl, rfl⟩ := hm.unique hstands
    obtain ⟨ws, ended', hstands', hadvances'⟩ := ht.faithful.advances i
    -- the memos stand for the steps in the logs, and one log begins with the other
    have hextends : Step.run vs ended <+: Step.run ws ended' := by
      have hadvance : s.cache.advances i <+: t.cache.advances i := hlog.filterMap _
      have hsteps := hadvance.map Prod.fst
      rwa [hadvances, hadvances', List.zipIdx_map_fst, List.zipIdx_map_fst] at hsteps
    obtain ⟨hyields, hall⟩ := hS.yields i ws ended' hstands'
    refine ⟨(Step.values_extend hextends).trans hyields, ?_⟩
    rintro rfl
    obtain ⟨rfl, hended⟩ := Step.eq_of_extends hextends
    exact hall hended

/-- What covers a state covers every state from which work leads to it. -/
theorem Snapshot.Covers.before {S : Snapshot} {s t : State} (hS : S.Covers t) (hs : s.Sound)
    (hw : Works s t) : S.Covers s := hS.earlier hs (hw.sound hs) hw.leads hw.log_extends

end StructuralMatch
