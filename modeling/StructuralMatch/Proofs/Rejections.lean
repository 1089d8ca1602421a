import StructuralMatch.Proofs.Presence
import StructuralMatch.Proofs.Store.Views
import StructuralMatch.Store.Log

/-! # Why entries are rejected

    An object pattern asks of each key whether it is there, and only then reads it.  So
    it rejects a value for a key that is missing, or else because the pattern of an
    entry rejects what the key reads as (`matchEntries_rejects`): a key that is there
    and reads as undefined is no reason by itself.  And a key that is missing is never
    read.

    Both rest on the views of a value's properties, which agree
    (`Session.views_agree`). -/

namespace StructuralMatch

/-- Why an entry is rejected, in the state in which its turn has come. -/
inductive Rejects (v : Value) (k : Key) (p : Pattern) (s t : State) : Prop where
  /-- The key is missing, and nothing is done about it. -/
  | missing (absent : s.store.hasProperty v k = false) (same : t = s)
  /-- The key is there, and its pattern rejects what it reads as. -/
  | declined (present : s.store.hasProperty v k = true)
      (part : matchAt p (some k) (s.read v k).1 (s.read v k).2 = (.unmatched, t))

/-- Entries are rejected for one of them. -/
theorem matchEntries_rejects {v : Value} {t : State} : ∀ (entries : List (Key × Pattern))
    (b : Bindings) (s : State), matchEntries entries v b s = (.unmatched, t) →
      ∃ k p u, (k, p) ∈ entries ∧ s.store.Leads u.store ∧ Rejects v k p u t
  | [], b, s, h => by
      rw [matchEntries] at h
      cases h
  | (k, p) :: entries, b, s, h => by
      rw [matchEntries] at h
      split at h
      · rename_i present
        have hread := s.read_leads v k
        have hpart := matchAt_leads p (some k) (s.read v k).1 (s.read v k).2
        dsimp only at h
        cases hmatched : matchAt p (some k) (s.read v k).1 (s.read v k).2 with
        | mk verdict w =>
            rw [hmatched] at h hpart
            cases verdict with
            | matched c =>
                obtain ⟨j, q, u, hentry, hleads, hreason⟩ := matchEntries_rejects entries _ w h
                exact ⟨j, q, u, List.mem_cons_of_mem _ hentry, (hread.trans hpart).trans hleads,
                  hreason⟩
            | unmatched =>
                cases h
                exact ⟨k, p, s, List.mem_cons_self .., .refl _, .declined present hmatched⟩
            | failed e => cases h
      · rename_i absent
        exact ⟨k, p, s, List.mem_cons_self .., .refl _,
          .missing (Bool.eq_false_iff.2 absent) (Prod.mk.inj h).2.symm⟩

/-- An object pattern that rejects something with properties rejects it for an entry. -/
theorem matchAt_object_rejects {entries : List (Key × Pattern)} {marker : Option RestMarker}
    {place : Option Key} {r : Ref} {s t : State}
    (h : matchAt (.object entries marker) place (.ref r) s = (.unmatched, t)) :
    ∃ k p u, (k, p) ∈ entries ∧ s.store.Leads u.store ∧ Rejects (.ref r) k p u t := by
  have hregistered : s.register (.ref r) = (true, (s.register (.ref r)).2) := rfl
  rw [matchAt, hregistered] at h
  dsimp only at h
  cases hmatched : matchEntries entries (.ref r) .empty (s.register (.ref r)).2 with
  | mk verdict w =>
      rw [hmatched] at h
      cases verdict with
      | matched b => cases h
      | unmatched =>
          cases h
          have hrejects := matchEntries_rejects entries .empty _ hmatched
          rwa [State.register_store] at hrejects
      | failed e => cases h

/-- What a cache has had read was there. -/
theorem Session.read_present {turns : List Turn} {s : State} (h : Session turns s) {e : Entry}
    (he : e ∈ s.cache.log) {r : Ref} {k : Key} {x : Value} (hread : e.access = .read r k x) :
    s.store.hasProperty (.ref r) k = true := by
  have hmem : x ∈ s.cache.readings r k :=
    List.mem_filterMap.2 ⟨e, he, by simp [hread, Access.value?]⟩
  rw [h.sound.faithful.readings] at hmem
  exact h.remembers_present (Option.mem_toList.1 hmem)

/-- **Views of properties agree**: at any time in a session, whether a property is there, what it
    reads as and whether it is listed agree for every value.  Object patterns never have missing
    keys read, and reject a value only for a key that is missing or for what a key reads as. -/
theorem Session.views_agree {turns : List Turn} {s : State} (h : Session turns s) {v : Value}
    (held : s.store.holds v = true) (hsize : s.store.Addressable v) :
    s.store.Views v ∧
      (∀ e ∈ s.cache.log, ∀ (r : Ref) (k : Key) (x : Value), e.access = .read r k x →
        s.store.hasProperty (.ref r) k = true) ∧
      ∀ (r : Ref) (entries : List (Key × Pattern)) (marker : Option RestMarker)
        (place : Option Key) (t : State), v = .ref r →
          matchAt (.object entries marker) place v s = (.unmatched, t) →
            ∃ (k : Key) (p : Pattern) (u : State), (k, p) ∈ entries ∧ s.store.Leads u.store ∧
              u.store.hasProperty v k = s.store.hasProperty v k ∧ Rejects v k p u t := by
  have hσ := h.sound.grounded
  refine ⟨hσ.views hsize, fun e he r k x hread => h.read_present he hread, ?_⟩
  rintro r entries marker place t rfl hmatch
  obtain ⟨k, p, u, hentry, hleads, hreason⟩ := matchAt_object_rejects hmatch
  -- which keys are there does not depend on when it is asked
  exact ⟨k, p, u, hentry, hleads, hleads.keeps.hasProperty_eq hσ held k, hreason⟩

/-! ## A key that reads as undefined -/

namespace Shadowing

/-- An object whose own data comes before an accessor of its prototype, and which has a property
    that is undefined. -/
def blueprint : Blueprint :=
  .object (.mk none
    (some (.object (.mk none none
      [(⟨"a"⟩, .getter (some "a") (.values [.existing (.text "shadowed")]))] none)))
    [(⟨"a"⟩, .field (.existing (.text "near"))), (⟨"u"⟩, .field (.existing .undefined))] none)

/-- A new cache, and the object. -/
def start : State := { store := (blueprint.build .empty).2 }

/-- A match of the two properties. -/
def look : Call :=
  .pattern (.object [(⟨"a"⟩, .identifier none), (⟨"u"⟩, .literal .undefined)] none)
    (.ref (.object 1))

theorem session : Session [look.turn start] (look.perform start).2 :=
  (Session.start (blueprint.build_reaches .empty)).call look (by decide)

theorem addressable (σ : Store) : σ.Addressable (.ref (.object 1)) := by
  intro a ha
  cases ha

end Shadowing

/-- The nearer of two owners counts, and what is undefined matches. -/
theorem Session.views_agree_shadowing :
    (Shadowing.look.perform Shadowing.start).2.store.Views (.ref (.object 1)) ∧
      (Shadowing.look.perform Shadowing.start).1 = .matched (.single ⟨"a"⟩ (.text "near")) ∧
        (Shadowing.look.perform Shadowing.start).2.store.log = [] :=
  ⟨(Session.views_agree Shadowing.session (by decide) (Shadowing.addressable _)).1, by decide,
    by decide⟩

end StructuralMatch
