import StructuralMatch.Proofs.Session
import StructuralMatch.Proofs.Store.Getters
import StructuralMatch.Store.Log

/-! # Getters and named remainders

    A cache has getters run in two ways.  What an entry names is read through the
    memory, at most once.  What a named rest marker collects is copied past the
    memory, and the copy runs the getters of all own enumerable accessors before it
    drops those that entries name.

    So the getter behind an entry runs at most once over the life of a cache exactly
    when it is not that of an own enumerable accessor, while the getters that no entry
    names run once each for the copy (`Session.remainder_getters`). -/

namespace StructuralMatch

/-- The getters that an access runs, each with the property that it is behind. -/
def Access.getters (σ : Store) : Access → List ((Ref × Key) × Nat)
  | .read r k _ => ((σ.getterOf? r k).map fun g => ((r, k), g)).toList
  | .remainder (.ref r) _ => (σ.ownGetters r).map fun p => ((r, p.1), p.2)
  | _ => []

/-- The getters that ran while an access took place. -/
def Entry.ran (e : Entry) (σ : Store) : List Nat :=
  ((σ.events.take e.stop).drop e.start).filterMap Event.ran?

namespace State

/-- What is said of the getters of an access is what the trace shows, custom matchers
    apart. -/
def Traced (s : State) : Prop := ∀ e ∈ s.cache.log, e.access.verdict? = none →
  e.ran s.store = (e.access.getters s.store).map Prod.snd

/-- The properties behind which the cache has had getters run, in order. -/
def getterRuns (s : State) : List (Ref × Key) :=
  s.cache.log.flatMap fun e => (e.access.getters s.store).map Prod.fst

end State

/-! ## The trace shows the getters -/

/-- An access runs its getters and no others. -/
theorem Access.Effect.runs {a : Access} {σ τ : Store} (h : a.Effect σ τ) (hσ : σ.Grounded)
    (ha : a.verdict? = none) : σ.Runs τ ((a.getters σ).map Prod.snd) := by
  cases a with
  | read r k v =>
      have hget := hσ.get_runs r k
      rw [show σ.get (.ref r) k = (v, τ) from h] at hget
      rw [Access.getters]
      cases hgetter : σ.getterOf? r k <;> simpa [hgetter] using hget
  | opened r i =>
      have hiterate := σ.iterate_runs (.ref r)
      rwa [show σ.iterate (.ref r) = (some i, τ) from h] at hiterate
  | advanced i position step =>
      have hnext := σ.next_runs i
      rwa [show σ.next i = (step, τ) from h] at hnext
  | consulted name verdict => cases ha
  | collected items => exact h ▸ ⟨[], (List.append_nil _).symm, rfl⟩
  | remainder v excluded =>
      cases v with
      | prim p => exact h ▸ ⟨[], (List.append_nil _).symm, rfl⟩
      | ref r =>
          have hgetters : (Access.getters σ (.remainder (.ref r) excluded)).map Prod.snd =
              (σ.ownGetters r).map Prod.snd := by
            rw [Access.getters, List.map_map]
            rfl
          rw [hgetters]
          exact h ▸ hσ.without_runs r excluded

/-- The getters of an access stay. -/
theorem Access.getters_eq {a : Access} {σ τ : Store} (hk : σ.Keeps τ) (hσ : σ.Grounded)
    (ha : ∀ v ∈ a.subject?, σ.holds v = true) : a.getters τ = a.getters σ := by
  cases a with
  | read r k v => rw [Access.getters, Access.getters, hk.getterOf?_eq hσ (ha _ rfl)]
  | remainder v excluded =>
      cases v with
      | prim p => rfl
      | ref r => rw [Access.getters, Access.getters, hk.ownGetters_eq (ha _ rfl)]
  | _ => rfl

/-- What ran in the course of an access stays as the trace goes on. -/
theorem Entry.ran_eq {e : Entry} {σ τ : Store} (h : σ.Leads τ) (he : e.stop ≤ σ.trace.size) :
    e.ran τ = e.ran σ := by
  obtain ⟨new, hnew, -⟩ := h.events
  rw [Store.trace_size] at he
  rw [Entry.ran, hnew, List.take_append_of_le_length he, Entry.ran]

namespace State

variable {s t u : State}

/-- What the trace shows of a log it goes on showing. -/
theorem Traced.later (h : s.Traced) (hs : s.Sound) {σ : Store} (hleads : s.store.Leads σ) :
    Traced { s with store := σ } := by
  intro e he hverdict
  rw [Entry.ran_eq hleads (hs.bounded e he).2, h e he hverdict,
    Access.getters_eq hleads.keeps hs.grounded (hs.held e he).subject]

/-- A move runs the getters that it logs. -/
theorem Move.traced (h : Move s t) (hs : s.Sound) (htraced : s.Traced) : t.Traced := by
  intro e he hverdict
  rcases h.mem_log he with hold | ⟨heffect, hthere, hstart, hstop⟩
  · exact htraced.later hs h.leads e hold hverdict
  · -- the entry is about the events that the move added
    obtain ⟨new, hnew, hgetters⟩ := heffect.runs hs.grounded hverdict
    have hran : e.ran t.store = new.filterMap Event.ran? := by
      rw [Entry.ran, hstop, Store.trace_size, List.take_length, hnew, hstart, Store.trace_size,
        List.drop_left]
    rw [hran, hgetters, Access.getters_eq h.leads.keeps hs.grounded hthere]

/-- Work runs the getters that it logs. -/
theorem Works.traced (h : Works s t) (hs : s.Sound) (htraced : s.Traced) : t.Traced := by
  induction h with
  | refl => exact htraced
  | tail before last ih => exact last.traced (before.sound hs) ih

end State

open State

/-- In a session what is said of getters is what the trace shows. -/
theorem Session.traced {turns : List Turn} {s : State} (h : Session turns s) : s.Traced := by
  induction h with
  | start made =>
      intro e he
      cases he
  | call before c held ih =>
      exact (c.perform_proceeds before.sound before.settled held).works.traced before.sound ih
  | @close turns s before ih =>
      have hlater := ih.later before.sound s.close_leads
      intro e he
      exact hlater e (s.close_remembers.log ▸ he)
  | outside before done ih => exact ih.later before.sound done

/-! ## How often getters run -/

/-- An access has the getter behind a property run when it reads the property, and when
    it copies the value whose own and enumerable the property is. -/
theorem Access.count_getters (σ : Store) (r : Ref) (k : Key) (a : Access) :
    ((a.getters σ).map Prod.fst).count (r, k) =
      (if (σ.getterOf? r k).isSome then (a.value? r k).toList.length else 0) +
        if k ∈ (σ.ownGetters r).map Prod.fst then a.copied?.toList.count (.ref r) else 0 := by
  cases a with
  | read q j v =>
      by_cases hqj : q = r ∧ j = k
      · obtain ⟨rfl, rfl⟩ := hqj
        cases hgetter : σ.getterOf? q j <;> simp [getters, value?, copied?, hgetter]
      · have hne : (q, j) ≠ (r, k) := fun h => hqj (Prod.mk.inj h)
        cases hgetter : σ.getterOf? q j <;>
          simp [getters, value?, copied?, hgetter, hqj, hne]
  | remainder v excluded =>
      cases v with
      | prim p => simp [getters, value?, copied?]
      | ref q =>
          have hkeys : ((getters σ (.remainder (.ref q) excluded)).map Prod.fst) =
              ((σ.ownGetters q).map Prod.fst).map (Prod.mk q) := by
            rw [getters, List.map_map, List.map_map]
            rfl
          rw [hkeys]
          by_cases hq : q = r
          · subst hq
            -- the copy runs each own getter once, so it counts one if the key is among them
            have hinj : Function.Injective (Prod.mk q : Key → Ref × Key) :=
              fun _ _ h => (Prod.mk.inj h).2
            rw [List.count_map_of_injective _ _ hinj, (σ.nodup_ownGetters q).count]
            simp [value?, copied?]
          · -- copying another value runs no getter of this one
            have hnone : (r, k) ∉ ((σ.ownGetters q).map Prod.fst).map (Prod.mk q) := by
              intro h
              obtain ⟨j, -, hj⟩ := List.mem_map.1 h
              exact hq (Prod.mk.inj hj).1
            rw [List.count_eq_zero_of_not_mem hnone]
            simp [value?, copied?, hq]
  | _ => simp [getters, value?, copied?]

/-- The getter behind a property runs for every read of the property, and for every copy
    of the value if the property is its own and enumerable. -/
theorem State.count_getterRuns (s : State) (r : Ref) (k : Key) :
    s.getterRuns.count (r, k) =
      (if (s.store.getterOf? r k).isSome then (s.cache.readings r k).length else 0) +
        if k ∈ (s.store.ownGetters r).map Prod.fst then s.cache.copies.count (.ref r) else 0 := by
  rw [getterRuns, Cache.readings, Cache.copies, List.filterMap_eq_flatMap_toList,
    List.filterMap_eq_flatMap_toList]
  induction s.cache.log with
  | nil => simp
  | cons e es ih =>
      rw [List.flatMap_cons, List.flatMap_cons, List.flatMap_cons, List.count_append, ih,
        Access.count_getters, List.length_append, List.count_append]
      split <;> split <;> omega

/-! ## Matches with a named rest marker -/

/-- When all entries have matched, all of them were read. -/
theorem matchEntries_readings : ∀ (entries : List (Key × Pattern)) (r : Ref) (b : Bindings)
    (s : State), s.Sound → s.Settled → s.store.holds (.ref r) = true → ∀ {c : Bindings} {t : State},
      matchEntries entries (.ref r) b s = (.matched c, t) →
        ∀ k ∈ entries.map Prod.fst, t.cache.readings r k ≠ []
  | [], r, b, s, _, _, _, c, t, _ => fun k hk => nomatch hk
  | (j, p) :: entries, r, b, s, hs, hset, held, c, t, hmatch => by
      rw [matchEntries] at hmatch
      split at hmatch
      · obtain ⟨hleaves, hreadings⟩ := read_leaves hs hset held j
        have hx := (read_proceeds hs hset held j).2
        have hs' := hleaves.works.sound hs
        have held' := hleaves.works.leads.keeps.holds held
        generalize s.read (.ref r) j = readed at hleaves hreadings hx hs' held' hmatch
        obtain ⟨x, u⟩ := readed
        have hp := matchAt_proceeds p (some j) x u hs' hleaves.settled hx
        dsimp only at hmatch
        generalize matchAt p (some j) x u = matched at hp hmatch
        rcases matched with ⟨d | _ | e, w⟩
        · have hrest := matchEntries_proceeds entries (.ref r) (b.merge d) w
            (hp.works.sound hs') hp.settled (hp.works.leads.keeps.holds held')
          dsimp only at hmatch
          rw [hmatch] at hrest
          intro k hk
          rcases List.mem_cons.1 hk with rfl | hk
          · -- what was read for the first entry is in the log for good
            have hextends := (hp.works.trans hrest.works).log_extends.filterMap
              (fun e => e.access.value? r k)
            intro hnone
            have hempty : u.cache.readings r k = [] :=
              List.prefix_nil.1 (hnone ▸ hextends)
            rw [hempty] at hreadings
            cases hreadings
          · exact matchEntries_readings entries r (b.merge d) w (hp.works.sound hs') hp.settled
              (hp.works.leads.keeps.holds held') hmatch k hk
        · cases hmatch
        · cases hmatch
      · cases hmatch

/-- When an object pattern with a named rest marker matches, its entries have matched and
    then the value was copied, and the copy is bound. -/
theorem matchAt_remainder {entries : List (Key × Pattern)} {name : Key} {place : Option Key}
    {r : Ref} {u t : State} {verdict : Verdict Bindings}
    (hmatch : matchAt (.object entries (some ⟨some name⟩)) place (.ref r) u = (verdict, t))
    (hmatched : verdict.isMatched) :
    ∃ b w, matchEntries entries (.ref r) .empty (u.register (.ref r)).2 = (.matched b, w) ∧
      verdict = .matched (b.insert name (w.remainder (.ref r) (entries.map Prod.fst)).1) ∧
        t = (w.remainder (.ref r) (entries.map Prod.fst)).2 := by
  have hregistered : u.register (.ref r) = (true, (u.register (.ref r)).2) := rfl
  rw [matchAt, hregistered] at hmatch
  dsimp only at hmatch
  generalize matchEntries entries (.ref r) .empty (u.register (.ref r)).2 = matched at hmatch ⊢
  rcases matched with ⟨b | _ | e, w⟩
  · exact ⟨b, w, rfl, (Prod.mk.inj hmatch).1.symm, (Prod.mk.inj hmatch).2.symm⟩
  · rw [← (Prod.mk.inj hmatch).1] at hmatched
    cases hmatched
  · rw [← (Prod.mk.inj hmatch).1] at hmatched
    cases hmatched

/-- How often the getters of a value have run over the life of a cache. -/
structure GettersRun (t : State) (r : Ref) : Prop where
  /-- What is said of getters is what the trace shows. -/
  traced : t.Traced
  /-- Every property was read at most once. -/
  reads : ∀ k : Key, (t.cache.readings r k).length ≤ 1
  /-- The getter behind a property ran for every read of it, and if it is an own enumerable
      accessor, for every copy of the value as well. -/
  runs : ∀ k : Key, t.getterRuns.count (r, k) =
    (if (t.store.getterOf? r k).isSome then (t.cache.readings r k).length else 0) +
      if k ∈ (t.store.ownGetters r).map Prod.fst then t.cache.copies.count (.ref r) else 0

/-- What a copy of a value has made of that, when these keys were to be left out. -/
structure GettersCopied (t : State) (r : Ref) (keys : List Key) : Prop where
  /-- The copy was done last, and it ran every own enumerable accessor once, in order. -/
  copy : ∃ before e, t.cache.log = before ++ [e] ∧ e.access = .remainder (.ref r) keys ∧
    e.ran t.store = (t.store.ownGetters r).map Prod.snd ∧
      ((t.store.ownGetters r).map Prod.fst).Nodup
  /-- The getter behind a key that was to be left out has run at most once exactly when it
      is no own enumerable accessor. -/
  once : ∀ k ∈ keys,
    t.getterRuns.count (r, k) ≤ 1 ↔ k ∉ (t.store.ownGetters r).map Prod.fst

/-- **Getters and named remainders**: whenever in a session an object pattern with a named
    rest marker is matched, all properties have been read at most once; and if it matches,
    the copy has run all own enumerable accessors, also those that entries name. -/
theorem Session.remainder_getters {turns : List Turn} {s u t : State} (h : Session turns s)
    (hworks : Works s u) (hset : u.Settled) {r : Ref} (held : u.store.holds (.ref r) = true)
    {entries : List (Key × Pattern)} {name : Key} {place : Option Key}
    {verdict : Verdict Bindings}
    (hmatch : matchAt (.object entries (some ⟨some name⟩)) place (.ref r) u = (verdict, t)) :
    GettersRun t r ∧ (verdict.isMatched → GettersCopied t r (entries.map Prod.fst)) := by
  have hu := hworks.sound h.sound
  have hproceeds := matchAt_proceeds (.object entries (some ⟨some name⟩)) place (.ref r) u hu
    hset held
  rw [hmatch] at hproceeds
  have ht : t.Sound := hproceeds.works.sound hu
  have htraced : t.Traced := (hworks.trans hproceeds.works).traced h.sound h.traced
  have hreads : ∀ k : Key, (t.cache.readings r k).length ≤ 1 := by
    intro k
    rw [ht.faithful.readings]
    exact Option.length_toList_le
  refine ⟨⟨htraced, hreads, count_getterRuns t r⟩, ?_⟩
  intro hmatched
  obtain ⟨b, w, hentries, -, hcopied⟩ := matchAt_remainder hmatch hmatched
  have hregister := register_leaves hset (.ref r)
  -- the copy is the last thing in the log
  have hlog : t.cache.log = w.cache.log ++
      [⟨.remainder (.ref r) (entries.map Prod.fst), w.store.trace.size, t.store.trace.size⟩] := by
    rw [hcopied]
    rfl
  -- before it, every entry was read
  have hreadings : ∀ k ∈ entries.map Prod.fst, t.cache.readings r k ≠ [] := by
    intro k hk hnone
    rw [Cache.readings, hlog, List.filterMap_append, List.append_eq_nil_iff] at hnone
    exact matchEntries_readings entries r .empty _ (hregister.works.sound hu) hregister.settled
      (hregister.works.leads.keeps.holds held) hentries k hk hnone.1
  have hcopies : t.cache.copies.count (.ref r) ≠ 0 := by
    rw [Cache.copies, hlog, List.filterMap_append, List.count_append]
    simp [Access.copied?]
  refine ⟨⟨_, _, hlog, rfl, ?_, t.store.nodup_ownGetters r⟩, ?_⟩
  · have hran := htraced _ (hlog ▸ List.mem_append_right _ (List.mem_singleton_self _)) rfl
    rw [hran, Access.getters, List.map_map]
    rfl
  · intro k hk
    rw [count_getterRuns t]
    have hread := hreads k
    by_cases hown : k ∈ (t.store.ownGetters r).map Prod.fst
    · obtain ⟨p, hp, hkey⟩ := List.mem_map.1 hown
      have hgetter : t.store.getterOf? r k = some p.2 :=
        hkey ▸ Store.getterOf?_of_mem_ownGetters hp
      have hlength := List.length_pos_iff.2 (hreadings k hk)
      -- one run for the read, and one at least for a copy
      have htwice : ¬ (t.cache.readings r k).length + t.cache.copies.count (.ref r) ≤ 1 := by omega
      simpa [hgetter, hown] using htwice
    · have hnever : (if (t.store.getterOf? r k).isSome then (t.cache.readings r k).length else 0)
          ≤ 1 := by
        split <;> omega
      simpa [hown] using hnever

/-! ## An entry that names an accessor -/

namespace Accessors

/-- An object with two accessors. -/
def blueprint : Blueprint :=
  .object (.mk none none
    [(⟨"a"⟩, .getter (some "a") (.values [.existing (.ofNat 1)])),
      (⟨"b"⟩, .getter (some "b") (.values [.existing (.ofNat 2)]))] none)

/-- A new cache, and the object. -/
def start : State := { store := (blueprint.build .empty).2 }

/-- One accessor by its name, and what is left. -/
def pattern : ObjectPattern where
  entries := [(⟨"a"⟩, .identifier (some ⟨"x"⟩))]
  marker := some ⟨some ⟨"r"⟩⟩

/-- The outcome of the match, and the state after it. -/
def matched : Verdict Bindings × State := matchObject pattern (.ref (.object 0)) start

theorem session : Session [] start := .start (blueprint.build_reaches .empty)

end Accessors

/-- The copy runs both getters, and the one that the entry names has run before. -/
theorem Session.remainder_getters_accessors :
    Accessors.matched.1.isMatched ∧ GettersRun Accessors.matched.2 (.object 0) ∧
      GettersCopied Accessors.matched.2 (.object 0) [⟨"a"⟩] := by
  have hmatched : Accessors.matched.1.isMatched = true := by decide
  have hmatch : matchAt (.object Accessors.pattern.entries (some ⟨some ⟨"r"⟩⟩)) none
      (.ref (.object 0)) Accessors.start = (Accessors.matched.1, Accessors.matched.2) := rfl
  have hall := Session.remainder_getters Accessors.session (.refl _) (fun _ => Memo.settled_empty)
    (by decide) hmatch
  exact ⟨hmatched, hall.1, hall.2 hmatched⟩

/-- A getter that an entry names runs twice in one match: for the entry and for the copy
    from which its value is dropped. -/
theorem Session.named_getter_runs_twice :
    Session [] Accessors.start ∧ Accessors.matched.1.isMatched ∧
      ⟨"a"⟩ ∈ Accessors.pattern.keys ∧
        ¬ Accessors.matched.2.getterRuns.count (.object 0, ⟨"a"⟩) ≤ 1 ∧
          Accessors.matched.2.store.log = ["get a", "get a", "get b"] :=
  ⟨Accessors.session, by decide, by decide, by decide, by decide⟩

end StructuralMatch
