import StructuralMatch.Selection

/-! # The course of the store during a match

    A match does nothing to the store but read properties, open and advance
    iterators, ask matchers and make cells.  So it respects what every operation
    on a store does (`Store.Respected`), if its matchers do, and a selection
    respects it when its arms do.  The induction follows the pattern; the cache
    plays no part in it.

    In particular both are runs of changes, as every program is.

    Iterators are read and drained by advancing them, so what every advance preserves,
    of the store or of the cache, a read and a drain do (`step_preserves`,
    `drainFrom_preserves`). -/

namespace StructuralMatch

namespace State

/-! ## What every advance preserves -/

section Preserves

variable {P : State → Prop} {s : State} {h : Handle}

/-- What an advance preserves, any number of them does. -/
theorem repeatedly_preserves {pull : State → Step × State}
    (hpull : ∀ t : State, P t → P (pull t).2) (count : Nat) :
    ∀ {t : State}, P t → P (repeatedly pull count t) := by
  induction count with
  | zero => exact id
  | succ count ih =>
      intro t ht
      have hfirst := hpull t ht
      rw [repeatedly]
      generalize pull t = pulled at hfirst ⊢
      rcases pulled with ⟨_ | _, u⟩
      · exact ih hfirst
      · exact hfirst

/-- A positional read takes the iterator in charge and advances it, if it does anything. -/
theorem step_preserves (hadopt : P (s.adopt h))
    (hpull : ∀ t : State, P t → P (t.pull Memo.addStep h).2) (position : Nat) :
    P (s.step h position).2 := by
  rw [step]
  dsimp only
  split
  · exact hadopt
  · exact repeatedly_preserves hpull _ hadopt

/-- And so does a drain. -/
theorem drainFrom_preserves (hadopt : P (s.adopt h))
    (hpull : ∀ t : State, P t → P (t.pull Memo.addTail h).2) (position : Nat) :
    P (s.drainFrom h position).2 := by
  rw [drainFrom]
  dsimp only
  split
  · exact hadopt
  · rw [drain]
    split
    · exact hadopt
    · exact repeatedly_preserves hpull _ hadopt

end Preserves

/-! ## What every operation on a store respects -/

section Respects

open Store (Respected)

variable {R : Store → Store → Prop}

/-- Visiting a value is the cache's business. -/
theorem register_store (s : State) (v : Value) : (s.register v).2.store = s.store := by
  rw [register]
  split <;> rfl

/-- A property that is known costs the store nothing; another is looked at. -/
theorem read_respects (hR : Respected R) (s : State) (v : Value) (k : Key) :
    R s.store (s.read v k).2.store := by
  rw [read]
  split
  · exact hR.refl _
  · split
    · exact hR.refl _
    · exact hR.inspected.get s.store v k

/-- An iterator is opened if none was opened before. -/
theorem iteratorFor_respects (hR : Respected R) (s : State) (v : Value) :
    R s.store (s.iteratorFor v).2.store := by
  simp only [iteratorFor]
  split
  · exact hR.refl _
  · exact hR.refl _
  · rename_i r
    split
    · exact hR.refl _
    · have h := hR.iterate s.store (.ref r)
      generalize s.store.iterate (.ref r) = iterated at h ⊢
      rcases iterated with ⟨_ | i, σ⟩
      · exact h
      · exact h

/-- An advance is one of the store's, or spells a letter. -/
theorem pull_respects (hR : Respected R) (add : Memo → Step → Memo) (h : Handle) (s : State) :
    R s.store (s.pull add h).2.store := by
  cases h with
  -- only a cell is an iterator of the store
  | cell i => exact hR.next s.store i
  | text n => exact hR.refl _

/-- A positional read advances, if it does anything to the store. -/
theorem step_respects (hR : Respected R) (s : State) (h : Handle) (position : Nat) :
    R s.store (s.step h position).2.store :=
  step_preserves (P := fun t => R s.store t.store) (hR.refl _)
    (fun t ht => hR.trans ht (pull_respects hR Memo.addStep h t)) position

/-- So does a drain. -/
theorem drainFrom_respects (hR : Respected R) (s : State) (h : Handle) (position : Nat) :
    R s.store (s.drainFrom h position).2.store :=
  drainFrom_preserves (P := fun t => R s.store t.store) (hR.refl _)
    (fun t ht => hR.trans ht (pull_respects hR Memo.addTail h t)) position

/-- Closing a handle closes its iterator, if it has one. -/
theorem closeHandle_respects (hR : Respected R) (s : State) (h : Handle) :
    R s.store (s.closeHandle h).2.store := by
  cases h with
  | cell i => exact hR.close s.store i
  | text n => exact hR.refl _

/-- Handles are closed one after another. -/
theorem closeAll_respects (hR : Respected R) : ∀ (hs : List Handle) (s : State),
    R s.store (closeAll hs s).2.store
  | [], s => hR.refl s.store
  | h :: hs, s => hR.trans (closeHandle_respects hR s h) (closeAll_respects hR hs _)

/-- Closing a cache closes iterators. -/
theorem close_respects (hR : Respected R) (s : State) : R s.store s.close.2.store :=
  closeAll_respects hR s.cache.opened { s with cache := { s.cache with opened := [] } }

end Respects

theorem read_leads (s : State) (v : Value) (k : Key) : s.store.Leads (s.read v k).2.store :=
  read_respects Store.leads_respected s v k

theorem closeHandle_leads (s : State) (h : Handle) : s.store.Leads (s.closeHandle h).2.store :=
  closeHandle_respects Store.leads_respected s h

theorem close_leads (s : State) : s.store.Leads s.close.2.store :=
  close_respects Store.leads_respected s

end State

/-! ## Patterns -/

namespace Pattern

mutual

/-- The custom matchers in a pattern. -/
def matchers : Pattern → List Matcher
  | .custom m => [m]
  | .object entries _ => entryMatchers entries
  | .array elements => elementMatchers elements
  | _ => []

/-- The custom matchers in the patterns of entries. -/
def entryMatchers : List (Key × Pattern) → List Matcher
  | [] => []
  | (_, p) :: entries => p.matchers ++ entryMatchers entries

/-- The custom matchers in the patterns of elements. -/
def elementMatchers : List (Option Pattern) → List Matcher
  | [] => []
  | none :: elements => elementMatchers elements
  | some p :: elements => p.matchers ++ elementMatchers elements

end

end Pattern

/-- Asking a matcher leads from one store to another that is related to it. -/
def Matcher.Respects (m : Matcher) (R : Store → Store → Prop) : Prop :=
  ∀ (v : Value) (σ : Store), R σ (m.judge v σ).2

section Patterns

open Store (Respected)

variable {R : Store → Store → Prop}

/-- The matcher is noted before it is asked. -/
theorem matchCustom_respects (hR : Respected R) {m : Matcher} (hm : m.Respects R) (v : Value)
    (s : State) : R s.store (matchCustom m v s).2.store :=
  hR.trans (hR.remark s.store (e := .consulted m.name) trivial) (hm v _)

theorem bindCollected_respects (hR : Respected R) (name : Option Key) (items : List Value)
    (b : Bindings) (s : State) : R s.store (bindCollected name items b s).2.store := by
  cases name with
  | none => exact hR.refl _
  | some name => exact hR.spares (Store.Change.array s.store items).reaches

/-- What is left of an object is looked at and copied, if it is named. -/
theorem bindRemainder_respects (hR : Respected R) (marker : Option RestMarker) (keys : List Key)
    (v : Value) (b : Bindings) (s : State) :
    R s.store (bindRemainder marker keys v b s).2.store := by
  rw [bindRemainder]
  split
  · exact hR.refl _
  · exact hR.inspected.without s.store v keys

mutual

/-- Matching a pattern respects what its matchers and every operation on a store respect. -/
theorem matchAt_respects (hR : Respected R) : ∀ (p : Pattern) (place : Option Key) (v : Value)
    (s : State), (∀ m ∈ p.matchers, m.Respects R) → R s.store (matchAt p place v s).2.store
  | .custom m, place, v, s, hm => by
      rw [matchAt]
      exact matchCustom_respects hR (hm m (List.mem_singleton_self m)) v s
  | .identifier name, place, v, s, hm => by
      rw [matchAt]
      exact hR.refl _
  | .rest name, place, v, s, hm => by
      rw [matchAt]
      exact hR.refl _
  | .regex r, place, v, s, hm => by
      rw [matchAt]
      exact hR.refl _
  | .literal q, place, v, s, hm => by
      rw [matchAt]
      exact hR.refl _
  | .array elements, place, v, s, hm => by
      have hopen := State.iteratorFor_respects hR s v
      rw [matchAt]
      generalize s.iteratorFor v = opened at hopen ⊢
      rcases opened with ⟨_ | h, t⟩
      · exact hopen
      · exact hR.trans hopen (matchElements_respects hR elements h 0 .empty t hm)
  | .object entries marker, place, v, s, hm => by
      have hregister := s.register_store v
      rw [matchAt]
      generalize s.register v = registered at hregister ⊢
      rcases registered with ⟨_ | _, t⟩
      · exact hregister ▸ hR.refl _
      · have hentries := matchEntries_respects hR entries v .empty t hm
        rw [← hregister]
        dsimp only
        generalize matchEntries entries v .empty t = matched at hentries ⊢
        rcases matched with ⟨b | _ | e, u⟩
        · exact hR.trans hentries (bindRemainder_respects hR marker _ v b u)
        · exact hentries
        · exact hentries

/-- So does matching entries. -/
theorem matchEntries_respects (hR : Respected R) : ∀ (entries : List (Key × Pattern)) (v : Value)
    (b : Bindings) (s : State), (∀ m ∈ Pattern.entryMatchers entries, m.Respects R) →
      R s.store (matchEntries entries v b s).2.store
  | [], v, b, s, hm => by
      rw [matchEntries]
      exact hR.refl _
  | (k, p) :: entries, v, b, s, hm => by
      rw [Pattern.entryMatchers] at hm
      rw [matchEntries]
      split
      · have hread := State.read_respects hR s v k
        generalize s.read v k = readed at hread ⊢
        obtain ⟨x, t⟩ := readed
        have hp := hR.trans hread (matchAt_respects hR p (some k) x t
          fun m h => hm m (List.mem_append_left _ h))
        dsimp only
        generalize matchAt p (some k) x t = matched at hp ⊢
        rcases matched with ⟨c | _ | e, u⟩
        · exact hR.trans hp (matchEntries_respects hR entries v (b.merge c) u
            fun m h => hm m (List.mem_append_right _ h))
        · exact hp
        · exact hp
      · exact hR.refl _

/-- And so does matching elements. -/
theorem matchElements_respects (hR : Respected R) : ∀ (elements : List (Option Pattern))
    (h : Handle) (position : Nat) (b : Bindings) (s : State),
      (∀ m ∈ Pattern.elementMatchers elements, m.Respects R) →
        R s.store (matchElements elements h position b s).2.store
  | [], h, position, b, s, hm => by
      rw [matchElements]
      exact State.step_respects hR s h position
  | none :: elements, h, position, b, s, hm => by
      rw [Pattern.elementMatchers] at hm
      have hstep := State.step_respects hR s h position
      rw [matchElements]
      generalize s.step h position = stepped at hstep ⊢
      rcases stepped with ⟨_ | _, t⟩
      · exact hR.trans hstep (matchElements_respects hR elements h (position + 1) b t hm)
      · exact hstep
  | some p :: elements, h, position, b, s, hm => by
      rw [Pattern.elementMatchers] at hm
      rw [matchElements]
      split
      · rename_i name _
        exact hR.trans (State.drainFrom_respects hR s h position)
          (bindCollected_respects hR name _ b _)
      · have hstep := State.step_respects hR s h position
        generalize s.step h position = stepped at hstep ⊢
        rcases stepped with ⟨x | _, t⟩
        · have hp := hR.trans hstep (matchAt_respects hR p (some (.index position)) x t
            fun m h => hm m (List.mem_append_left _ h))
          dsimp only
          generalize matchAt p (some (.index position)) x t = matched at hp ⊢
          rcases matched with ⟨c | _ | e, u⟩
          · exact hR.trans hp (matchElements_respects hR elements h (position + 1) (b.merge c) u
              fun m h => hm m (List.mem_append_right _ h))
          · exact hp
          · exact hp
        · exact hstep

end

end Patterns

/-- Matching a pattern is a run of changes of the store. -/
theorem matchAt_leads (p : Pattern) (place : Option Key) (v : Value) (s : State) :
    s.store.Leads (matchAt p place v s).2.store :=
  matchAt_respects Store.leads_respected p place v s fun m _ => m.leads

/-- Matching entries is a run of changes of the store. -/
theorem matchEntries_leads (entries : List (Key × Pattern)) (v : Value) (b : Bindings)
    (s : State) : s.store.Leads (matchEntries entries v b s).2.store :=
  matchEntries_respects Store.leads_respected entries v b s fun m _ => m.leads

/-! ## Selections -/

/-- The programs of an arm lead from stores to others that are related to them. -/
def Arm.Respects {ρ : Type} (R : Store → Store → Prop) : Arm ρ → Prop
  | .when p handler =>
      (∀ m ∈ p.matchers, m.Respects R) ∧ ∀ (b : Bindings) (σ : Store), R σ (handler b σ).2
  | .whether test handler =>
      (∀ (v : Value) (σ : Store), R σ (test v σ).2)
        ∧ ∀ (v : Value) (σ : Store), R σ (handler v σ).2
  | .otherwise handler => ∀ (v : Value) (σ : Store), R σ (handler v σ).2
  | .custom evaluate => ∀ (v : Value) (s : State), R s.store (evaluate v s).2.store

/-- The programs of an arm do to the store what programs can do. -/
def Arm.Leads {ρ : Type} : Arm ρ → Prop
  | .when _ handler => ∀ (b : Bindings) (σ : Store), σ.Leads (handler b σ).2
  | .whether test handler =>
      (∀ (v : Value) (σ : Store), σ.Leads (test v σ).2)
        ∧ ∀ (v : Value) (σ : Store), σ.Leads (handler v σ).2
  | .otherwise handler => ∀ (v : Value) (σ : Store), σ.Leads (handler v σ).2
  | .custom evaluate => ∀ (v : Value) (s : State), s.store.Leads (evaluate v s).2.store

section Arms

open Store (Respected)

variable {ρ : Type} {R : Store → Store → Prop}

/-- Every matcher leads somewhere, so only the programs of the arm matter. -/
theorem Arm.Leads.respects {arm : Arm ρ} (harm : arm.Leads) : arm.Respects Store.Leads := by
  cases arm with
  | when p handler => exact ⟨fun m _ => m.leads, harm⟩
  | _ => exact harm

/-- An arm that matches goes on to its handler, on the store that the match left. -/
theorem Arm.evaluate_respects (hR : Respected R) {arm : Arm ρ} (harm : arm.Respects R) (v : Value)
    (s : State) : R s.store (arm.evaluate v s).2.store := by
  cases arm with
  | when p handler =>
      have hp : R s.store (matchPattern p v s).2.store := matchAt_respects hR p none v s harm.1
      rw [Arm.evaluate]
      generalize matchPattern p v s = matched at hp ⊢
      rcases matched with ⟨b | _ | e, t⟩
      · exact hR.trans hp (harm.2 b t.store)
      · exact hp
      · exact hp
  | whether test handler =>
      have htest := harm.1 v s.store
      rw [Arm.evaluate]
      generalize test v s.store = tested at htest ⊢
      rcases tested with ⟨_ | _, σ⟩
      · exact htest
      · exact hR.trans htest (harm.2 v σ)
  | otherwise handler => exact harm v s.store
  | custom evaluate => exact harm v s

theorem Arm.evaluate_leads {arm : Arm ρ} (harm : arm.Leads) (v : Value) (s : State) :
    s.store.Leads (arm.evaluate v s).2.store :=
  arm.evaluate_respects Store.leads_respected harm.respects v s

namespace Selection

/-- Arms are evaluated in order, up to the first that matches or fails. -/
theorem select_respects (hR : Respected R) (v : Value) : ∀ (arms : List (Arm ρ)) (index : Nat)
    (s : State), (∀ arm ∈ arms, arm.Respects R) → R s.store (select arms index v s).2.store
  | [], _, _, _ => hR.refl _
  | arm :: arms, index, s, harms => by
      have harm := Arm.evaluate_respects hR (harms arm (List.mem_cons_self ..)) v s
      rw [select]
      generalize arm.evaluate v s = evaluated at harm ⊢
      rcases evaluated with ⟨r | _ | e, t⟩
      · exact harm
      · exact hR.trans harm (select_respects hR v arms (index + 1) t
          fun a ha => harms a (List.mem_cons_of_mem _ ha))
      · exact harm

theorem select_leads (v : Value) (arms : List (Arm ρ)) (index : Nat) (s : State)
    (harms : ∀ arm ∈ arms, arm.Leads) : s.store.Leads (select arms index v s).2.store :=
  select_respects Store.leads_respected v arms index s fun arm h => (harms arm h).respects

/-- A selection without a fallback respects what its arms do. -/
theorem finish_respects (hR : Respected R) {arms : List (Arm ρ)}
    (harms : ∀ arm ∈ arms, arm.Respects R) (v : Value) (σ : Store) :
    R σ (finish arms v σ).2 := by
  have hselect := select_respects hR v arms 0 { store := σ } harms
  rw [finish]
  generalize select arms 0 v { store := σ } = selected at hselect ⊢
  obtain ⟨verdict, s⟩ := selected
  cases verdict <;> exact hR.trans hselect (State.close_respects hR s)

end Selection

end Arms

end StructuralMatch
