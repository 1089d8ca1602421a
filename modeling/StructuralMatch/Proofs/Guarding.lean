import StructuralMatch.Matcher.Scripted
import StructuralMatch.Proofs.Progress
import StructuralMatch.Proofs.Store.Guarded
import StructuralMatch.Proofs.Store.Together

/-! # What a cache leads to

    A cache at work on a store where some cells are out of reach leads to none of them
    either: nothing that came to light is set aside, and nothing that the opened iterators
    have still to give (`State.Guards`).  Every operation on what is apart leaves it so, and
    what the operation gives is apart.

    A custom matcher is user code that is handed the store.  It is asked to act on the value
    only (`Matcher.ActsOnValue`), as matchers do that decide by a condition on the value. -/

namespace StructuralMatch

open Store

/-! ## Matchers that act on the value -/

/-- A program that judges a value by what it is, whatever store it lives in, and that has
    nothing to do with what the value does not lead to.  What becomes of a primitive depends
    on nothing, and nothing that was there is touched for it. -/
structure Matcher.ActsOnValue (m : Matcher) : Prop where
  guards : ∀ {n : Nat} {hidden : Hidden} {σ : Store} {v : Value}, σ.Guards n hidden →
    v.Apart hidden → (m.judge v σ).2.Guards n hidden
  together : ∀ {n : Nat} {hidden : Hidden} {σ τ : Store} {v : Value}, Alike n σ τ →
    hidden.refs (.iterator n) → σ.Guards n hidden → v.Apart hidden →
      Together n (m.judge v σ) (m.judge v τ)
  verdict : ∀ (p : Primitive) (σ τ : Store), (m.judge (.prim p) σ).1 = (m.judge (.prim p) τ).1
  remarks : ∀ (p : Primitive) (σ : Store), σ.Reaches Event.IsRemark (m.judge (.prim p) σ).2

/-- The reaction does not match anything in its turn. -/
def Reaction.Decides : Reaction → Prop
  | .nested _ => False
  | _ => True

section Judging

variable {n : Nat} {hidden : Hidden} {σ τ : Store}

theorem Store.Alike.isIterable_eq (h : Alike n σ τ) (v : Value) :
    τ.isIterable v = σ.isIterable v := by
  simp only [isIterable, h.object_eq]

theorem Condition.holds_eq (h : Alike n σ τ) (v : Value) (c : Condition) :
    c.holds τ v = c.holds σ v := by
  cases c with
  | has k => exact h.hasProperty_eq v k
  | iterable => exact h.isIterable_eq v
  | _ => rfl

theorem Condition.holds_prim (p : Primitive) (σ τ : Store) (c : Condition) :
    c.holds σ (.prim p) = c.holds τ (.prim p) := by
  cases c with
  | iterable => cases p <;> rfl
  | _ => rfl

theorem Reaction.judge_of_decides {r : Reaction} (h : r.Decides) (v w : Value) (σ τ : Store) :
    r.judge v σ = ((r.judge w τ).1, σ) := by
  cases r with
  | nested p => exact h.elim
  | _ => rfl

/-- An announcement leaves a message at most. -/
theorem Matcher.announce_eq (label : Option String) (v : Value) (σ : Store) :
    ∃ trace, Matcher.announce label v σ = { σ with trace } := by
  cases label with
  | none => exact ⟨σ.trace, rfl⟩
  | some label => exact ⟨_, rfl⟩

/-- A matcher that decides by a condition acts on the value. -/
theorem Matcher.scripted_actsOnValue (name : String) (label : Option String) (test : Condition)
    {yes no : Reaction} (hyes : yes.Decides) (hno : no.Decides) :
    (Matcher.scripted name label test yes no).ActsOnValue := by
  -- whatever the condition says, the reaction decides and leaves the store as announced
  have hjudge : ∀ (v : Value) (σ ρ : Store), (Matcher.scripted name label test yes no).judge v σ =
      (((if test.holds (announce label v σ) v then yes else no).judge v ρ).1,
        announce label v σ) := by
    intro v σ ρ
    refine Reaction.judge_of_decides ?_ v v _ ρ
    split
    · exact hyes
    · exact hno
  constructor
  · intro n hidden σ v h hv
    obtain ⟨trace, hannounce⟩ := announce_eq label v σ
    rw [hjudge v σ σ, hannounce]
    exact h.retrace trace
  · intro n hidden σ τ v h hn hguards hv
    obtain ⟨trace, hannounce⟩ := announce_eq label v σ
    obtain ⟨trace', hannounce'⟩ := announce_eq label v τ
    have hannounced := h.retrace trace trace'
    rw [hjudge v σ σ, hjudge v τ σ, hannounce, hannounce', Condition.holds_eq hannounced]
    exact ⟨rfl, hannounced⟩
  · intro p σ τ
    rw [hjudge _ σ σ, hjudge _ τ σ,
      Condition.holds_prim p (announce label _ σ) (announce label _ τ)]
  · intro p σ
    rw [hjudge _ σ σ]
    cases label with
    | none => exact .refl σ
    | some label => exact (Change.remark σ (.note _) trivial trivial).reaches

end Judging

/-! ## What came to light -/

/-- The value that an access brought to light. -/
def Access.given? : Access → Option Value
  | .read _ _ x => some x
  | .advanced _ _ step => step.value?
  | _ => none

/-- Whether a handle gives what is apart. -/
def Handle.Followed (n : Nat) (hidden : Hidden) : Handle → Prop
  | .cell i => Store.Followed n hidden i
  | .text _ => True

namespace State

variable {n : Nat} {hidden : Hidden} {s t u : State} {α β : Type}

/-- What came to light is apart, and so is what the iterators that were opened give. -/
structure Guards (n : Nat) (hidden : Hidden) (s : State) : Prop where
  given : ∀ e ∈ s.cache.log, ∀ v ∈ e.access.given?, v.Apart hidden
  sources : ∀ {r : Ref} {i : Nat}, s.cache.sources.get? r = some i → Followed n hidden i
  store : s.store.Guards n hidden

/-- One more access, which brings to light what is apart. -/
theorem Guards.record (h : Guards n hidden s) {σ τ : Store} {access : Access}
    (hgiven : ∀ v ∈ access.given?, v.Apart hidden) :
    ∀ e ∈ (s.cache.record access σ τ).log, ∀ v ∈ e.access.given?, v.Apart hidden := by
  intro e he
  rcases List.mem_append.1 he with he | he
  · exact h.given e he
  · exact List.mem_singleton.1 he ▸ hgiven

/-- What was read is apart. -/
theorem Guards.readings_apart (h : Guards n hidden s) {r : Ref} {k : Key} :
    ∀ x ∈ s.cache.readings r k, x.Apart hidden := by
  intro x hx
  obtain ⟨e, he, hvalue⟩ := List.mem_filterMap.1 hx
  refine h.given e he x ?_
  cases ha : e.access with
  | read owner key y =>
      rw [ha, Access.value?, Option.ite_none_right_eq_some] at hvalue
      exact hvalue.2
  | _ => simp [ha, Access.value?] at hvalue

/-- What a memo stands for is apart. -/
theorem Guards.stands_apart (h : Guards n hidden s) (hs : s.Sound) {g : Handle}
    (hu : s.Usable g) {vs : List Value} {ended : Bool} (hm : (s.cache.memo g).Stands vs ended) :
    ∀ x ∈ vs, x.Apart hidden := by
  intro x hx
  cases g with
  | text m =>
      obtain ⟨-, ws, ended', hstands, htells⟩ :=
        hs.faithful.texts m _ (Array.getElem?_eq_getElem hu)
      obtain ⟨rfl, rfl⟩ := hm.unique hstands
      cases x with
      | prim p => trivial
      | ref r => cases htells.plain _ hx
  | cell i =>
      rw [← hs.faithful.filterMap_advances hm] at hx
      obtain ⟨⟨step, position⟩, hadvance, hvalue⟩ := List.mem_filterMap.1 hx
      obtain ⟨e, he, hstep⟩ := List.mem_filterMap.1 hadvance
      refine h.given e he x ?_
      cases ha : e.access with
      | advanced j position' step' =>
          rw [ha, Access.step?, Option.ite_none_right_eq_some] at hstep
          cases hstep.2
          exact hvalue
      | _ => simp [ha, Access.step?] at hstep

theorem Guards.adopt (h : Guards n hidden s) (g : Handle) : Guards n hidden (s.adopt g) where
  given := by
    show ∀ e ∈ (s.cache.adopt g).log, _
    rw [Cache.log_adopt]
    exact h.given
  sources := by
    intro r i hsource
    rw [State.adopt, Cache.sources_adopt] at hsource
    exact h.sources hsource
  store := h.store

theorem Guards.learn (h : Guards n hidden s) (g : Handle) (m : Memo) :
    Guards n hidden (s.learn g m) := ⟨h.given, h.sources, h.store⟩

/-- Reading a property of something that is apart. -/
theorem Guards.read (h : Guards n hidden s) {v : Value} (hv : v.Apart hidden) (k : Key) :
    Guards n hidden (s.read v k).2 := by
  cases v with
  | prim p => exact h
  | ref r =>
      simp only [State.read, Value.identity]
      cases s.cache.property? (.ref r) k with
      | some x => exact h
      | none =>
          obtain ⟨hx, hstore⟩ := get_guarded hv k h.store
          exact ⟨h.record fun v hv => Option.some.inj hv ▸ hx, h.sources, hstore⟩

/-- What is read of something that is apart is so itself. -/
theorem Guards.read_apart (h : Guards n hidden s) (hs : s.Sound) (hset : s.Settled) {v : Value}
    (held : s.store.holds v = true) (hv : v.Apart hidden) (k : Key) :
    (s.read v k).1.Apart hidden := by
  cases v with
  | prim p => trivial
  | ref r =>
      refine (h.read hv k).readings_apart (r := r) (k := k) _ ?_
      rw [(read_leaves hs hset held k).2]
      exact List.mem_singleton_self _

theorem Guards.next (h : Guards n hidden s) {g : Handle} (hg : g.Followed n hidden)
    (position : Nat) : Guards n hidden (s.next g position).2 := by
  cases g with
  | cell i =>
      obtain ⟨hstep, hstore⟩ := next_guarded hg h.store
      exact ⟨h.record hstep, h.sources, hstore⟩
  | text m => exact ⟨h.given, h.sources, h.store⟩

/-- What is yielded by what gives what is apart. -/
theorem Guards.step_apart (hs : s.Sound) (hset : s.Settled) {g : Handle} (hu : s.Usable g)
    {p : Nat} (hr : s.Reached g p) (h : Guards n hidden (s.step g p).2) {x : Value}
    (hx : (s.step g p).1 = .yielded x) : x.Apart hidden := by
  obtain ⟨vs, ended, hm, hp⟩ := hr
  obtain ⟨hleaves, ws, ended', hm', hfound⟩ := step_leaves hs hset hu hm hp
  rw [hx] at hfound
  exact h.stands_apart (hleaves.works.sound hs) (hleaves.works.usable hu) hm' x
    (List.mem_of_getElem? (Step.getElem?_of_run_yielded hfound))

/-- What is left of what gives what is apart. -/
theorem Guards.drainFrom_apart (hs : s.Sound) (hset : s.Settled) {g : Handle} (hu : s.Usable g)
    {p : Nat} (hr : s.Reached g p) (h : Guards n hidden (s.drainFrom g p).2) :
    ∀ x ∈ (s.drainFrom g p).1, x.Apart hidden := by
  obtain ⟨vs, ended, hm, hp⟩ := hr
  obtain ⟨ws, hm', hitems, hleaves⟩ := drainFrom_leaves hs hset hu hm hp
  intro x hx
  rw [hitems] at hx
  exact h.stands_apart (hleaves.works.sound hs) (hleaves.works.usable hu) hm' x
    (List.mem_of_mem_drop hx)

/-- A new cache leads nowhere. -/
theorem Guards.start {σ : Store} (hσ : σ.Guards n hidden) : Guards n hidden { store := σ } :=
  ⟨nofun, nofun, hσ⟩

/-- An iterator was opened that gives what is apart. -/
theorem Guards.opened (h : Guards n hidden s) {σ τ : Store} (hτ : τ.Guards n hidden) {r : Ref}
    {i : Nat} (hi : Followed n hidden i) :
    Guards n hidden ⟨(s.cache.assign r i).record (.opened r i) σ τ, τ⟩ where
  given := h.record nofun
  sources := by
    intro q j hj
    have hinsert : (s.cache.sources.insert r i).get? q = some j := hj
    rw [Assoc.get?_insert] at hinsert
    split at hinsert
    · exact Option.some.inj hinsert ▸ hi
    · exact h.sources hinsert
  store := hτ

/-- The iterator for something that is apart gives what is apart. -/
theorem Guards.iteratorFor_followed (h : Guards n hidden s) {v : Value} (hv : v.Apart hidden)
    {g : Handle} (hg : (s.iteratorFor v).1 = some g) : g.Followed n hidden := by
  cases v with
  | prim p =>
      cases p with
      | text text => exact Option.some.inj hg ▸ trivial
      | _ => cases hg
  | ref r =>
      simp only [State.iteratorFor] at hg
      cases hsource : s.cache.sources.get? r with
      | some i =>
          rw [hsource] at hg
          exact Option.some.inj hg ▸ h.sources hsource
      | none =>
          rw [hsource] at hg
          have hiterate := (iterate_guarded hv h.store).result
          generalize s.store.iterate (.ref r) = iterated at hiterate hg
          rcases iterated with ⟨_ | i, σ⟩
          · cases hg
          · cases hg
            exact .inr (hiterate i rfl)

theorem Guards.collect (h : Guards n hidden s) {items : List Value}
    (hitems : ∀ x ∈ items, x.Apart hidden) : Guards n hidden (s.collect items).2 :=
  ⟨h.record nofun, h.sources, (newArray_guarded hitems h.store).guards⟩

theorem Guards.remainder (h : Guards n hidden s) {v : Value} (hv : v.Apart hidden)
    (excluded : List Key) : Guards n hidden (s.remainder v excluded).2 :=
  ⟨h.record nofun, h.sources, (without_guarded hv excluded h.store).guards⟩

theorem Guards.consult (h : Guards n hidden s) {m : Matcher} (hm : m.ActsOnValue) {v : Value}
    (hv : v.Apart hidden) : Guards n hidden (s.consult m v).2 :=
  ⟨h.record nofun, h.sources, hm.guards (h.store.retrace _) hv⟩

end State

end StructuralMatch
