import StructuralMatch.Proofs.Iterables
import StructuralMatch.Proofs.Looking

/-! # The order of entries

    On what keeps still, the entries of an object pattern can be put into any order: with
    fresh caches both patterns match or both do not, and where no two entries capture one
    name they bind the same (`matchPattern_perm`).  The runs read properties and advance shared
    iterators in different orders and stop at different points, but each entry finds the
    same wherever it stands (`Still.look`), so what the entries find is permuted with
    them (`lookEntries_perm`).

    A name that only one entry captures is found in that entry's list alone, so the order
    of the lists makes no difference to it (`Assoc.get?_ofPairs_flatten`).  The rest
    marker comes last in any order, and its name may be that of an entry. -/

namespace StructuralMatch

/-! ## Lists of pairs in any order -/

namespace Assoc

variable {κ α : Type} [DecidableEq κ]

/-- What is found under a key was given with it. -/
theorem mem_keys_of_get?_ofPairs {ps : List (κ × α)} {k : κ} {a : α}
    (h : (ofPairs ps).get? k = some a) : k ∈ keys ps := by
  have hk : k ∈ (ofPairs ps).keys := (get?_isSome_iff _ k).1 (Option.isSome_of_eq_some h)
  rw [keys_ofPairs] at hk
  exact List.mem_eraseDups.1 hk

/-- Where lists of pairs share no key, what they describe together is what they describe one
    by one. -/
theorem get?_ofPairs_flatten {blocks : List (List (κ × α))}
    (apart : blocks.Pairwise fun b c => ∀ k ∈ keys b, k ∉ keys c) (k : κ) (a : α) :
    (ofPairs blocks.flatten).get? k = some a ↔ ∃ b ∈ blocks, (ofPairs b).get? k = some a := by
  induction blocks generalizing a with
  | nil => simp [ofPairs, insertAll]
  | cons b blocks ih =>
      obtain ⟨hb, apart⟩ := List.pairwise_cons.1 apart
      rw [List.flatten_cons, get?_ofPairs_append, Option.or_eq_some_iff, ih apart,
        List.exists_mem_cons_iff]
      refine ⟨fun h => h.symm.imp_left And.right, fun h => ?_⟩
      rcases h with hfirst | hlater
      · -- the key is one of the first list, so no other list has it
        refine .inr ⟨?_, hfirst⟩
        refine Option.eq_none_iff_forall_ne_some.2 fun a' ha' => ?_
        obtain ⟨c, hc, hfound⟩ := (ih apart a').1 ha'
        exact hb c hc k (mem_keys_of_get?_ofPairs hfirst) (mem_keys_of_get?_ofPairs hfound)
      · exact .inl hlater

/-- So their order makes no difference. -/
theorem get?_ofPairs_flatten_perm {blocks blocks' : List (List (κ × α))}
    (perm : blocks.Perm blocks') (apart : blocks.Pairwise fun b c => ∀ k ∈ keys b, k ∉ keys c)
    (k : κ) : (ofPairs blocks.flatten).get? k = (ofPairs blocks'.flatten).get? k := by
  have hsymm : ∀ {b c : List (κ × α)}, (∀ k ∈ keys b, k ∉ keys c) → ∀ k ∈ keys c, k ∉ keys b :=
    fun h k hc hb => h k hb hc
  have apart' := (perm.pairwise_iff hsymm).1 apart
  ext a
  rw [get?_ofPairs_flatten apart, get?_ofPairs_flatten apart']
  simp only [perm.mem_iff]

end Assoc

/-- The patterns of all entries pass a test exactly if each of them does. -/
theorem Pattern.everyEntry_iff {test : Pattern → Bool} {entries : List (Key × Pattern)} :
    everyEntry test entries = true ↔ ∀ e ∈ entries, e.2.every test = true := by
  induction entries with
  | nil => simp [everyEntry]
  | cons e entries ih => rw [everyEntry, Bool.and_eq_true, ih, List.forall_mem_cons]

/-! ## What entries find -/

namespace Store.Still

variable {σ : Store} {S : σ.Still} {r : Ref} {entries entries' : List (Key × Pattern)}

/-- What one entry finds. -/
def lookEntry (S : σ.Still) (e : Key × Pattern) (r : Ref) : Option Finds :=
  if σ.hasProperty (.ref r) e.1 then S.look e.2 (some e.1) (S.property r e.1) else none

/-- Each entry finds its own. -/
theorem lookEntries_cons (S : σ.Still) (e : Key × Pattern) (entries : List (Key × Pattern))
    (r : Ref) : S.lookEntries (e :: entries) r =
      (S.lookEntry e r).bind fun block => (S.lookEntries entries r).map (block :: ·) := by
  obtain ⟨k, p⟩ := e
  rw [lookEntries, lookEntry]
  split
  · cases S.look p (some k) (S.property r k) <;> cases S.lookEntries entries r <;> rfl
  · rfl

/-- What the entries find is permuted with them. -/
theorem lookEntries_perm (S : σ.Still) (r : Ref) (perm : entries.Perm entries') :
    Option.Rel List.Perm (S.lookEntries entries r) (S.lookEntries entries' r) := by
  induction perm with
  | nil =>
      rw [lookEntries]
      exact .some .nil
  | @cons e entries entries' _ ih =>
      rw [lookEntries_cons, lookEntries_cons]
      generalize S.lookEntries entries r = looked at ih ⊢
      generalize S.lookEntries entries' r = looked' at ih ⊢
      cases S.lookEntry e r with
      | none => exact .none
      | some block =>
          cases ih with
          | none => exact .none
          | some hblocks => exact .some (hblocks.cons block)
  | swap e f entries =>
      simp only [lookEntries_cons]
      cases S.lookEntry e r with
      | none => cases S.lookEntry f r <;> exact .none
      | some block =>
          cases S.lookEntry f r with
          | none => exact .none
          | some block' =>
              cases S.lookEntries entries r with
              | none => exact .none
              | some blocks => exact .some (.swap ..)
  | @trans entries₁ entries₂ entries₃ _ _ ih ih' =>
      -- an order in between: both or neither of the three orders find something
      generalize S.lookEntries entries₁ r = looked₁ at ih ⊢
      generalize S.lookEntries entries₂ r = looked₂ at ih ih'
      cases ih with
      | none => exact ih'
      | some hblocks =>
          generalize S.lookEntries entries₃ r = looked₃ at ih' ⊢
          cases ih' with
          | some hblocks' => exact .some (hblocks.trans hblocks')

/-- The lists that the entries find, one each. -/
theorem lookEntries_eq_some {blocks : List Finds} (h : S.lookEntries entries r = some blocks) :
    blocks = entries.map (fun e => (S.lookEntry e r).getD []) ∧
      ∀ e ∈ entries, (S.lookEntry e r).isSome := by
  induction entries generalizing blocks with
  | nil =>
      rw [lookEntries] at h
      exact ⟨(Option.some.inj h).symm, by simp⟩
  | cons e entries ih =>
      rw [lookEntries_cons] at h
      obtain ⟨block, hblock, h⟩ := Option.bind_eq_some_iff.1 h
      obtain ⟨blocks', hblocks, rfl⟩ := Option.map_eq_some_iff.1 h
      obtain ⟨rfl, hall⟩ := ih hblocks
      refine ⟨by rw [List.map_cons, hblock, Option.getD_some], List.forall_mem_cons.2 ⟨?_, hall⟩⟩
      rw [hblock, Option.isSome_some]

/-- The remainder is the same in any order of the keys. -/
theorem findRemainder_perm (S : σ.Still) (marker : Option RestMarker) (r : Ref)
    {keys keys' : List Key} (perm : keys.Perm keys') :
    S.findRemainder marker r keys = S.findRemainder marker r keys' := by
  have hcopy : S.copy r keys = S.copy r keys' := by
    simp only [copy, perm.contains_eq]
  rw [findRemainder, findRemainder, hcopy]

end Store.Still

/-! ## Permuting entries -/

/-- On a fresh cache, an object pattern with this entry alone matches and captures the name. -/
def Store.Captures (σ : Store) (v : Value) (e : Key × Pattern) (k : Key) : Prop :=
  ∃ b : Bindings, (matchPattern (.object [e] none) v { store := σ }).1 = .matched b ∧
    b.contains k = true

/-- No name is captured by two entries. -/
def Store.Separates (σ : Store) (v : Value) (entries : List (Key × Pattern)) : Prop :=
  entries.Pairwise fun e f => ∀ k, ¬(σ.Captures v e k ∧ σ.Captures v f k)

/-- What one run has bound and what another has, both begun on one store: the same value, or
    new arrays with the same elements, or new objects with the same properties. -/
inductive Value.Counterparts (before after after' : Store) : Value → Value → Prop where
  | same (v : Value) : Counterparts before after after' v v
  | array {items : List Value} {a a' : Nat} (there : after.arrays[a]? = some items)
      (there' : after'.arrays[a']? = some items) (new : before.arrays.size ≤ a)
      (new' : before.arrays.size ≤ a') :
      Counterparts before after after' (.ref (.array a)) (.ref (.array a'))
  | object {object : Object} {o o' : Nat} (there : after.objects[o]? = some object)
      (there' : after'.objects[o']? = some object) (new : before.objects.size ≤ o)
      (new' : before.objects.size ≤ o') :
      Counterparts before after after' (.ref (.object o)) (.ref (.object o'))

/-- What was found once is bound alike. -/
theorem Find.Made.counterparts {before after after' : Store} {f : Find} {v v' : Value}
    (h : f.Made before after v) (h' : f.Made before after' v') :
    v.Counterparts before after after' v' := by
  cases h with
  | value v =>
      cases h'
      exact .same v
  | array there new =>
      cases h' with
      | array there' new' => exact .array there there' new new'
  | object there new =>
      cases h' with
      | object there' new' => exact .object there there' new new'

/-- Where the same was found last, counterparts are bound. -/
theorem Bindings.Bears.counterparts {before after after' : Store} {b b' : Bindings}
    {fs fs' : Finds} (hb : b.Bears before after fs) (hb' : b'.Bears before after' fs') {k : Key}
    (hk : fs.get? k = fs'.get? k) :
    Option.Rel (Value.Counterparts before after after') (b.get? k) (b'.get? k) := by
  have hfirst := Assoc.Related.get? hb k
  have hsecond := Assoc.Related.get? hb' k
  rw [hk] at hfirst
  rw [Bindings.get?, Bindings.get?]
  generalize fs'.get? k = found at hfirst hsecond
  generalize b.entries.get? k = bound at hfirst ⊢
  generalize b'.entries.get? k = bound' at hsecond ⊢
  cases hfirst with
  | none =>
      cases hsecond
      exact .none
  | some hv =>
      cases hsecond with
      | some hv' => exact .some (hv.counterparts hv')

namespace Store.Still

variable {σ : Store} {S : σ.Still} {r : Ref} {entries entries' : List (Key × Pattern)}
  {marker : Option RestMarker}

/-- With a fresh cache, an object pattern comes out as its entries find. -/
theorem matchObject_tells (S : σ.Still) (hσ : σ.Grounded) (hr : S.part r)
    (hfree : (Pattern.object entries marker).customFree = true) :
    S.Tells (matchPattern (.object entries marker) (.ref r) { store := σ })
      ((S.lookEntries entries r).map fun blocks =>
        .ofPairs (blocks.flatten ++ S.findRemainder marker r (entries.map Prod.fst))) := by
  have hstart : S.Steady { store := σ } :=
    ⟨⟨hσ, nofun, nofun, Cache.faithful_empty⟩, fun _ => Memo.settled_empty, keeping_start⟩
  have htells := matchAt_tells hσ (.object entries marker) none (.ref r) _ hfree hstart
    (Value.within_ref hr)
  rw [look] at htells
  generalize S.lookEntries entries r = looked at htells ⊢
  cases looked <;> exact htells

/-- What an entry finds it captures. -/
theorem captures_of_lookEntry (hσ : σ.Grounded) (hr : S.part r) {e : Key × Pattern}
    (hfree : e.2.customFree = true) {block : Finds} (hblock : S.lookEntry e r = some block)
    {k : Key} (hk : k ∈ Assoc.keys block) : σ.Captures (.ref r) e k := by
  have hone : (Pattern.object [e] none).customFree = true := by
    show Pattern.everyEntry Pattern.asksNoMatcher [e] = true
    exact Pattern.everyEntry_iff.2 (List.forall_mem_singleton.2 hfree)
  have htells := S.matchObject_tells hσ hr hone
  rw [lookEntries_cons, hblock, lookEntries] at htells
  rw [Store.Captures]
  generalize matchPattern (.object [e] none) (.ref r) { store := σ } = run at htells ⊢
  cases htells with
  | @matched b t _ ht hb =>
      refine ⟨b, rfl, (Bindings.contains_iff b k).2 ?_⟩
      rw [Bindings.keys, Assoc.Related.keys_eq hb, Assoc.keys_ofPairs]
      simpa [findRemainder, List.mem_eraseDups] using hk

/-- Where no two entries capture one name, the lists that they find share none. -/
theorem pairwise_lookEntries (S : σ.Still) (hσ : σ.Grounded) (hr : S.part r)
    (hfree : ∀ e ∈ entries, e.2.customFree = true) (blocks : List Finds)
    (hblocks : S.lookEntries entries r = some blocks)
    (apart : σ.Separates (.ref r) entries) :
    blocks.Pairwise fun b c => ∀ k ∈ Assoc.keys b, k ∉ Assoc.keys c := by
  obtain ⟨rfl, hall⟩ := lookEntries_eq_some hblocks
  have hcaptures : ∀ e ∈ entries, ∀ k ∈ Assoc.keys ((S.lookEntry e r).getD []),
      σ.Captures (.ref r) e k := by
    intro e he k hk
    obtain ⟨block, hblock⟩ := Option.isSome_iff_exists.1 (hall e he)
    rw [hblock] at hk
    exact captures_of_lookEntry hσ hr (hfree e he) hblock hk
  refine List.pairwise_map.2 (apart.imp_of_mem fun he hf hef k hk hk' => ?_)
  exact hef k ⟨hcaptures _ he k hk, hcaptures _ hf k hk'⟩

end Store.Still

/-- **The order of entries makes no difference** on what keeps still, if no custom matcher is
    asked: with fresh caches, an object pattern and one with its entries in another order both
    match or both do not; and if no two entries capture one name, they bind the same names to
    the same values, up to the arrays and objects that are made of what is left. -/
theorem matchPattern_perm {σ : Store} (made : Store.empty.Leads σ) (S : σ.Still) {r : Ref}
    (here : S.part r) {entries entries' : List (Key × Pattern)} (perm : entries.Perm entries')
    (marker : Option RestMarker) (free : (Pattern.object entries marker).customFree = true) :
    let run := matchPattern (.object entries marker) (.ref r) { store := σ }
    let run' := matchPattern (.object entries' marker) (.ref r) { store := σ }
    (run.1 = .unmatched ∧ run'.1 = .unmatched) ∨
      ∃ b b', run.1 = .matched b ∧ run'.1 = .matched b' ∧
        (σ.Separates (.ref r) entries →
          ∀ k, Option.Rel (Value.Counterparts σ run.2.store run'.2.store) (b.get? k)
            (b'.get? k)) := by
  have hσ : σ.Grounded := made.grounded Store.grounded_empty
  have hfree : ∀ e ∈ entries, e.2.customFree = true := Pattern.everyEntry_iff.1 free
  have free' : (Pattern.object entries' marker).customFree = true := by
    show Pattern.everyEntry Pattern.asksNoMatcher entries' = true
    exact Pattern.everyEntry_iff.2 fun e he => hfree e (perm.mem_iff.2 he)
  -- on what keeps still, each run finds what is there to be found
  have htells := S.matchObject_tells hσ here free
  have htells' := S.matchObject_tells hσ here free'
  -- the entries find the same lists in another order, and the same remainder
  have hblocks := S.lookEntries_perm r perm
  have hrest := S.findRemainder_perm marker r (perm.map Prod.fst)
  have hapart := fun blocks => S.pairwise_lookEntries hσ here hfree blocks
  intro run run'
  change S.Tells run _ at htells
  change S.Tells run' _ at htells'
  generalize S.lookEntries entries r = looked at htells hblocks hapart
  generalize S.lookEntries entries' r = looked' at htells' hblocks
  generalize run = first at htells ⊢
  generalize run' = second at htells' ⊢
  cases hblocks with
  | none =>
      cases htells
      cases htells'
      exact .inl ⟨rfl, rfl⟩
  | @some blocks blocks' hperm =>
      cases htells with
      | @matched b t _ _ hb =>
          cases htells' with
          | @matched b' t' _ _ hb' =>
              refine .inr ⟨b, b', rfl, rfl, fun apart k => hb.counterparts hb' ?_⟩
              -- lists that share no key may be put together in any order
              rw [Assoc.get?_ofPairs_append, Assoc.get?_ofPairs_append, hrest,
                Assoc.get?_ofPairs_flatten_perm hperm (hapart blocks rfl apart)]

/-! ## Two properties that share an iterator -/

/-- An object whose factory hands out a new iterator over the same values on every run keeps
    doing so. -/
theorem Store.Offers.opens_later {σ τ : Store} {xs : List Value} {o : Nat}
    (h : Offers σ xs (.object o) σ) (held : ∀ x ∈ xs, σ.holds x = true) (hk : σ.Keeps τ)
    (hf : σ.SameFactories τ) (known : Nat → List Value → Prop) : τ.Opens known (.object o) xs := by
  generalize hυ : σ = υ at h
  cases h with
  | @object o f object factory plan here made there steady lists =>
      subst hυ
      have hobject : τ.object o = object := by
        rw [Store.object, Array.getD_eq_getD_getElem?, hk.objects here]
        rfl
      obtain ⟨factory', there', hbody⟩ := hf f factory there
      have hgives : (factory'.body factory'.runs).Gives (.fresh plan) := hbody ▸ steady _
      -- the run is counted and leaves messages, and then the iterator is made
      have hstart := (Change.startFactory (P := Event.Spares (· < τ.iterators.size)) τ f factory'
        (.object o) fun _ _ => id).reaches
      have hscript := hgives.run_reaches (P := Event.Spares (· < τ.iterators.size))
        (fun i σ => σ.next i) (fun i σ => σ.close i) (fun _ _ _ => id)
        (τ.startFactory f factory' (.object o))
      obtain ⟨trace, hrun⟩ := hgives.run (fun i σ => σ.next i) (fun i σ => σ.close i)
        (τ.startFactory f factory' (.object o))
      rw [hrun] at hscript
      obtain ⟨it, source, hbuild, live, hlists, -⟩ :=
        lists { τ.startFactory f factory' (.object o) with trace }
      have hmake := plan.build_reaches (P := Event.Spares (· < τ.iterators.size))
        { τ.startFactory f factory' (.object o) with trace }
      rw [hbuild] at hmake
      have hspares := (hstart.trans hscript).trans hmake
      have hopened : τ.iterate (.ref (.object o)) = (some τ.iterators.size,
          (Store.newIterator { τ.startFactory f factory' (.object o) with trace } it).2) := by
        simp only [iterate, hobject, made, runFactory, there', runScript, hrun, supply, hbuild]
        rfl
      have hiterators : (Store.newIterator
          { τ.startFactory f factory' (.object o) with trace } it).2.iterators =
            τ.iterators.push it := rfl
      have hfeeds : (Store.newIterator
          { τ.startFactory f factory' (.object o) with trace } it).2.Feeds
            (· = τ.iterators.size) τ.iterators.size xs :=
        feeds_of_lists xs (hiterators ▸ Array.getElem?_push_size) live hlists fun x hx =>
          hspares.keeps.holds (hk.holds (held x hx))
      refine .new hopened hspares hfeeds rfl ?_
      rintro c rfl
      exact ⟨Nat.le_refl _, by simp [hiterators]⟩

namespace Shared

/-- A generator over two texts. -/
def generator : Blueprint :=
  .iterator (.mk .generator (.items [some (.existing (.text "one")), some (.existing (.text "two"))])
    none)

/-- An object whose factory hands out generators over one text. -/
def iterable : Blueprint :=
  .object (.mk none none [] (some (.mk .generator (.items [some (.existing (.text "three"))]) none)))

/-- An object two properties of which are the one generator. -/
def blueprint : Blueprint :=
  .object (.mk none none
    [(⟨"a"⟩, .field (.existing (.ref (.iterator 0)))), (⟨"b"⟩, .field (.existing (.ref (.iterator 0)))),
      (⟨"c"⟩, .field (.existing (.ref (.object 0)))), (⟨"d"⟩, .field (.existing (.text "four")))] none)

def store : Store := (blueprint.build (iterable.build (generator.build .empty).2).2).2

theorem made : Store.empty.Leads store :=
  ((generator.build_reaches .empty).trans (iterable.build_reaches _)).trans (blueprint.build_reaches _)

/-- What can be reached from the object. -/
def part (r : Ref) : Prop := r = .object 1 ∨ r = .object 0 ∨ r = .iterator 0

theorem texts_within (texts : List String) : ∀ x ∈ texts.map Value.text, x.Within part := by
  intro x hx
  obtain ⟨text, -, rfl⟩ := List.mem_map.1 hx
  exact Value.within_prim _ _

theorem properties_plain : ∀ e ∈ (store.object 1).properties,
    ∃ v : Value, e.2.slot = .data v ∧ v.Within part := by
  have hiterator : part (.iterator 0) := .inr (.inr rfl)
  have hiterable : part (.object 0) := .inr (.inl rfl)
  have hproperties : (store.object 1).properties =
      [(⟨"a"⟩, .field (.ref (.iterator 0))), (⟨"b"⟩, .field (.ref (.iterator 0))),
        (⟨"c"⟩, .field (.ref (.object 0))), (⟨"d"⟩, .field (.text "four"))] := rfl
  rw [hproperties]
  exact List.forall_mem_cons.2 ⟨⟨_, rfl, Value.within_ref hiterator⟩,
    List.forall_mem_cons.2 ⟨⟨_, rfl, Value.within_ref hiterator⟩,
      List.forall_mem_cons.2 ⟨⟨_, rfl, Value.within_ref hiterable⟩,
        List.forall_mem_singleton.2 ⟨_, rfl, Value.within_prim _ _⟩⟩⟩⟩

/-- What can be reached from the object keeps still. -/
def still : store.Still where
  part := part
  yields := fun _ => [.text "one", .text "two"]
  supplies := fun _ => [.text "three"]
  cells := fun _ => (· = 0)
  there := by
    rintro r (rfl | rfl | rfl) <;> rfl
  plain := by
    rintro r o k p (rfl | rfl | rfl) ho hp
    · cases ho
      exact properties_plain (k, p) (Store.mem_of_findProperty rfl hp)
    · cases ho
      cases Store.mem_of_findProperty (o := store.object 0) rfl hp
    · cases ho
  elements := by
    rintro a (h | h | h) <;> cases h
  yielded := by
    rintro i - x hx
    exact texts_within ["one", "two"] x hx
  supplied := by
    rintro o - x hx
    exact texts_within ["three"] x hx
  own := by
    rintro i (h | h | h) <;> cases h
    exact ⟨rfl, by rintro c rfl; decide⟩
  feeds := by
    rintro i (h | h | h) <;> cases h
    exact Store.feeds_of_lists _ rfl rfl (.cons (.give _) (.cons (.give _) .nil)) (by decide)
  apart := by
    rintro i j (h | h | h) (h' | h' | h') <;> cases h <;> cases h'
    exact fun h => absurd rfl h
  opens := by
    rintro o (h | h | h) hfactory τ hk hf <;> cases h
    · cases hfactory
    · exact Store.Offers.opens_later (.object rfl rfl rfl (fun _ => .give _)
        (IteratorPlan.lists_existing .generator none [.text "three"])) (by decide) hk hf _

/-- The first value of the generator, and what is left of it. -/
def first : Key × Pattern :=
  (⟨"a"⟩, .array [some (.identifier (some ⟨"x"⟩)), some (.rest (some ⟨"xs"⟩))])

/-- Both values of the generator. -/
def both : Key × Pattern :=
  (⟨"b"⟩, .array [some (.identifier (some ⟨"y"⟩)), some (.identifier (some ⟨"z"⟩))])

/-- The value that the factory's generators give. -/
def third : Key × Pattern := (⟨"c"⟩, .array [some (.identifier (some ⟨"w"⟩))])

def marker : Option RestMarker := some ⟨some ⟨"others"⟩⟩

/-- An entry captures what its match alone binds. -/
theorem mem_of_captures {e : Key × Pattern} {b : Bindings} {k : Key}
    (hmatch : (matchPattern (.object [e] none) (.ref (.object 1)) { store := store }).1 = .matched b)
    (h : store.Captures (.ref (.object 1)) e k) : k ∈ b.keys := by
  obtain ⟨c, hc, hk⟩ := h
  cases hmatch.symm.trans hc
  exact (Bindings.contains_iff b k).1 hk

theorem separates : store.Separates (.ref (.object 1)) [first, both, third] := by
  have hfirst : ∀ k, store.Captures (.ref (.object 1)) first k →
      k ∈ [(⟨"x"⟩ : Key), ⟨"xs"⟩] := fun k =>
    mem_of_captures (b := .ofPairs [(⟨"x"⟩, .text "one"), (⟨"xs"⟩, .ref (.array 0))]) (by decide)
  have hboth : ∀ k, store.Captures (.ref (.object 1)) both k → k ∈ [(⟨"y"⟩ : Key), ⟨"z"⟩] := fun k =>
    mem_of_captures (b := .ofPairs [(⟨"y"⟩, .text "one"), (⟨"z"⟩, .text "two")]) (by decide)
  have hthird : ∀ k, store.Captures (.ref (.object 1)) third k → k ∈ [(⟨"w"⟩ : Key)] := fun k =>
    mem_of_captures (b := .ofPairs [(⟨"w"⟩, .text "three")]) (by decide)
  have hapart : ∀ {e f : Key × Pattern} {ks ls : List Key},
      (∀ k, store.Captures (.ref (.object 1)) e k → k ∈ ks) →
        (∀ k, store.Captures (.ref (.object 1)) f k → k ∈ ls) → (∀ k ∈ ks, k ∉ ls) →
          ∀ k, ¬(store.Captures (.ref (.object 1)) e k ∧ store.Captures (.ref (.object 1)) f k) :=
    fun he hf hne k h => hne k (he k h.1) (hf k h.2)
  refine List.pairwise_cons.2 ⟨List.forall_mem_cons.2 ⟨hapart hfirst hboth (by decide),
    List.forall_mem_singleton.2 (hapart hfirst hthird (by decide))⟩, ?_⟩
  exact List.pairwise_pair.2 (hapart hboth hthird (by decide))

end Shared

/-- Three entries, two of which read one generator, backwards. -/
theorem matchPattern_perm_shared :
    ∃ b b', (matchPattern (.object [Shared.first, Shared.both, Shared.third] Shared.marker)
          (.ref (.object 1)) { store := Shared.store }).1 = .matched b ∧
      (matchPattern (.object [Shared.third, Shared.both, Shared.first] Shared.marker)
          (.ref (.object 1)) { store := Shared.store }).1 = .matched b' ∧
      b.keys = [⟨"x"⟩, ⟨"xs"⟩, ⟨"y"⟩, ⟨"z"⟩, ⟨"w"⟩, ⟨"others"⟩] ∧
      b'.keys = [⟨"w"⟩, ⟨"y"⟩, ⟨"z"⟩, ⟨"x"⟩, ⟨"xs"⟩, ⟨"others"⟩] ∧
      ∀ k, Option.Rel (Value.Counterparts Shared.store
          (matchPattern (.object [Shared.first, Shared.both, Shared.third] Shared.marker)
            (.ref (.object 1)) { store := Shared.store }).2.store
          (matchPattern (.object [Shared.third, Shared.both, Shared.first] Shared.marker)
            (.ref (.object 1)) { store := Shared.store }).2.store) (b.get? k) (b'.get? k) := by
  have perm : [Shared.first, Shared.both, Shared.third].Perm
      [Shared.third, Shared.both, Shared.first] := (List.reverse_perm _).symm
  have hfirst : (matchPattern (.object [Shared.first, Shared.both, Shared.third] Shared.marker)
      (.ref (.object 1)) { store := Shared.store }).1 =
        .matched (.ofPairs [(⟨"x"⟩, .text "one"), (⟨"xs"⟩, .ref (.array 0)), (⟨"y"⟩, .text "one"),
          (⟨"z"⟩, .text "two"), (⟨"w"⟩, .text "three"), (⟨"others"⟩, .ref (.object 2))]) := by decide +kernel
  have hsecond : (matchPattern (.object [Shared.third, Shared.both, Shared.first] Shared.marker)
      (.ref (.object 1)) { store := Shared.store }).1 =
        .matched (.ofPairs [(⟨"w"⟩, .text "three"), (⟨"y"⟩, .text "one"), (⟨"z"⟩, .text "two"),
          (⟨"x"⟩, .text "one"), (⟨"xs"⟩, .ref (.array 0)), (⟨"others"⟩, .ref (.object 2))]) := by
    decide +kernel
  obtain ⟨hunmatched, -⟩ | ⟨b, b', hb, hb', hsame⟩ :=
    matchPattern_perm Shared.made Shared.still (r := .object 1) (.inl rfl) perm Shared.marker rfl
  · exact nomatch hfirst.symm.trans hunmatched
  · cases hfirst.symm.trans hb
    cases hsecond.symm.trans hb'
    exact ⟨_, _, hb, hb', rfl, rfl, hsame Shared.separates⟩

end StructuralMatch
