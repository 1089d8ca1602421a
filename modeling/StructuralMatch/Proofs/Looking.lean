import StructuralMatch.Proofs.Captures
import StructuralMatch.Proofs.Keeping

/-! # What a match finds

    What a match finds in a part of a store that keeps still depends on the pattern and
    the part alone.  `Still.look` goes down the pattern with nothing but the part in hand
    and lists what is found, for the entries of an object pattern one list each.

    Every match in the part comes out so, whatever was looked at before
    (`matchAt_tells`): it succeeds if something was found, and binds what was found
    last under each name.  Custom matchers are left out. -/

namespace StructuralMatch

/-- What is found for a name. -/
inductive Find where
  | value (v : Value)
  /-- The elements that are left, to be put into a new array. -/
  | array (items : List Value)
  /-- The properties that are left, as a new object. -/
  | object (o : Object)

/-- What is found, in order. -/
abbrev Finds := Assoc Key Find

/-- The value is what was found; an array or object is one made since. -/
inductive Find.Made (before after : Store) : Find → Value → Prop where
  | value (v : Value) : Made before after (.value v) v
  | array {items : List Value} {a : Nat} (there : after.arrays[a]? = some items)
      (new : before.arrays.size ≤ a) : Made before after (.array items) (.ref (.array a))
  | object {object : Object} {o : Nat} (there : after.objects[o]? = some object)
      (new : before.objects.size ≤ o) : Made before after (.object object) (.ref (.object o))

/-- The bindings are what was found, name by name. -/
def Bindings.Bears (before after : Store) (b : Bindings) (fs : Finds) : Prop :=
  b.entries.Related (fun v f => f.Made before after v) fs

section Bearing

variable {before after later : Store} {b c : Bindings} {fs gs : Finds}

theorem Find.Made.keeps (hk : after.Keeps later) {f : Find} {v : Value}
    (h : f.Made before after v) : f.Made before later v := by
  cases h with
  | value v => exact .value v
  | array there new => exact .array (hk.arrays there) new
  | object there new => exact .object (hk.objects there) new

theorem Bindings.Bears.keeps (hk : after.Keeps later) (h : b.Bears before after fs) :
    b.Bears before later fs :=
  List.Forall₂.imp (fun _ _ he => ⟨he.1, he.2.keeps hk⟩) h

theorem Bindings.bears_empty (before after : Store) : Bindings.empty.Bears before after [] := .nil

/-- Merging what was found. -/
theorem Bindings.Bears.merge (h : b.Bears before after fs)
    (hc : c.Bears before after (Assoc.ofPairs gs)) :
    (b.merge c).Bears before after (fs.insertAll gs) := by
  rw [Bears, Bindings.entries_merge, ← Assoc.insertAll_ofPairs fs gs]
  exact Assoc.Related.insertAll h hc

end Bearing

namespace Store.Still

variable {σ : Store}

/-! ## Looking -/

/-- The elements that are left, under the name of a rest marker if it has one. -/
def findRest (name : Option Key) (items : List Value) : Finds :=
  match name with
  | some k => [(k, .array items)]
  | none => []

/-- The properties that are left, under the name of a rest marker if it has one. -/
def findRemainder (S : σ.Still) (marker : Option RestMarker) (r : Ref) (keys : List Key) : Finds :=
  match marker.bind (·.name) with
  | some k => [(k, .object (S.copy r keys))]
  | none => []

mutual

/-- What a match finds, if it succeeds. -/
def look (S : σ.Still) : Pattern → (place : Option Key) → Value → Option Finds
  | .custom _, _, _ => none
  | .identifier name, place, v => some ((name.or place).toList.map fun k => (k, .value v))
  | .rest _, _, _ => some []
  | .regex r, _, v =>
      (r.participants (σ.text v)).map fun groups => groups.map fun g => (⟨g.1⟩, .value (.text g.2))
  | .literal p, _, v => if (Value.prim p).same v then some [] else none
  | .array elements, _, v =>
      match S.listed v with
      | some xs => S.lookElements elements 0 xs
      | none => none
  | .object _ _, _, .prim _ => none
  | .object entries marker, _, .ref r =>
      match S.lookEntries entries r with
      | some blocks => some (blocks.flatten ++ S.findRemainder marker r (entries.map Prod.fst))
      | none => none

/-- What the entries of an object pattern find, one after another. -/
def lookEntries (S : σ.Still) : List (Key × Pattern) → Ref → Option (List Finds)
  | [], _ => some []
  | (k, p) :: entries, r =>
      if σ.hasProperty (.ref r) k then
        match S.look p (some k) (S.property r k), S.lookEntries entries r with
        | some block, some blocks => some (block :: blocks)
        | _, _ => none
      else none

/-- What the elements of an array pattern find, given the values from a position on. -/
def lookElements (S : σ.Still) : List (Option Pattern) → (position : Nat) → List Value → Option Finds
  | [], _, xs => if xs.isEmpty then some [] else none
  | none :: elements, position, xs =>
      match xs with
      | [] => none
      | _ :: xs => S.lookElements elements (position + 1) xs
  | some p :: elements, position, xs =>
      match p.trailing? elements with
      | some name => some (findRest name xs)
      | none =>
          match xs with
          | [] => none
          | x :: xs =>
              match S.look p (some (.index position)) x,
                  S.lookElements elements (position + 1) xs with
              | some fs, some gs => some (fs ++ gs)
              | _, _ => none

end

/-! ## Matching -/

/-- The match comes out as it was found. -/
inductive Tells (S : σ.Still) : Verdict Bindings × State → Option Finds → Prop where
  | matched {b : Bindings} {t : State} {fs : Finds} (steady : S.Steady t)
      (bears : b.Bears σ t.store fs) : Tells S (.matched b, t) (some fs)
  | unmatched (t : State) : Tells S (.unmatched, t) none

variable {S : σ.Still} {s t : State} {h : Handle} {p : Nat} {xs : List Value}

/-- What is found for a leaf of a pattern. -/
theorem tells_identifier (hs : S.Steady s) (name place : Option Key) (v : Value) :
    S.Tells (.matched (matchIdentifier name place v), s)
      (some (.ofPairs ((name.or place).toList.map fun k => (k, .value v)))) := by
  refine .matched hs ?_
  rw [matchIdentifier]
  cases name.or place with
  | none => exact .nil
  | some k => exact .cons ⟨rfl, .value v⟩ .nil

theorem tells_literal (hs : S.Steady s) (q : Primitive) (v : Value) :
    S.Tells (matchLiteral q v, s)
      ((if (Value.prim q).same v then some [] else none).map Assoc.ofPairs) := by
  rw [matchLiteral]
  split
  · exact .matched hs (Bindings.bears_empty _ _)
  · exact .unmatched s

theorem tells_regex (hs : S.Steady s) (r : Regex) (v : Value) :
    S.Tells (matchRegex r v s.store, s)
      (((r.participants (s.store.text v)).map fun groups => groups.map fun g =>
        ((⟨g.1⟩ : Key), Find.value (.text g.2))).map Assoc.ofPairs) := by
  rw [matchRegex_eq]
  cases r.participants (s.store.text v) with
  | none => exact .unmatched s
  | some groups =>
      refine .matched hs (Assoc.Related.insertAll (Bindings.bears_empty _ _) ?_)
      exact List.forall₂_map_left_iff.2 (List.forall₂_map_right_iff.2
        (List.forall₂_same.2 fun g _ => ⟨rfl, .value _⟩))

/-- The elements that are left are put into a new array. -/
theorem tells_bindCollected (hs : S.Steady s) (name : Option Key) {items : List Value}
    (held : ∀ v ∈ items, s.store.holds v = true) {b : Bindings} {fs : Finds}
    (hb : b.Bears σ s.store fs) :
    S.Tells (.matched (bindCollected name items b s).1, (bindCollected name items b s).2)
      (some (fs.insertAll (findRest name items))) := by
  cases name with
  | none => exact .matched hs hb
  | some k =>
      have hkeeps := hs.keeps_acts (State.Act.collect s items).acts
      exact .matched (hs.collect items)
        (Assoc.Related.insert (hb.keeps hkeeps) k (.array (collect_array held) hs.keeps.arrays_size))

/-- The properties that are left are put into a new object. -/
theorem tells_bindRemainder (hs : S.Steady s) {r : Ref} (hr : S.part r)
    (marker : Option RestMarker) (keys : List Key) {b : Bindings} {fs : Finds}
    (hb : b.Bears σ s.store fs) :
    S.Tells (.matched (bindRemainder marker keys (.ref r) b s).1,
        (bindRemainder marker keys (.ref r) b s).2)
      (some (fs.insertAll (S.findRemainder marker r keys))) := by
  rw [bindRemainder, findRemainder]
  cases marker.bind (·.name) with
  | none => exact .matched hs hb
  | some k =>
      obtain ⟨o, t, hremainder, ht, hkeeps, hnew, hthere⟩ := hs.remainder hr keys
      rw [hremainder]
      exact .matched ht (Assoc.Related.insert (hb.keeps hkeeps) k (.object hthere hnew))

/-! ## Going down -/

/-- A property of something in the part has its value there. -/
theorem property_within {r : Ref} (hr : S.part r) (hσ : σ.Grounded) (k : Key) :
    (S.property r k).Within S.part := (S.get_eq hr hσ (.refl σ) k).2

/-- What something in the part gives one by one is there, too. -/
theorem listed_within {v : Value} (hv : v.Within S.part) (hlisted : S.listed v = some xs) :
    ∀ x ∈ xs, x.Within S.part := by
  cases v with
  | ref r => exact S.holds_of_values (hv r rfl) hlisted
  | prim q =>
      cases q with
      | text text =>
          obtain rfl := Option.some.inj hlisted
          intro x hx
          obtain ⟨c, -, rfl⟩ := List.mem_map.1 hx
          exact Value.within_prim _ _
      | _ => cases hlisted

mutual

/-- A match in the part comes out as it was found. -/
theorem matchAt_tells (hσ : σ.Grounded) : ∀ (p : Pattern) (place : Option Key) (v : Value)
    (s : State), p.customFree = true → S.Steady s → v.Within S.part →
      S.Tells (matchAt p place v s) ((S.look p place v).map Assoc.ofPairs)
  | .custom m, place, v, s, hfree, hs, hv => nomatch hfree
  | .identifier name, place, v, s, hfree, hs, hv => by
      rw [matchAt, look]
      exact tells_identifier hs name place v
  | .rest name, place, v, s, hfree, hs, hv => by
      rw [matchAt, look]
      exact .matched hs (Bindings.bears_empty _ _)
  | .regex r, place, v, s, hfree, hs, hv => by
      rw [matchAt, look, ← hs.keeps.text_eq hσ (S.holds hv)]
      exact tells_regex hs r v
  | .literal q, place, v, s, hfree, hs, hv => by
      rw [matchAt, look]
      exact tells_literal hs q v
  | .array elements, place, v, s, hfree, hs, hv => by
      rw [matchAt, look]
      cases hlisted : S.listed v with
      | none =>
          have hnone := hs.iteratorFor_barren hv hlisted
          generalize s.iteratorFor v = opened at hnone ⊢
          obtain ⟨opened, t⟩ := opened
          subst hnone
          exact .unmatched t
      | some xs =>
          obtain ⟨h, t, hfor, ht, hserves⟩ := hs.iteratorFor hv hlisted
          rw [hfor]
          exact matchElements_tells hσ elements h 0 xs .empty [] t hfree ht hserves
            (listed_within hv hlisted) (Bindings.bears_empty _ _)
  | .object entries marker, place, .prim q, s, hfree, hs, hv => by
      rw [matchAt, look]
      exact .unmatched s
  | .object entries marker, place, .ref r, s, hfree, hs, hv => by
      have hr : S.part r := hv r rfl
      have hentries := matchEntries_tells hσ entries r .empty [] (s.register (.ref r)).2 hfree
        (hs.register r) hr (Bindings.bears_empty _ _)
      rw [matchAt, look]
      simp only [State.register, Value.identity] at hentries ⊢
      generalize matchEntries entries (.ref r) .empty _ = matched at hentries ⊢
      generalize S.lookEntries entries r = looked at hentries ⊢
      cases looked with
      | none =>
          cases hentries with
          | unmatched t => exact .unmatched t
      | some blocks =>
          cases hentries with
          | @matched b t _ ht hb =>
              -- the remainder is found behind what the entries find
              have hbound := tells_bindRemainder ht hr marker (entries.map Prod.fst) hb
              rwa [← Assoc.insertAll_append] at hbound

/-- Matching entries adds what the entries find. -/
theorem matchEntries_tells (hσ : σ.Grounded) : ∀ (entries : List (Key × Pattern)) (r : Ref)
    (b : Bindings) (fs : Finds) (s : State),
      Pattern.everyEntry Pattern.asksNoMatcher entries = true → S.Steady s → S.part r →
        b.Bears σ s.store fs → S.Tells (matchEntries entries (.ref r) b s)
          ((S.lookEntries entries r).map fun blocks => fs.insertAll blocks.flatten)
  | [], r, b, fs, s, hfree, hs, hr, hb => by
      rw [matchEntries, lookEntries]
      exact .matched hs hb
  | (k, p) :: entries, r, b, fs, s, hfree, hs, hr, hb => by
      obtain ⟨hfreep, hfree⟩ := Bool.and_eq_true_iff.1 hfree
      rw [matchEntries, lookEntries, hs.keeps.hasProperty_eq hσ (S.there hr)]
      split
      · obtain ⟨t, hread, ht, hkeeps⟩ := hs.read hσ hr k
        rw [hread]
        have hpart := matchAt_tells hσ p (some k) (S.property r k) t hfreep ht
          (property_within hr hσ k)
        have hparts := matchAt_acts p (some k) (S.property r k) t ht.sound ht.settled
          (ht.held (property_within hr hσ k))
        -- what was found before the part stays found
        have hb' := hb.keeps (hkeeps.trans (ht.keeps_acts hparts))
        dsimp only
        generalize matchAt p (some k) (S.property r k) t = matched at hpart hb' ⊢
        generalize S.look p (some k) (S.property r k) = looked at hpart ⊢
        cases looked with
        | none =>
            cases hpart with
            | unmatched u => exact .unmatched u
        | some block =>
            cases hpart with
            | @matched c u _ hu hc =>
                have hrest := matchEntries_tells hσ entries r (b.merge c) (fs.insertAll block) u
                  hfree hu hr (hb'.merge hc)
                generalize S.lookEntries entries r = looked at hrest ⊢
                cases looked with
                | none => exact hrest
                | some blocks =>
                    rw [Option.map_some, ← Assoc.insertAll_append] at hrest
                    exact hrest
      · exact .unmatched s

/-- Matching elements adds what the elements find. -/
theorem matchElements_tells (hσ : σ.Grounded) : ∀ (elements : List (Option Pattern)) (h : Handle)
    (position : Nat) (xs : List Value) (b : Bindings) (fs : Finds) (s : State),
      Pattern.everyElement Pattern.asksNoMatcher elements = true → S.Steady s →
        S.Serves s h position xs → (∀ x ∈ xs, x.Within S.part) → b.Bears σ s.store fs →
          S.Tells (matchElements elements h position b s)
            ((S.lookElements elements position xs).map fun gs => fs.insertAll gs)
  | [], h, position, xs, b, fs, s, hfree, hs, hserves, hxs, hb => by
      obtain ⟨t, hstep, ht, hkeeps, -⟩ := hs.step hserves
      rw [matchElements, lookElements, hstep]
      cases xs with
      | nil => exact .matched ht (hb.keeps hkeeps)
      | cons x xs => exact .unmatched t
  | none :: elements, h, position, xs, b, fs, s, hfree, hs, hserves, hxs, hb => by
      obtain ⟨t, hstep, ht, hkeeps, hnext⟩ := hs.step hserves
      rw [matchElements, lookElements.eq_def, hstep]
      cases xs with
      | nil => exact .unmatched t
      | cons x xs =>
          exact matchElements_tells hσ elements h (position + 1) xs b fs t hfree ht
            (hnext (List.cons_ne_nil x xs)) (fun y hy => hxs y (List.mem_cons_of_mem x hy))
            (hb.keeps hkeeps)
  | some p :: elements, h, position, xs, b, fs, s, hfree, hs, hserves, hxs, hb => by
      obtain ⟨hfreep, hfree⟩ := Bool.and_eq_true_iff.1 hfree
      rw [matchElements, lookElements.eq_def]
      dsimp only
      cases htrailing : p.trailing? elements with
      | some name =>
          -- a trailing rest finds the values that are left
          obtain ⟨t, hdrain, ht, hkeeps⟩ := hs.drainFrom hserves
          rw [hdrain]
          exact tells_bindCollected ht name (fun v hv => ht.held (hxs v hv)) (hb.keeps hkeeps)
      | none =>
          obtain ⟨t, hstep, ht, hkeeps, hnext⟩ := hs.step hserves
          rw [hstep]
          cases xs with
          | nil => exact .unmatched t
          | cons x xs =>
              have hx := hxs x (List.mem_cons_self ..)
              have hpart := matchAt_tells hσ p (some (.index position)) x t hfreep ht hx
              have hparts := matchAt_acts p (some (.index position)) x t ht.sound ht.settled
                (ht.held hx)
              have hb' := hb.keeps (hkeeps.trans (ht.keeps_acts hparts))
              -- the part left the iterator alone, so it serves the next values
              have hserves' := (hnext (List.cons_ne_nil x xs)).later hparts ht.sound ht.settled
              simp only [List.head?_cons, Step.ofOption]
              generalize matchAt p (some (.index position)) x t = matched at hpart hb' hserves' ⊢
              generalize S.look p (some (.index position)) x = looked at hpart ⊢
              cases looked with
              | none =>
                  cases hpart with
                  | unmatched u => exact .unmatched u
              | some block =>
                  cases hpart with
                  | @matched c u _ hu hc =>
                      have hrest := matchElements_tells hσ elements h (position + 1) xs (b.merge c)
                        (fs.insertAll block) u hfree hu hserves'
                        (fun y hy => hxs y (List.mem_cons_of_mem x hy)) (hb'.merge hc)
                      dsimp only at hrest ⊢
                      generalize S.lookElements elements (position + 1) xs = looked at hrest ⊢
                      cases looked with
                      | none => exact hrest
                      | some gs =>
                          rw [Option.map_some, ← Assoc.insertAll_append] at hrest
                          exact hrest

end

end Store.Still

end StructuralMatch
