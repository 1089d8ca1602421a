import StructuralMatch.Matching
import StructuralMatch.Proofs.Insertion
import StructuralMatch.Proofs.Misplacement

/-! # Rest markers as gaps

    A rest marker before the end of an array collects nothing: it takes one element,
    whatever it is, and binds nothing, as a gap does.  `withHoles` puts a gap in the
    place of each such marker, at every depth.

    The result matches as the pattern did, in what it binds and in all that it does to
    the cache and the store.  The two branches differ in that a gap goes on with the
    bindings as they are, and a rest marker merges nothing into them
    (`Bindings.merge_empty`).  What is misplaced in the result is misplaced in the
    pattern and does not stand in an array (`misplaced_of_withHoles`), so where there
    is no such rest marker the result is valid. -/

namespace StructuralMatch

namespace Pattern

/-! ## Putting gaps -/

mutual

/-- The pattern with a gap for each rest marker before the end of an array. -/
def withHoles : Pattern → Pattern
  | .object entries marker => .object (holesEntries entries) marker
  | .array elements => .array (holesElements elements)
  | .literal p => .literal p
  | .regex r => .regex r
  | .identifier name => .identifier name
  | .rest name => .rest name
  | .custom m => .custom m

/-- Entries with gaps in their patterns. -/
def holesEntries : List (Key × Pattern) → List (Key × Pattern)
  | [] => []
  | (k, p) :: entries => (k, p.withHoles) :: holesEntries entries

/-- Elements with gaps among them and in their patterns; a rest marker at the end stays. -/
def holesElements : List (Option Pattern) → List (Option Pattern)
  | [] => []
  | none :: elements => none :: holesElements elements
  | [some (.rest name)] => [some (.rest name)]
  | some (.rest _) :: elements => none :: holesElements elements
  | some p :: elements => some p.withHoles :: holesElements elements

end

variable {p q : Pattern} {i : Nat} {path : List Nat}

/-- A pattern is a rest marker with gaps exactly when it is one without. -/
theorem withHoles_eq_rest_iff {name : Option Key} : p.withHoles = .rest name ↔ p = .rest name := by
  cases p <;> simp [withHoles]

/-- Gaps change no key. -/
theorem map_fst_holesEntries (entries : List (Key × Pattern)) :
    (holesEntries entries).map Prod.fst = entries.map Prod.fst := by
  induction entries with
  | nil => simp [holesEntries]
  | cons entry entries ih =>
      obtain ⟨k, p⟩ := entry
      simp [holesEntries, ih]

/-- An element that is no rest marker keeps its place. -/
theorem holesElements_cons (hrest : ∀ name, p ≠ .rest name) (elements : List (Option Pattern)) :
    holesElements (some p :: elements) = some p.withHoles :: holesElements elements :=
  holesElements.eq_5 _ _ (fun name _ => hrest name) hrest

/-- Before other elements, a rest marker becomes a gap. -/
theorem holesElements_rest (name : Option Key) (element : Option Pattern)
    (elements : List (Option Pattern)) :
    holesElements (some (.rest name) :: element :: elements) =
      none :: holesElements (element :: elements) :=
  holesElements.eq_4 _ _ (by simp)

/-- No pattern but a rest marker is split off the end. -/
theorem trailing?_eq_none (hrest : ∀ name, p ≠ .rest name) (elements : List (Option Pattern)) :
    p.trailing? elements = none := by
  unfold trailing?
  split
  · exact absurd rfl (hrest _)
  · rfl

end Pattern

/-! ## Matching with gaps -/

mutual

/-- With gaps, a pattern matches as it did. -/
theorem matchAt_withHoles : ∀ (p : Pattern) (place : Option Key) (v : Value) (s : State),
    matchAt p.withHoles place v s = matchAt p place v s
  | .custom m, place, v, s => by rw [Pattern.withHoles]
  | .identifier name, place, v, s => by rw [Pattern.withHoles]
  | .rest name, place, v, s => by rw [Pattern.withHoles]
  | .regex r, place, v, s => by rw [Pattern.withHoles]
  | .literal q, place, v, s => by rw [Pattern.withHoles]
  | .array elements, place, v, s => by
      rw [Pattern.withHoles, matchAt, matchAt]
      rcases s.iteratorFor v with ⟨_ | h, t⟩
      · rfl
      · exact matchElements_holes elements h 0 .empty t
  | .object entries marker, place, v, s => by
      rw [Pattern.withHoles, matchAt, matchAt, Pattern.map_fst_holesEntries]
      rcases s.register v with ⟨_ | _, t⟩
      · rfl
      · dsimp only
        rw [matchEntries_holes entries v .empty t]

theorem matchEntries_holes : ∀ (entries : List (Key × Pattern)) (v : Value) (b : Bindings)
    (s : State), matchEntries (Pattern.holesEntries entries) v b s = matchEntries entries v b s
  | [], v, b, s => by rw [Pattern.holesEntries]
  | (k, p) :: entries, v, b, s => by
      rw [Pattern.holesEntries, matchEntries, matchEntries]
      split
      · obtain ⟨x, t⟩ := s.read v k
        dsimp only
        rw [matchAt_withHoles p (some k) x t]
        rcases matchAt p (some k) x t with ⟨c | _ | e, u⟩
        · exact matchEntries_holes entries v (b.merge c) u
        · rfl
        · rfl
      · rfl

theorem matchElements_holes : ∀ (elements : List (Option Pattern)) (h : Handle) (position : Nat)
    (b : Bindings) (s : State),
      matchElements (Pattern.holesElements elements) h position b s =
        matchElements elements h position b s
  | [], h, position, b, s => by rw [Pattern.holesElements]
  | none :: elements, h, position, b, s => by
      rw [Pattern.holesElements, matchElements, matchElements]
      rcases s.step h position with ⟨x | _, t⟩
      · exact matchElements_holes elements h (position + 1) b t
      · rfl
  | some p :: elements, h, position, b, s => by
      by_cases hrest : ∃ name, p = .rest name
      · obtain ⟨name, rfl⟩ := hrest
        cases elements with
        | nil => rw [Pattern.holesElements]
        | cons element elements =>
            -- both take one element; the rest marker then merges nothing
            rw [Pattern.holesElements_rest, matchElements, matchElements, Pattern.trailing?]
            · dsimp only
              rcases s.step h position with ⟨x | _, t⟩
              · dsimp only
                rw [matchAt]
                dsimp only
                rw [Bindings.merge_empty]
                exact matchElements_holes (element :: elements) h (position + 1) b t
              · rfl
            · simp
      · have hrest : ∀ name, p ≠ .rest name := fun name hname => hrest ⟨name, hname⟩
        have hrest' : ∀ name, p.withHoles ≠ .rest name :=
          fun name hname => hrest name (Pattern.withHoles_eq_rest_iff.1 hname)
        rw [Pattern.holesElements_cons hrest, matchElements, matchElements,
          Pattern.trailing?_eq_none hrest, Pattern.trailing?_eq_none hrest']
        dsimp only
        rcases s.step h position with ⟨x | _, t⟩
        · dsimp only
          rw [matchAt_withHoles p (some (.index position)) x t]
          rcases matchAt p (some (.index position)) x t with ⟨c | _ | e, u⟩
          · exact matchElements_holes elements h (position + 1) (b.merge c) u
          · rfl
          · rfl
        · rfl

end

/-! ## What stays misplaced -/

namespace Pattern

variable {p q : Pattern} {i : Nat} {path : List Nat}

/-- The path ends in an array. -/
def InArray (p : Pattern) (path : List Nat) : Prop :=
  ∃ elements i outer, p.enclosing path = (.array elements, i) :: outer

/-- Below a part, the path counts from the part on. -/
theorem inArray_cons (h : p.part? i = some q) (hpath : path ≠ []) :
    p.InArray (i :: path) ↔ q.InArray path := by
  obtain ⟨place, outer, houter⟩ := List.exists_cons_of_ne_nil (enclosing_ne_nil (q := q) hpath)
  simp [InArray, enclosing_cons h, houter]

theorem getElem?_holesEntries (entries : List (Key × Pattern)) (i : Nat) :
    (holesEntries entries)[i]? = entries[i]?.map fun entry => (entry.1, entry.2.withHoles) := by
  induction entries generalizing i with
  | nil => simp [holesEntries]
  | cons entry entries ih =>
      obtain ⟨k, p⟩ := entry
      cases i with
      | zero => simp [holesEntries]
      | succ i => simp [holesEntries, ih]

/-- The first element with gaps, if it is none: it was there, and it is a rest marker only
    if nothing follows. -/
theorem holesElements_cons_eq (element : Option Pattern) (elements : List (Option Pattern)) :
    ∃ element', holesElements (element :: elements) = element' :: holesElements elements ∧
      ∀ q', element' = some q' → ∃ q, element = some q ∧ q' = q.withHoles ∧
        ∀ name, q = .rest name → elements = [] := by
  cases element with
  | none => exact ⟨none, by rw [holesElements], by simp⟩
  | some p =>
      by_cases hrest : ∃ name, p = .rest name
      · obtain ⟨name, rfl⟩ := hrest
        cases elements with
        | nil =>
            refine ⟨some (.rest name), by simp [holesElements], ?_⟩
            rintro q' ⟨⟩
            exact ⟨.rest name, rfl, by rw [withHoles], fun _ _ => rfl⟩
        | cons element elements => exact ⟨none, holesElements_rest .., by simp⟩
      · have hrest : ∀ name, p ≠ .rest name := fun name hname => hrest ⟨name, hname⟩
        refine ⟨some p.withHoles, holesElements_cons hrest elements, ?_⟩
        rintro q' ⟨⟩
        exact ⟨p, rfl, rfl, fun name hname => absurd hname (hrest name)⟩

theorem length_holesElements (elements : List (Option Pattern)) :
    (holesElements elements).length = elements.length := by
  induction elements with
  | nil => simp [holesElements]
  | cons element elements ih =>
      obtain ⟨element', hcons, -⟩ := holesElements_cons_eq element elements
      simp [hcons, ih]

/-- What stands among elements with gaps stood there without, and is a rest marker only at
    the end. -/
theorem getElem?_holesElements {elements : List (Option Pattern)} {q' : Pattern} {i : Nat}
    (h : (holesElements elements)[i]? = some (some q')) :
    ∃ q, elements[i]? = some (some q) ∧ q' = q.withHoles ∧
      ∀ name, q = .rest name → i + 1 = elements.length := by
  induction elements generalizing i with
  | nil => simp [holesElements] at h
  | cons element elements ih =>
      obtain ⟨element', hcons, helement⟩ := holesElements_cons_eq element elements
      rw [hcons] at h
      cases i with
      | zero =>
          obtain ⟨q, rfl, hq, hlast⟩ := helement q' (by simpa using h)
          refine ⟨q, rfl, hq, fun name hname => ?_⟩
          rw [hlast name hname]
          rfl
      | succ i =>
          obtain ⟨q, hat, hq, hlast⟩ := ih (by simpa using h)
          exact ⟨q, by simpa using hat, hq, fun name hname => by simp [hlast name hname]⟩

/-- The parts of a pattern with gaps are parts of the pattern, with gaps; where one is a
    rest marker in an array, it is the last element. -/
theorem part?_withHoles {q' : Pattern} (h : p.withHoles.part? i = some q') :
    ∃ q, p.part? i = some q ∧ q' = q.withHoles ∧ ∀ name elements, q = .rest name →
      p = .array elements → i + 1 = elements.length := by
  cases p with
  | object entries marker =>
      rw [withHoles, part?, getElem?_holesEntries] at h
      cases hentry : entries[i]? with
      | none => simp [hentry] at h
      | some entry =>
          refine ⟨entry.2, by simp [part?, hentry], ?_, by simp⟩
          simpa [hentry] using h.symm
  | array elements =>
      rw [withHoles, part?] at h
      obtain ⟨q, hat, hq, hlast⟩ := getElem?_holesElements (Option.join_eq_some_iff.1 h)
      refine ⟨q, by simp [part?, hat], hq, ?_⟩
      rintro name elements' hname helements
      rw [← array.inj helements]
      exact hlast name hname
  | literal | regex | identifier | rest | custom =>
      rw [withHoles] at h
      cases h

/-- A rest marker that is misplaced where gaps were put was misplaced before, and does not
    stand in an array. -/
theorem misplaced_of_withHoles (p : Pattern) {path : List Nat}
    (h : p.withHoles.Misplaced path) : p.Misplaced path ∧ ¬p.InArray path := by
  induction path generalizing p with
  | nil =>
      obtain ⟨⟨name, hat⟩, -⟩ := h
      have hp : p = .rest name := withHoles_eq_rest_iff.1 (Option.some.inj hat)
      have hroot : ¬p.InArray [] := by
        rintro ⟨elements, i, outer, houter⟩
        cases houter
      refine ⟨⟨⟨name, by rw [hp, at?]⟩, ?_⟩, hroot⟩
      rintro ⟨elements, i, outer, houter, -⟩
      exact hroot ⟨elements, i, outer, houter⟩
  | cons i path ih =>
      obtain ⟨⟨name, hat⟩, hends⟩ := h
      obtain ⟨q', hpart', hat'⟩ := Option.bind_eq_some_iff.1 hat
      obtain ⟨q, hpart, rfl, hlast⟩ := part?_withHoles hpart'
      by_cases hpath : path = []
      · subst hpath
        have hq : q = .rest name := withHoles_eq_rest_iff.1 (Option.some.inj hat')
        -- in an array the marker would be the last element, and so it would with gaps
        have hparent : ¬p.InArray [i] := by
          rintro ⟨elements, j, outer, houter⟩
          rw [enclosing_cons hpart] at houter
          cases houter
          refine hends ⟨_, _, _, enclosing_cons hpart' [], ?_⟩
          rw [length_holesElements]
          exact hlast name elements hq rfl
        refine ⟨⟨⟨name, ?_⟩, ?_⟩, hparent⟩
        · rw [at?_cons hpart, hq, at?]
        · rintro ⟨elements, j, outer, houter, -⟩
          exact hparent ⟨elements, j, outer, houter⟩
      · have hinner : q.withHoles.Misplaced path :=
          ⟨⟨name, hat'⟩, fun hq => hends ((endsArray_cons hpart' hpath).2 hq)⟩
        obtain ⟨⟨⟨name', hat''⟩, hends'⟩, hparent⟩ := ih q hinner
        refine ⟨⟨⟨name', ?_⟩, ?_⟩, ?_⟩
        · rw [at?_cons hpart, hat'']
        · rwa [endsArray_cons hpart hpath]
        · rwa [inArray_cons hpart hpath]

/-! ## The result -/

/-- Rest markers before the end of an array match as gaps do: with gaps in their places a
    pattern has the same outcome, binds the same and leaves the same cache and store with
    the same logs, and it is valid if all its misplaced rest markers stood in arrays. -/
theorem withHoles_alike (p : Pattern) :
    (∀ v s, matchPattern p.withHoles v s = matchPattern p v s) ∧
      ((∀ path, p.Misplaced path → p.InArray path) → p.withHoles.validate = .ok ()) := by
  refine ⟨fun v s => matchAt_withHoles p none v s, fun hin => ?_⟩
  rw [validate_eq_ok_iff]
  intro path hpath
  obtain ⟨hmisplaced, hnot⟩ := misplaced_of_withHoles p hpath
  exact hnot (hin path hmisplaced)

namespace Leading

/-- A rest marker before the end of an array, and one at the end. -/
def pattern : Pattern :=
  .array [some (.rest (some ⟨"head"⟩)), some (.identifier (some ⟨"x"⟩)), some (.rest none)]

theorem inArray {path : List Nat} (h : pattern.Misplaced path) : pattern.InArray path := by
  obtain ⟨⟨name, hat⟩, -⟩ := h
  match path with
  | [] => cases hat
  | [0] => exact ⟨_, 0, [], rfl⟩
  | [1] => cases hat
  | [2] => exact ⟨_, 2, [], rfl⟩
  | 0 :: _ :: _ | 1 :: _ :: _ | 2 :: _ :: _ | (_ + 3) :: _ => cases hat

end Leading

/-- The leading rest marker takes one letter and is a gap. -/
theorem withHoles_alike_leading :
    Leading.pattern.validate ≠ .ok () ∧ Leading.pattern.withHoles.validate = .ok () ∧
      matchPattern Leading.pattern.withHoles (.text "ab") {} =
        matchPattern Leading.pattern (.text "ab") {} ∧
      (matchPattern Leading.pattern (.text "ab") {}).1 =
        .matched (.single ⟨"x"⟩ (.text "b")) := by
  obtain ⟨halike, hvalid⟩ := withHoles_alike Leading.pattern
  refine ⟨?_, hvalid fun path => Leading.inArray, halike _ _, by decide⟩
  rw [Ne, validate_eq_ok_iff]
  intro hnone
  refine hnone [0] ⟨⟨_, rfl⟩, ?_⟩
  rintro ⟨elements, i, outer, houter, hlast⟩
  cases houter
  cases hlast

end Pattern

end StructuralMatch
