import StructuralMatch.Pattern.RestPlacement
import StructuralMatch.Proofs.Visits

/-! # Rest markers as wildcards

    A rest marker that is put against a value like any other pattern matches
    whatever the value is.  Matching has a branch for this, and `matchAtWith` is
    matching with another program in its place.  The branch is taken at the visits
    to a rest marker, and only there does the program matter
    (`matchAtWith_eq_matchAt`).

    Validation and matching decide independently which rest markers end an array:
    one looks for a last element, the other splits it off when it gets there.  They
    agree, so that a validated pattern never comes to the branch
    (`validated_never_wild`). -/

namespace StructuralMatch

/-! ## Matching with another program for rest markers -/

/-- What is done with a rest marker that is put against a value. -/
abbrev Wildcard := (name : Option Key) → Value → State → Verdict Bindings × State

mutual

/-- Match a pattern against a value, with a program for rest markers. -/
def matchAtWith (wild : Wildcard) :
    Pattern → (place : Option Key) → Value → State → Verdict Bindings × State
  | .custom m, _, v, s => matchCustom m v s
  | .identifier name, place, v, s => (.matched (matchIdentifier name place v), s)
  | .rest name, _, v, s => wild name v s
  | .regex r, _, v, s => (matchRegex r v s.store, s)
  | .array elements, _, v, s =>
      match s.iteratorFor v with
      | (none, s) => (.unmatched, s)
      | (some h, s) => matchElementsWith wild elements h 0 .empty s
  | .object entries marker, _, v, s =>
      match s.register v with
      | (false, s) => (.unmatched, s)
      | (true, s) =>
          match matchEntriesWith wild entries v .empty s with
          | (.matched b, s) =>
              let (b, s) := bindRemainder marker (entries.map Prod.fst) v b s
              (.matched b, s)
          | other => other
  | .literal p, _, v, s => (matchLiteral p v, s)

/-- Match entries, with a program for rest markers. -/
def matchEntriesWith (wild : Wildcard) :
    List (Key × Pattern) → Value → Bindings → State → Verdict Bindings × State
  | [], _, b, s => (.matched b, s)
  | (k, p) :: entries, v, b, s =>
      if s.store.hasProperty v k then
        let (x, s) := s.read v k
        match matchAtWith wild p (some k) x s with
        | (.matched c, s) => matchEntriesWith wild entries v (b.merge c) s
        | other => other
      else (.unmatched, s)

/-- Match elements from a position on, with a program for rest markers. -/
def matchElementsWith (wild : Wildcard) :
    List (Option Pattern) → Handle → (position : Nat) → Bindings → State →
      Verdict Bindings × State
  | [], h, position, b, s =>
      let (step, s) := s.step h position
      (if step.isDone then .matched b else .unmatched, s)
  | none :: elements, h, position, b, s =>
      match s.step h position with
      | (.done, s) => (.unmatched, s)
      | (.yielded _, s) => matchElementsWith wild elements h (position + 1) b s
  | some p :: elements, h, position, b, s =>
      match p.trailing? elements with
      | some name =>
          let (items, s) := s.drainFrom h position
          let (b, s) := bindCollected name items b s
          (.matched b, s)
      | none =>
          match s.step h position with
          | (.done, s) => (.unmatched, s)
          | (.yielded x, s) =>
              match matchAtWith wild p (some (.index position)) x s with
              | (.matched c, s) => matchElementsWith wild elements h (position + 1) (b.merge c) s
              | other => other

end

/-! ## Where the program matters -/

/-- At every visit to a rest marker the program does what matching does. -/
def Wildcard.Agrees (wild : Wildcard) (visits : List Visit) : Prop :=
  ∀ w ∈ visits, ∀ name, w.pattern = .rest name →
    wild name w.value w.state = (.matched .empty, w.state)

section Agreement

variable {wild : Wildcard} {w : Visit} {visits more : List Visit}

/-- Agreement at all visits is agreement at those behind the first. -/
theorem Wildcard.Agrees.tail (h : wild.Agrees (w :: visits)) : wild.Agrees visits :=
  fun u hu => h u (List.mem_cons_of_mem w hu)

/-- And at those of the first part. -/
theorem Wildcard.Agrees.left (h : wild.Agrees (visits ++ more)) : wild.Agrees visits :=
  fun u hu => h u (List.mem_append_left more hu)

/-- And at those of what follows. -/
theorem Wildcard.Agrees.right (h : wild.Agrees (visits ++ more)) : wild.Agrees more :=
  fun u hu => h u (List.mem_append_right visits hu)

end Agreement

mutual

/-- A program that agrees at the visits makes no difference. -/
theorem matchAtWith_eq_matchAt (wild : Wildcard) : ∀ (p : Pattern) (place : Option Key) (v : Value)
    (s : State), wild.Agrees (visitsAt p place v s) →
      matchAtWith wild p place v s = matchAt p place v s
  | .custom m, place, v, s, _ => by rw [matchAtWith, matchAt]
  | .identifier name, place, v, s, _ => by rw [matchAtWith, matchAt]
  | .regex r, place, v, s, _ => by rw [matchAtWith, matchAt]
  | .literal q, place, v, s, _ => by rw [matchAtWith, matchAt]
  | .rest name, place, v, s, hagrees => by
      rw [visitsAt] at hagrees
      rw [matchAtWith, matchAt]
      -- the one place where the program is asked
      exact hagrees _ (List.mem_singleton_self _) name rfl
  | .array elements, place, v, s, hagrees => by
      rw [visitsAt] at hagrees
      rw [matchAtWith, matchAt]
      have htail := hagrees.tail
      generalize s.iteratorFor v = opened at htail ⊢
      rcases opened with ⟨_ | h, t⟩
      · rfl
      · exact matchElementsWith_eq_matchElements wild elements h 0 .empty t htail
  | .object entries marker, place, v, s, hagrees => by
      rw [visitsAt] at hagrees
      rw [matchAtWith, matchAt]
      have htail := hagrees.tail
      generalize s.register v = registered at htail ⊢
      rcases registered with ⟨_ | _, t⟩
      · rfl
      · have hentries := matchEntriesWith_eq_matchEntries wild entries v .empty t htail
        dsimp only
        generalize matchEntriesWith wild entries v .empty t = matched at hentries ⊢
        subst hentries
        rfl

/-- It makes no difference to entries. -/
theorem matchEntriesWith_eq_matchEntries (wild : Wildcard) : ∀ (entries : List (Key × Pattern))
    (v : Value) (b : Bindings) (s : State), wild.Agrees (visitsEntries entries v s) →
      matchEntriesWith wild entries v b s = matchEntries entries v b s
  | [], v, b, s, _ => by rw [matchEntriesWith, matchEntries]
  | (k, p) :: entries, v, b, s, hagrees => by
      rw [visitsEntries] at hagrees
      rw [matchEntriesWith, matchEntries]
      split
      · rename_i hhas
        rw [if_pos hhas] at hagrees
        generalize s.read v k = readed at hagrees ⊢
        obtain ⟨x, t⟩ := readed
        dsimp only at hagrees ⊢
        rw [matchAtWith_eq_matchAt wild p (some k) x t hagrees.left]
        have hright := hagrees.right
        generalize matchAt p (some k) x t = matched at hright ⊢
        rcases matched with ⟨c | _ | e, u⟩
        · exact matchEntriesWith_eq_matchEntries wild entries v (b.merge c) u hright
        · rfl
        · rfl
      · rfl

/-- It makes no difference to elements. -/
theorem matchElementsWith_eq_matchElements (wild : Wildcard) : ∀ (elements : List (Option Pattern))
    (h : Handle) (position : Nat) (b : Bindings) (s : State),
      wild.Agrees (visitsElements elements h position s) →
        matchElementsWith wild elements h position b s = matchElements elements h position b s
  | [], h, position, b, s, _ => by rw [matchElementsWith, matchElements]
  | none :: elements, h, position, b, s, hagrees => by
      rw [visitsElements] at hagrees
      rw [matchElementsWith, matchElements]
      generalize s.step h position = stepped at hagrees ⊢
      rcases stepped with ⟨x | _, t⟩
      · exact matchElementsWith_eq_matchElements wild elements h (position + 1) b t hagrees
      · rfl
  | some p :: elements, h, position, b, s, hagrees => by
      rw [visitsElements] at hagrees
      rw [matchElementsWith, matchElements]
      cases htrailing : p.trailing? elements with
      | some name => rfl
      | none =>
          rw [htrailing] at hagrees
          dsimp only at hagrees ⊢
          generalize s.step h position = stepped at hagrees ⊢
          rcases stepped with ⟨x | _, t⟩
          · dsimp only at hagrees ⊢
            rw [matchAtWith_eq_matchAt wild p (some (.index position)) x t hagrees.left]
            -- the visits behind the part are those from the state that it leaves
            have hright := hagrees.right
            generalize matchAt p (some (.index position)) x t = matched at hright ⊢
            rcases matched with ⟨c | _ | e, u⟩
            · exact matchElementsWith_eq_matchElements wild elements h (position + 1) (b.merge c) u
                hright
            · rfl
            · rfl
          · rfl

end

/-! ## Validated patterns -/

namespace Pattern

/-- A validated pattern is no rest marker. -/
theorem ne_rest_of_validate {p : Pattern} (h : p.validate = .ok ()) (name : Option Key) :
    p ≠ .rest name := by
  rintro rfl
  rw [validate] at h
  cases h

/-- A note is added to an error only. -/
theorem noting_eq_ok {note : String} {result : Except MatchError Unit}
    (h : noting note result = .ok ()) : result = .ok () := by
  cases result with
  | ok => rfl
  | error e => cases h

/-- Validated entries are validated one by one. -/
theorem validateEntries_cons {k : Key} {p : Pattern} {entries : List (Key × Pattern)}
    (h : validateEntries ((k, p) :: entries) = .ok ()) :
    p.validate = .ok () ∧ validateEntries entries = .ok () := by
  by_cases hrest : ∃ name, p = .rest name
  · obtain ⟨name, rfl⟩ := hrest
    rw [validateEntries] at h
    cases h
  · rw [validateEntries.eq_3 _ _ _ fun name hname => hrest ⟨name, hname⟩] at h
    cases hnoted : noting ("in object pattern at key `" ++ k.name ++ "`") p.validate with
    | ok => exact ⟨noting_eq_ok hnoted, by rwa [hnoted] at h⟩
    | error e =>
        rw [hnoted] at h
        cases h

/-- Of validated elements, matching splits off the last, or the first is validated on its
    own and so are those behind it. -/
theorem validateElements_cons {index : Nat} {p : Pattern} {elements : List (Option Pattern)}
    (h : validateElements index (some p :: elements) = .ok ())
    (htrailing : p.trailing? elements = none) :
    p.validate = .ok () ∧ validateElements (index + 1) elements = .ok () := by
  by_cases hrest : ∃ name, p = .rest name
  · obtain ⟨name, rfl⟩ := hrest
    cases elements with
    | nil => cases htrailing
    | cons element elements =>
        rw [validateElements.eq_4 _ _ _ (by simp)] at h
        cases h
  · have hrest : ∀ name, p ≠ .rest name := fun name hname => hrest ⟨name, hname⟩
    rw [validateElements.eq_5 _ _ _ (fun name _ => hrest name) hrest] at h
    cases hnoted : noting ("in array pattern at index " ++ toString index) p.validate with
    | ok => exact ⟨noting_eq_ok hnoted, by rwa [hnoted] at h⟩
    | error e =>
        rw [hnoted] at h
        cases h

end Pattern

/-- No visit is to a rest marker. -/
def NoneWild (visits : List Visit) : Prop := ∀ w ∈ visits, ∀ name, w.pattern ≠ .rest name

section Tame

variable {w : Visit} {visits more : List Visit}

theorem noneWild_nil : NoneWild [] := by simp [NoneWild]

theorem NoneWild.cons (hw : ∀ name, w.pattern ≠ .rest name) (h : NoneWild visits) :
    NoneWild (w :: visits) := List.forall_mem_cons.2 ⟨hw, h⟩

theorem NoneWild.append (h : NoneWild visits) (hmore : NoneWild more) : NoneWild (visits ++ more) :=
  List.forall_mem_append.2 ⟨h, hmore⟩

end Tame

mutual

/-- No visit of a validated pattern is to a rest marker. -/
theorem noneWild_visitsAt : ∀ (p : Pattern) (place : Option Key) (v : Value) (s : State),
    p.validate = .ok () → NoneWild (visitsAt p place v s)
  | .custom m, place, v, s, _ => by
      rw [visitsAt]
      exact noneWild_nil.cons (by simp)
  | .identifier name, place, v, s, _ => by
      rw [visitsAt]
      exact noneWild_nil.cons (by simp)
  | .regex r, place, v, s, _ => by
      rw [visitsAt]
      exact noneWild_nil.cons (by simp)
  | .literal q, place, v, s, _ => by
      rw [visitsAt]
      exact noneWild_nil.cons (by simp)
  | .rest name, place, v, s, hvalid => absurd rfl (Pattern.ne_rest_of_validate hvalid name)
  | .array elements, place, v, s, hvalid => by
      rw [Pattern.validate] at hvalid
      rw [visitsAt]
      refine .cons (by simp) ?_
      rcases s.iteratorFor v with ⟨_ | h, t⟩
      · exact noneWild_nil
      · exact noneWild_visitsElements elements 0 h 0 t hvalid
  | .object entries marker, place, v, s, hvalid => by
      rw [Pattern.validate] at hvalid
      rw [visitsAt]
      refine .cons (by simp) ?_
      rcases s.register v with ⟨_ | _, t⟩
      · exact noneWild_nil
      · exact noneWild_visitsEntries entries v t hvalid

/-- No visit of entries is. -/
theorem noneWild_visitsEntries : ∀ (entries : List (Key × Pattern)) (v : Value) (s : State),
    Pattern.validateEntries entries = .ok () → NoneWild (visitsEntries entries v s)
  | [], v, s, _ => by
      rw [visitsEntries]
      exact noneWild_nil
  | (k, p) :: entries, v, s, hvalid => by
      obtain ⟨hp, hentries⟩ := Pattern.validateEntries_cons hvalid
      rw [visitsEntries]
      split
      · refine .append (noneWild_visitsAt p _ _ _ hp) ?_
        split
        · exact noneWild_visitsEntries entries v _ hentries
        · exact noneWild_nil
      · exact noneWild_nil

/-- No visit of elements is: a trailing rest is not visited, but taken. -/
theorem noneWild_visitsElements : ∀ (elements : List (Option Pattern)) (index : Nat) (h : Handle)
    (position : Nat) (s : State), Pattern.validateElements index elements = .ok () →
      NoneWild (visitsElements elements h position s)
  | [], index, h, position, s, _ => by
      rw [visitsElements]
      exact noneWild_nil
  | none :: elements, index, h, position, s, hvalid => by
      rw [Pattern.validateElements] at hvalid
      rw [visitsElements]
      split
      · exact noneWild_nil
      · exact noneWild_visitsElements elements (index + 1) h _ _ hvalid
  | some p :: elements, index, h, position, s, hvalid => by
      rw [visitsElements]
      split
      · exact noneWild_nil
      · rename_i htrailing
        obtain ⟨hp, helements⟩ := Pattern.validateElements_cons hvalid htrailing
        split
        · exact noneWild_nil
        · refine .append (noneWild_visitsAt p _ _ _ hp) ?_
          split
          · exact noneWild_visitsElements elements (index + 1) h _ _ helements
          · exact noneWild_nil

end

/-- A match with a validated pattern never puts a rest marker against a value, so that it
    makes no difference what is done with one that is. -/
theorem validated_never_wild (p : Pattern) (hvalid : p.validate = .ok ()) (v : Value) (s : State) :
    (∀ w ∈ visitsAt p none v s, ∀ name, w.pattern ≠ .rest name) ∧
      ∀ wild, matchAtWith wild p none v s = matchPattern p v s := by
  have hnone := noneWild_visitsAt p none v s hvalid
  refine ⟨hnone, fun wild => matchAtWith_eq_matchAt wild p none v s ?_⟩
  intro w hw name hname
  exact absurd hname (hnone w hw name)

namespace Tame

/-- A rest marker at the end of each array, one inside the other. -/
def pattern : Pattern :=
  .array [some (.array [some (.identifier none), some (.rest (some ⟨"tail"⟩))]), some (.rest none)]

/-- A program that refuses. -/
def refuses : Wildcard := fun _ _ s => (.unmatched, s)

end Tame

/-- A text is an array of its letters, each a text again. -/
theorem validated_never_wild_nested :
    Tame.pattern.validate = .ok () ∧
      (∀ w ∈ visitsAt Tame.pattern none (.text "ab") {}, ∀ name, w.pattern ≠ .rest name) ∧
      matchAtWith Tame.refuses Tame.pattern none (.text "ab") {} =
        matchPattern Tame.pattern (.text "ab") {} ∧
      (matchPattern Tame.pattern (.text "ab") {}).1.isMatched = true := by
  have hvalid : Tame.pattern.validate = .ok () := rfl
  obtain ⟨hnone, hwild⟩ := validated_never_wild Tame.pattern hvalid (.text "ab") {}
  exact ⟨hvalid, hnone, hwild Tame.refuses, by decide⟩

end StructuralMatch
