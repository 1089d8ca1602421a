import StructuralMatch.Proofs.Outcome

/-! # Captures of a match, one after another

    The bindings of a match are put together on the way up: every container merges
    what its parts bound.  Here the captures are listed on the way down, flat and in
    the order in which they are made (`capturesAt`), whatever their names are.

    The bindings are what inserting this list pair by pair into nothing gives
    (`bindings_eq_captures`), so merging part by part loses, reorders and resurrects
    nothing.  The law behind it is that inserting what was inserted into another map
    is the same as inserting both lists (`Assoc.insertAll_insertAll`). -/

namespace StructuralMatch

/-! ## Captures -/

/-- The groups of a regular expression that took part, in the order of their declaration. -/
def capturesGroups (r : Regex) (text : String) : List (Key × Value) :=
  ((r.participants text).getD []).map fun g => (⟨g.1⟩, .text g.2)

/-- The array of the elements that are left, under the name of a rest marker if it has one. -/
def capturesCollected (name : Option Key) (items : List Value) (s : State) :
    List (Key × Value) :=
  match name with
  | some k => [(k, (s.collect items).1)]
  | none => []

/-- The object of the properties that are left, under the name of a rest marker if it has
    one. -/
def capturesRemainder (marker : Option RestMarker) (keys : List Key) (v : Value) (s : State) :
    List (Key × Value) :=
  match marker.bind (·.name) with
  | some k => [(k, (s.remainder v keys).1)]
  | none => []

mutual

/-- The captures of a match, in the order in which they are made. -/
def capturesAt : Pattern → (place : Option Key) → Value → State → List (Key × Value)
  | .custom _, _, _, _ => []
  | .identifier name, place, v, _ =>
      match name.or place with
      | some k => [(k, v)]
      | none => []
  | .rest _, _, _, _ => []
  | .regex r, _, v, s => capturesGroups r (s.store.text v)
  | .literal _, _, _, _ => []
  | .array elements, _, v, s =>
      match s.iteratorFor v with
      | (none, _) => []
      | (some h, s) => capturesElements elements h 0 s
  | .object entries marker, _, v, s =>
      let s := (s.register v).2
      capturesEntries entries v s ++
        capturesRemainder marker (entries.map Prod.fst) v (matchEntries entries v .empty s).2

/-- The captures of entries, in the order of their declaration. -/
def capturesEntries : List (Key × Pattern) → Value → State → List (Key × Value)
  | [], _, _ => []
  | (k, p) :: entries, v, s =>
      let (x, s) := s.read v k
      capturesAt p (some k) x s ++ capturesEntries entries v (matchAt p (some k) x s).2

/-- The captures of elements from a position on. -/
def capturesElements : List (Option Pattern) → Handle → (position : Nat) → State →
    List (Key × Value)
  | [], _, _, _ => []
  | none :: elements, h, position, s =>
      capturesElements elements h (position + 1) (s.step h position).2
  | some p :: elements, h, position, s =>
      match p.trailing? elements with
      | some name =>
          let (items, s) := s.drainFrom h position
          capturesCollected name items s
      | none =>
          match s.step h position with
          | (.done, _) => []
          | (.yielded x, s) =>
              capturesAt p (some (.index position)) x s ++
                capturesElements elements h (position + 1)
                  (matchAt p (some (.index position)) x s).2

end

/-! ## Bindings are captures -/

/-- Merging what a part captured is inserting its captures. -/
theorem entries_merge_of_captures {b c : Bindings} {ps : List (Key × Value)}
    (hc : c.entries = Assoc.ofPairs ps) : (b.merge c).entries = b.entries.insertAll ps := by
  rw [Bindings.entries_merge, hc, Assoc.insertAll_ofPairs]

theorem entries_matchIdentifier (name place : Option Key) (v : Value) (s : State) :
    (matchIdentifier name place v).entries =
      Assoc.ofPairs (capturesAt (.identifier name) place v s) := by
  rw [matchIdentifier, capturesAt]
  cases name.or place <;> rfl

theorem entries_matchRegex {r : Regex} {v : Value} {σ : Store} {b : Bindings}
    (h : matchRegex r v σ = .matched b) :
    b.entries = Assoc.ofPairs (capturesGroups r (σ.text v)) := by
  rw [matchRegex_eq] at h
  rw [capturesGroups]
  split at h
  · rename_i groups hgroups
    rw [hgroups, ← Verdict.matched.inj h]
    rfl
  · cases h

theorem entries_bindCollected (name : Option Key) (items : List Value) (b : Bindings) (s : State) :
    (bindCollected name items b s).1.entries =
      b.entries.insertAll (capturesCollected name items s) := by
  cases name <;> rfl

theorem entries_bindRemainder (marker : Option RestMarker) (keys : List Key) (v : Value)
    (b : Bindings) (s : State) :
    (bindRemainder marker keys v b s).1.entries =
      b.entries.insertAll (capturesRemainder marker keys v s) := by
  rw [bindRemainder, capturesRemainder]
  cases marker.bind (·.name) <;> rfl

mutual

/-- What a match binds are its captures. -/
theorem matchAt_captures : ∀ (p : Pattern) (place : Option Key) (v : Value) (s : State)
    {b : Bindings} {t : State}, matchAt p place v s = (.matched b, t) →
      b.entries = Assoc.ofPairs (capturesAt p place v s)
  | .custom m, place, v, s, b, t, h => by
      rw [matchAt, matchCustom] at h
      rw [capturesAt]
      generalize s.consult m v = consulted at h
      rcases consulted with ⟨_ | _ | e, u⟩
      · rw [← Verdict.matched.inj (Prod.mk.inj h).1]
        rfl
      · cases h
      · cases h
  | .identifier name, place, v, s, b, t, h => by
      rw [matchAt] at h
      rw [← Verdict.matched.inj (Prod.mk.inj h).1]
      exact entries_matchIdentifier name place v s
  | .rest name, place, v, s, b, t, h => by
      rw [matchAt] at h
      rw [← Verdict.matched.inj (Prod.mk.inj h).1, capturesAt]
      rfl
  | .regex r, place, v, s, b, t, h => by
      rw [matchAt] at h
      rw [capturesAt]
      exact entries_matchRegex (Prod.mk.inj h).1
  | .literal q, place, v, s, b, t, h => by
      rw [matchAt, matchLiteral] at h
      rw [capturesAt]
      split at h
      · rw [← Verdict.matched.inj (Prod.mk.inj h).1]
        rfl
      · cases h
  | .array elements, place, v, s, b, t, h => by
      rw [matchAt] at h
      rw [capturesAt]
      generalize s.iteratorFor v = opened at h ⊢
      rcases opened with ⟨_ | handle, u⟩
      · cases h
      · exact matchElements_captures elements handle 0 .empty u h
  | .object entries marker, place, v, s, b, t, h => by
      rw [matchAt] at h
      rw [capturesAt]
      generalize s.register v = registered at h ⊢
      rcases registered with ⟨_ | _, u⟩
      · cases h
      · have hentries := @matchEntries_captures entries v .empty u
        dsimp only at h ⊢
        generalize matchEntries entries v .empty u = matched at h hentries ⊢
        rcases matched with ⟨c | _ | e, w⟩
        · -- the remainder is captured behind what the entries captured
          have hbound := entries_bindRemainder marker (entries.map Prod.fst) v c w
          rw [hentries rfl] at hbound
          rw [← Verdict.matched.inj (Prod.mk.inj h).1, hbound]
          exact (Assoc.insertAll_append _ _ _).symm
        · cases h
        · cases h

/-- What matching entries adds to the bindings are its captures. -/
theorem matchEntries_captures : ∀ (entries : List (Key × Pattern)) (v : Value) (b : Bindings)
    (s : State) {c : Bindings} {t : State}, matchEntries entries v b s = (.matched c, t) →
      c.entries = b.entries.insertAll (capturesEntries entries v s)
  | [], v, b, s, c, t, h => by
      rw [matchEntries] at h
      rw [← Verdict.matched.inj (Prod.mk.inj h).1, capturesEntries]
      rfl
  | (k, p) :: entries, v, b, s, c, t, h => by
      rw [matchEntries] at h
      rw [capturesEntries]
      split at h
      · generalize s.read v k = readed at h ⊢
        obtain ⟨x, u⟩ := readed
        have hp := @matchAt_captures p (some k) x u
        dsimp only at h ⊢
        generalize matchAt p (some k) x u = matched at h hp ⊢
        rcases matched with ⟨d | _ | e, w⟩
        · -- what the part bound is merged, and the other entries add to that
          rw [matchEntries_captures entries v (b.merge d) w h,
            entries_merge_of_captures (hp rfl), Assoc.insertAll_append]
        · cases h
        · cases h
      · cases h

/-- What matching elements adds to the bindings are its captures. -/
theorem matchElements_captures : ∀ (elements : List (Option Pattern)) (handle : Handle)
    (position : Nat) (b : Bindings) (s : State) {c : Bindings} {t : State},
      matchElements elements handle position b s = (.matched c, t) →
        c.entries = b.entries.insertAll (capturesElements elements handle position s)
  | [], handle, position, b, s, c, t, h => by
      rw [matchElements] at h
      rw [capturesElements]
      dsimp only at h
      split at h
      · rw [← Verdict.matched.inj (Prod.mk.inj h).1]
        rfl
      · cases h
  | none :: elements, handle, position, b, s, c, t, h => by
      rw [matchElements] at h
      rw [capturesElements]
      generalize s.step handle position = stepped at h ⊢
      rcases stepped with ⟨x | _, u⟩
      · exact matchElements_captures elements handle (position + 1) b u h
      · cases h
  | some p :: elements, handle, position, b, s, c, t, h => by
      rw [matchElements] at h
      rw [capturesElements]
      cases htrailing : p.trailing? elements with
      | some name =>
          rw [htrailing] at h
          rw [← Verdict.matched.inj (Prod.mk.inj h).1]
          exact entries_bindCollected name _ b _
      | none =>
          rw [htrailing] at h
          dsimp only at h ⊢
          generalize s.step handle position = stepped at h ⊢
          rcases stepped with ⟨x | _, u⟩
          · have hp := @matchAt_captures p (some (.index position)) x u
            dsimp only at h ⊢
            generalize matchAt p (some (.index position)) x u = matched at h hp ⊢
            rcases matched with ⟨d | _ | e, w⟩
            · -- what the part bound is merged, and the other elements add to that
              rw [matchElements_captures elements handle (position + 1) (b.merge d) w h,
                entries_merge_of_captures (hp rfl), Assoc.insertAll_append]
            · cases h
            · cases h
          · cases h

end

/-- The keys of groups in the order in which they are opened. -/
def groupKeys (r : Regex) : List Key := (r.groupNames.filterMap id).map Key.mk

/-- The groups of a regular expression are captured in the order of their declaration. -/
theorem capturesGroups_sublist (r : Regex) (text : String) :
    ((capturesGroups r text).map Prod.fst).Sublist (groupKeys r) := by
  rw [capturesGroups, Regex.participants, groupKeys]
  cases r.captures text with
  | none => exact List.nil_sublist _
  | some groups =>
      rw [Option.map_some, Option.getD_some, List.map_map]
      induction r.groupNames.filterMap id with
      | nil => exact .slnil
      | cons name names ih =>
          cases hgroup : groups name with
          | none => simpa [hgroup] using ih.cons (⟨name⟩ : Key)
          | some matched => simpa [hgroup] using ih.cons_cons (⟨name⟩ : Key)

/-- No group is captured twice, since no two groups have one name. -/
theorem nodup_capturesGroups (r : Regex) (text : String) :
    ((capturesGroups r text).map Prod.fst).Nodup := by
  have hkeys : (groupKeys r).Nodup :=
    r.distinct.map fun _ _ h => Key.mk.inj h
  exact hkeys.sublist (capturesGroups_sublist r text)

/-- What a search finds for a name is captured, and nothing else is. -/
theorem mem_capturesGroups_iff {r : Regex} {text : String} {c : Key × Value} :
    c ∈ capturesGroups r text ↔ ∃ groups name matched, r.captures text = some groups ∧
      groups name = some matched ∧ c = (⟨name⟩, .text matched) := by
  rw [capturesGroups, Regex.participants]
  cases hsearch : r.captures text with
  | none => simp
  | some groups =>
      rw [Option.map_some, Option.getD_some, List.mem_map]
      constructor
      · rintro ⟨⟨name, matched⟩, hmem, rfl⟩
        obtain ⟨name', -, hgroup⟩ := List.mem_filterMap.1 hmem
        obtain ⟨matched', hmatched, heq⟩ := Option.map_eq_some_iff.1 hgroup
        cases heq
        exact ⟨groups, name, matched, rfl, hmatched, rfl⟩
      · rintro ⟨groups', name, matched, hsame, hmatched, rfl⟩
        cases hsame
        -- what is found by a name is one of the groups that have one
        have hname : name ∈ r.groupNames.filterMap id :=
          List.mem_filterMap.2 ⟨some name, r.named hsearch hmatched, rfl⟩
        exact ⟨(name, matched), List.mem_filterMap.2 ⟨name, hname, by rw [hmatched]; rfl⟩, rfl⟩

/-- **Bindings are captures, one after another**: a match that succeeds binds what inserting
    its captures into nothing gives, in the order in which they are made.  A name stands
    where it is captured first and has the value that is captured last; of a regular
    expression every group that took part is captured, once and in the order of their
    declaration. -/
theorem bindings_eq_captures {p : Pattern} {v : Value} {s : State} {b : Bindings}
    (h : (matchPattern p v s).1 = .matched b) :
    b = (capturesAt p none v s).foldl (fun b c => b.insert c.1 c.2) .empty ∧
      b.keys = ((capturesAt p none v s).map Prod.fst).eraseDups ∧
        (∀ k, b.get? k = Assoc.get? (capturesAt p none v s).reverse k) ∧
          ∀ (r : Regex) (text : String),
            ((capturesGroups r text).map Prod.fst).Sublist (groupKeys r) ∧
              ((capturesGroups r text).map Prod.fst).Nodup ∧
                ∀ c, c ∈ capturesGroups r text ↔
                  ∃ groups name matched, r.captures text = some groups ∧
                    groups name = some matched ∧ c = (⟨name⟩, .text matched) := by
  have hentries : b.entries = Assoc.ofPairs (capturesAt p none v s) :=
    matchAt_captures p none v s (t := (matchPattern p v s).2) (Prod.ext h rfl)
  refine ⟨?_, ?_, ?_, fun r text => ⟨capturesGroups_sublist r text,
    nodup_capturesGroups r text, fun _ => mem_capturesGroups_iff⟩⟩
  · refine Bindings.ext_entries ?_
    rw [hentries, Bindings.entries_foldl_insert]
    rfl
  · rw [Bindings.keys, hentries, Assoc.keys_ofPairs]
    rfl
  · intro k
    rw [Bindings.get?, hentries, Assoc.get?_ofPairs]

namespace Repeated

/-- An object with a text, a list of two, and a date. -/
def blueprint : Blueprint :=
  .object (.mk none none
    [(⟨"a"⟩, .field (.existing (.text "one"))),
      (⟨"b"⟩, .field (.array [.existing (.text "two"), .existing (.text "three")])),
      (⟨"c"⟩, .field (.existing (.text "in 2024-05")))] none)

def start : State := { store := (blueprint.build .empty).2 }

/-- A year, a month and a day, each under a name; the day may be missing. -/
def date : Regex :=
  (Regex.compile "(?<x>[0-9]+)-(?<month>[0-9]+)(-(?<day>[0-9]+))?").toOption.get
    (by decide +kernel)

/-- The name `x` is captured three times: in an entry, in a nested pattern before `y`, and by a
    group. -/
def pattern : Pattern :=
  .object [(⟨"a"⟩, .identifier (some ⟨"x"⟩)),
    (⟨"b"⟩, .array [some (.identifier (some ⟨"x"⟩)), some (.identifier (some ⟨"y"⟩))]),
    (⟨"c"⟩, .regex date)] none

/-- What is captured, one after another; the group of the day takes no part. -/
def captures : List (Key × Value) :=
  [(⟨"x"⟩, .text "one"), (⟨"x"⟩, .text "two"), (⟨"y"⟩, .text "three"), (⟨"x"⟩, .text "2024"),
    (⟨"month"⟩, .text "05")]

end Repeated

/-- A name that is captured again keeps its place and takes the later value, also where a group
    captures it; groups are captured in order. -/
theorem bindings_eq_captures_repeated :
    capturesAt Repeated.pattern none (.ref (.object 0)) Repeated.start = Repeated.captures ∧
      (capturesGroups Repeated.date "in 2024-05").map Prod.fst = [⟨"x"⟩, ⟨"month"⟩] ∧
      ((capturesGroups Repeated.date "in 2024-05").map Prod.fst).Sublist
        [⟨"x"⟩, ⟨"month"⟩, ⟨"day"⟩] ∧
      ∃ b, (matchPattern Repeated.pattern (.ref (.object 0)) Repeated.start).1 = .matched b ∧
        b.keys = [⟨"x"⟩, ⟨"y"⟩, ⟨"month"⟩] ∧ b.get? ⟨"x"⟩ = some (.text "2024") := by
  have hcaptures : capturesAt Repeated.pattern none (.ref (.object 0)) Repeated.start =
      Repeated.captures := by decide +kernel
  have hmatch : (matchPattern Repeated.pattern (.ref (.object 0)) Repeated.start).1 =
      .matched (.ofPairs Repeated.captures) := by decide +kernel
  have hnames : groupKeys Repeated.date = [⟨"x"⟩, ⟨"month"⟩, ⟨"day"⟩] := by decide +kernel
  obtain ⟨-, hkeys, hget, hgroups⟩ := bindings_eq_captures hmatch
  refine ⟨hcaptures, by decide +kernel, ?_, _, hmatch, ?_, ?_⟩
  · rw [← hnames]
    exact (hgroups Repeated.date "in 2024-05").1
  · rw [hkeys, hcaptures]
    decide
  · rw [hget, hcaptures]
    decide

end StructuralMatch
