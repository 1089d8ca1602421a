import Mathlib.Data.List.Lex
import Mathlib.Order.Bounds.Basic
import StructuralMatch.Pattern.RestPlacement

/-! # The first misplaced rest marker

    A path leads down into a pattern, through the entries of objects and the
    elements of arrays, by position.  It passes no custom matcher, since nothing
    stands inside one.  Which rest markers are misplaced is said here of paths
    alone (`Misplaced`), and so is the error that reports one (`misplacement`).

    The lexicographic order of paths is the order from left to right.  Validation
    accepts the patterns without a misplaced rest marker, and of the others it
    reports the one at the least path (`validate_reports_first`).  The walk over a
    container is followed by what is wrong from one of its positions on
    (`MisplacedFrom`). -/

namespace StructuralMatch.Pattern

/-! ## Paths -/

/-- The pattern at a position of a container. -/
def part? : Pattern → Nat → Option Pattern
  | .object entries _, i => entries[i]?.map Prod.snd
  | .array elements, i => elements[i]?.join
  | _, _ => none

/-- The pattern to which a path leads. -/
def at? (p : Pattern) : (path : List Nat) → Option Pattern
  | [] => some p
  | i :: path => (p.part? i).bind fun q => q.at? path

/-- The containers that a path passes, each with the position at which it is left, from
    the innermost to the outermost. -/
def enclosing (p : Pattern) : (path : List Nat) → List (Pattern × Nat)
  | [] => []
  | i :: path => ((p.part? i).elim [] fun q => q.enclosing path) ++ [(p, i)]

/-- The path ends at the last element of an array. -/
def EndsArray (p : Pattern) (path : List Nat) : Prop :=
  ∃ elements i outer, p.enclosing path = (.array elements, i) :: outer ∧ i + 1 = elements.length

/-- The path leads to a rest marker that is not the last element of an array. -/
def Misplaced (p : Pattern) (path : List Nat) : Prop :=
  (∃ name, p.at? path = some (.rest name)) ∧ ¬p.EndsArray path

/-! ## Reports -/

/-- The word for a container. -/
def containerName : Pattern → String
  | .object _ _ => "object"
  | .array _ => "array"
  | _ => "pattern"

/-- The words for a position of a container. -/
def positionName : Pattern → Nat → String
  | .object entries _, i =>
      match entries[i]? with
      | some (k, _) => "at key `" ++ k.name ++ "`"
      | none => "at top level"
  | .array _, i => "at index " ++ toString i
  | _, _ => "at top level"

/-- The note that leads out of a container. -/
def noteAt (place : Pattern × Nat) : String :=
  "in " ++ place.1.containerName ++ " pattern " ++ place.1.positionName place.2

/-- The error of a rest marker inside these containers: the innermost stands in the
    message, and there is one note for each of the others. -/
def misplacement : List (Pattern × Nat) → MatchError
  | [] => misplacedRest "pattern" "at top level"
  | (q, i) :: outer =>
      { misplacedRest q.containerName (q.positionName i) with notes := outer.map noteAt }

theorem noteAt_object {entries : List (Key × Pattern)} {marker : Option RestMarker} {i : Nat}
    {k : Key} (h : (object entries marker).positionName i = "at key `" ++ k.name ++ "`") :
    noteAt (.object entries marker, i) = "in object pattern at key `" ++ k.name ++ "`" := by
  rw [noteAt, h, ← String.append_assoc, ← String.append_assoc]
  rfl

theorem noteAt_array (elements : List (Option Pattern)) (i : Nat) :
    noteAt (.array elements, i) = "in array pattern at index " ++ toString i := by
  rw [noteAt, positionName, ← String.append_assoc]
  rfl

/-- A container further out is one more note. -/
theorem misplacement_concat {places : List (Pattern × Nat)} (h : places ≠ [])
    (place : Pattern × Nat) :
    misplacement (places ++ [place]) = (misplacement places).withNote (noteAt place) := by
  obtain ⟨⟨q, i⟩, outer, rfl⟩ := List.exists_cons_of_ne_nil h
  simp [misplacement, MatchError.withNote]

/-- The outcome of a check that looks for the first path at which something is wrong. -/
inductive Judges (wrong : Set (List Nat)) (report : List Nat → MatchError) :
    Except MatchError Unit → Prop
  | fine (h : ∀ path, path ∉ wrong) : Judges wrong report (.ok ())
  | first {path : List Nat} (h : IsLeast wrong path) : Judges wrong report (.error (report path))

/-! ## From one position of a container on -/

/-- The misplaced rest markers of a container from a position on. -/
def MisplacedFrom (q : Pattern) (n : Nat) : Set (List Nat) :=
  {path | ∃ i inner, path = i :: inner ∧ n ≤ i ∧ q.Misplaced path}

section Positions

variable {p q : Pattern} {n i : Nat} {path : List Nat}

theorem at?_cons (h : q.part? n = some p) (path : List Nat) : q.at? (n :: path) = p.at? path := by
  rw [at?, h]
  rfl

theorem enclosing_cons (h : q.part? n = some p) (path : List Nat) :
    q.enclosing (n :: path) = p.enclosing path ++ [(q, n)] := by
  rw [enclosing, h]
  rfl

theorem enclosing_ne_nil (h : path ≠ []) : q.enclosing path ≠ [] := by
  obtain ⟨i, inner, rfl⟩ := List.exists_cons_of_ne_nil h
  simp [enclosing]

/-- Below a part, the path counts from the part on. -/
theorem endsArray_cons (h : q.part? n = some p) (hpath : path ≠ []) :
    q.EndsArray (n :: path) ↔ p.EndsArray path := by
  obtain ⟨place, outer, houter⟩ := List.exists_cons_of_ne_nil (enclosing_ne_nil (q := p) hpath)
  simp [EndsArray, enclosing_cons h, houter]

/-- A part that is no rest marker itself has the misplaced rest markers of the container
    at its position. -/
theorem misplaced_cons (h : q.part? n = some p) (hrest : ∀ name, p ≠ .rest name) :
    q.Misplaced (n :: path) ↔ p.Misplaced path := by
  rw [Misplaced, Misplaced, at?_cons h]
  refine and_congr_right ?_
  rintro ⟨name, hat⟩
  have hpath : path ≠ [] := by
    rintro rfl
    exact hrest name (Option.some.inj hat)
  rw [endsArray_cons h hpath]

/-- What is wrong from a position on is wrong at it, or from the next one on. -/
theorem mem_misplacedFrom :
    path ∈ q.MisplacedFrom n ↔
      (∃ inner, path = n :: inner ∧ q.Misplaced path) ∨ path ∈ q.MisplacedFrom (n + 1) := by
  constructor
  · rintro ⟨i, inner, rfl, hi, h⟩
    rcases Nat.eq_or_lt_of_le hi with rfl | hi
    · exact .inl ⟨inner, rfl, h⟩
    · exact .inr ⟨i, inner, rfl, hi, h⟩
  · rintro (⟨inner, rfl, h⟩ | ⟨i, inner, rfl, hi, h⟩)
    · exact ⟨n, inner, rfl, le_rfl, h⟩
    · exact ⟨i, inner, rfl, (Nat.le_succ n).trans hi, h⟩

/-- Everything that is wrong later comes after what stands at a position. -/
theorem lt_of_mem_misplacedFrom (h : path ∈ q.MisplacedFrom (n + 1)) (inner : List Nat) :
    n :: inner < path := by
  obtain ⟨i, inner', rfl, hi, -⟩ := h
  exact List.cons_lt_cons_iff.2 (.inl hi)

end Positions

/-! ## The walk over a container -/

section Walk

variable {p q : Pattern} {n : Nat} {next : Except MatchError Unit}

/-- Nothing stands behind the last position. -/
theorem judges_end (h : ∀ i, n ≤ i → q.part? i = none) (report : List Nat → MatchError) :
    Judges (q.MisplacedFrom n) report (.ok ()) := by
  refine .fine ?_
  rintro path ⟨i, inner, rfl, hi, ⟨name, hat⟩, -⟩
  rw [at?, h i hi] at hat
  cases hat

/-- A gap is passed over. -/
theorem judges_gap (h : q.part? n = none) {report : List Nat → MatchError}
    (hnext : Judges (q.MisplacedFrom (n + 1)) report next) :
    Judges (q.MisplacedFrom n) report next := by
  have hsame : q.MisplacedFrom n = q.MisplacedFrom (n + 1) := by
    ext path
    refine mem_misplacedFrom.trans (or_iff_right ?_)
    rintro ⟨inner, rfl, ⟨name, hat⟩, -⟩
    rw [at?, h] at hat
    cases hat
  rwa [hsame]

/-- A rest marker that does not end an array is the first misplaced one from its position
    on. -/
theorem judges_rest {name : Option Key} (h : q.part? n = some (.rest name))
    (hends : ¬q.EndsArray [n]) :
    Judges (q.MisplacedFrom n) (fun path => misplacement (q.enclosing path))
      (.error (misplacedRest q.containerName (q.positionName n))) := by
  have hmem : [n] ∈ q.MisplacedFrom n :=
    ⟨n, [], rfl, le_rfl, ⟨name, at?_cons h []⟩, hends⟩
  have hleast : IsLeast (q.MisplacedFrom n) [n] := by
    refine ⟨hmem, fun path hpath => ?_⟩
    rcases mem_misplacedFrom.1 hpath with ⟨inner, rfl, -⟩ | hlater
    · exact List.cons_le_cons n (not_lt.1 (List.not_lt_nil inner))
    · exact (lt_of_mem_misplacedFrom hlater []).le
  have hreport : misplacement (q.enclosing [n]) =
      misplacedRest q.containerName (q.positionName n) := by
    rw [enclosing_cons h]
    rfl
  exact hreport ▸ Judges.first hleast

/-- A rest marker that ends its array is not misplaced, and nothing stands behind it. -/
theorem judges_last {name : Option Key} (h : q.part? n = some (.rest name)) (hends : q.EndsArray [n])
    (hlast : ∀ i, n < i → q.part? i = none) (report : List Nat → MatchError) :
    Judges (q.MisplacedFrom n) report (.ok ()) := by
  refine .fine ?_
  rintro path ⟨i, inner, rfl, hi, ⟨name', hat⟩, hmisplaced⟩
  rcases Nat.eq_or_lt_of_le hi with rfl | hi
  · rw [at?_cons h] at hat
    cases inner with
    | nil => exact hmisplaced hends
    | cons j inner => cases hat
  · rw [at?, hlast i hi] at hat
    cases hat

/-- Any other part is judged on its own; what is wrong with it gets the note of the
    container, and if nothing is, the walk goes on. -/
theorem judges_part (h : q.part? n = some p) (hrest : ∀ name, p ≠ .rest name)
    {result : Except MatchError Unit}
    (hpart : Judges {path | p.Misplaced path} (fun path => misplacement (p.enclosing path)) result)
    (hnext : Judges (q.MisplacedFrom (n + 1)) (fun path => misplacement (q.enclosing path)) next) :
    Judges (q.MisplacedFrom n) (fun path => misplacement (q.enclosing path))
      (match noting (noteAt (q, n)) result with
        | .ok () => next
        | .error e => .error e) := by
  cases hpart with
  | fine hfine =>
      have hsame : q.MisplacedFrom n = q.MisplacedFrom (n + 1) := by
        ext path
        refine mem_misplacedFrom.trans (or_iff_right ?_)
        rintro ⟨inner, rfl, hinner⟩
        exact hfine inner ((misplaced_cons h hrest).1 hinner)
      rwa [hsame]
  | @first path hleast =>
      have hwrong : q.Misplaced (n :: path) := (misplaced_cons h hrest).2 hleast.1
      have hcons : IsLeast (q.MisplacedFrom n) (n :: path) := by
        refine ⟨⟨n, path, rfl, le_rfl, hwrong⟩, fun other hother => ?_⟩
        rcases mem_misplacedFrom.1 hother with ⟨inner, rfl, hinner⟩ | hlater
        · have hle : path ≤ inner := hleast.2 ((misplaced_cons h hrest).1 hinner)
          exact List.cons_le_cons n hle
        · exact (lt_of_mem_misplacedFrom hlater path).le
      -- the part is no rest marker, so the path goes into it
      have hpath : path ≠ [] := by
        rintro rfl
        obtain ⟨⟨name, hat⟩, -⟩ := hleast.1
        exact hrest name (Option.some.inj hat)
      have hreport : misplacement (q.enclosing (n :: path)) =
          (misplacement (p.enclosing path)).withNote (noteAt (q, n)) := by
        rw [enclosing_cons h, misplacement_concat (enclosing_ne_nil hpath)]
      dsimp only [noting]
      exact hreport ▸ Judges.first hcons

end Walk

/-! ## Validation -/

/-- Nothing is misplaced in a pattern without parts. -/
theorem judges_leaf {p : Pattern} (hparts : ∀ i, p.part? i = none) (hrest : ∀ name, p ≠ .rest name) :
    Judges {path | p.Misplaced path} (fun path => misplacement (p.enclosing path)) (.ok ()) := by
  refine .fine ?_
  rintro path ⟨⟨name, hat⟩, -⟩
  cases path with
  | nil => exact hrest name (Option.some.inj hat)
  | cons i path =>
      rw [at?, hparts i] at hat
      cases hat

/-- The misplaced rest markers of a container are those from its first position on. -/
theorem misplacedFrom_zero {q : Pattern} (hrest : ∀ name, q ≠ .rest name) :
    q.MisplacedFrom 0 = {path | q.Misplaced path} := by
  ext path
  refine ⟨fun ⟨_, _, _, _, h⟩ => h, fun h => ?_⟩
  cases path with
  | nil =>
      obtain ⟨⟨name, hat⟩, -⟩ := h
      exact absurd (Option.some.inj hat) (hrest name)
  | cons i inner => exact ⟨i, inner, rfl, i.zero_le, h⟩

mutual

/-- Validation finds the first misplaced rest marker. -/
theorem validate_judges (p : Pattern) :
    Judges {path | p.Misplaced path} (fun path => misplacement (p.enclosing path)) p.validate := by
  cases p with
  | rest name =>
      have hroot : (Pattern.rest name).Misplaced [] := by
        refine ⟨⟨name, rfl⟩, ?_⟩
        -- an entry is never the end of an array
        rintro ⟨elements, i, outer, h, -⟩
        cases h
      rw [validate]
      exact .first ⟨hroot, fun path _ => not_lt.1 (List.not_lt_nil path)⟩
  | object entries marker =>
      have h := validateEntries_judges [] entries marker
      rw [List.nil_append, List.length_nil, misplacedFrom_zero (by simp)] at h
      rwa [validate]
  | array elements =>
      have h := validateElements_judges [] elements
      rw [List.nil_append, List.length_nil, misplacedFrom_zero (by simp)] at h
      rwa [validate]
  | literal | regex | identifier | custom =>
      rw [validate]
      exact judges_leaf (fun _ => rfl) (by simp)

/-- Among the entries that are left it finds the first from their position on. -/
theorem validateEntries_judges (before entries : List (Key × Pattern))
    (marker : Option RestMarker) :
    Judges ((object (before ++ entries) marker).MisplacedFrom before.length)
      (fun path => misplacement ((object (before ++ entries) marker).enclosing path))
      (validateEntries entries) := by
  cases entries with
  | nil =>
      rw [validateEntries]
      refine judges_end (fun i hi => ?_) _
      simp [part?, hi]
  | cons entry entries =>
      obtain ⟨k, p⟩ := entry
      have hpart : (object (before ++ (k, p) :: entries) marker).part? before.length = some p := by
        simp [part?]
      have hname : (object (before ++ (k, p) :: entries) marker).positionName before.length =
          "at key `" ++ k.name ++ "`" := by
        simp [positionName]
      by_cases hrest : ∃ name, p = .rest name
      · obtain ⟨name, rfl⟩ := hrest
        rw [validateEntries, ← hname]
        refine judges_rest hpart ?_
        rintro ⟨elements, i, outer, h, -⟩
        rw [enclosing_cons hpart] at h
        cases h
      · have hrest : ∀ name, p ≠ .rest name := fun name h => hrest ⟨name, h⟩
        -- the entry that was passed counts among those before
        have hnext := validateEntries_judges (before ++ [(k, p)]) entries marker
        rw [List.append_assoc, List.singleton_append, List.length_append, List.length_singleton]
          at hnext
        rw [validateEntries.eq_3 _ _ _ hrest, ← noteAt_object hname]
        exact judges_part hpart hrest (validate_judges p) hnext

/-- Among the elements that are left it finds the first from their position on. -/
theorem validateElements_judges (before elements : List (Option Pattern)) :
    Judges ((array (before ++ elements)).MisplacedFrom before.length)
      (fun path => misplacement ((array (before ++ elements)).enclosing path))
      (validateElements before.length elements) := by
  cases elements with
  | nil =>
      rw [validateElements]
      refine judges_end (fun i hi => ?_) _
      simp [part?, hi]
  | cons element elements =>
      -- the element that was passed counts among those before
      have hnext := validateElements_judges (before ++ [element]) elements
      rw [List.append_assoc, List.singleton_append, List.length_append, List.length_singleton]
        at hnext
      cases element with
      | none =>
          rw [validateElements]
          exact judges_gap (by simp [part?]) hnext
      | some p =>
          have hpart : (array (before ++ some p :: elements)).part? before.length = some p := by
            simp [part?]
          by_cases hrest : ∃ name, p = .rest name
          · obtain ⟨name, rfl⟩ := hrest
            cases elements with
            | nil =>
                rw [validateElements]
                refine judges_last hpart ⟨_, _, [], enclosing_cons hpart [], by simp⟩ ?_ _
                intro i hi
                -- behind the last element there is nothing to misplace
                have houtside : (before ++ [some (rest name)]).length ≤ i := by
                  rw [List.length_append, List.length_singleton]
                  exact hi
                rw [part?, List.getElem?_eq_none houtside]
                rfl
            | cons element elements =>
                -- a rest marker with elements behind it is misplaced
                rw [validateElements.eq_4 _ _ _ (by simp)]
                refine judges_rest hpart ?_
                rintro ⟨elements, i, outer, h, hlast⟩
                rw [enclosing_cons hpart] at h
                cases h
                simp at hlast
          · have hrest : ∀ name, p ≠ .rest name := fun name h => hrest ⟨name, h⟩
            rw [validateElements.eq_5 _ _ _ (fun name _ => hrest name) hrest, ← noteAt_array]
            exact judges_part hpart hrest (validate_judges p) hnext

end

/-- A pattern is accepted exactly when no rest marker in it is misplaced. -/
theorem validate_eq_ok_iff (p : Pattern) : p.validate = .ok () ↔ ∀ path, ¬p.Misplaced path := by
  have h := p.validate_judges
  generalize p.validate = result at h
  cases h with
  | fine hfine => exact iff_of_true rfl hfine
  | first hleast => exact iff_of_false (by simp) fun hfine => hfine _ hleast.1

/-- The last element of the inner array is well placed; the first of the middle one is
    reported, from inside. -/
example :
    (array [some (array [some (rest none)]), some (object [(⟨"k"⟩,
      array [some (rest none), none])] none), some (rest none), none]).validate =
      .error { misplacedRest "array" "at index 0" with
        notes := ["in object pattern at key `k`", "in array pattern at index 1"] } := by
  rfl

end StructuralMatch.Pattern
