import StructuralMatch.Matching
import StructuralMatch.Proofs.Memo
import StructuralMatch.Proofs.Store.Results

/-! # What a cache had done

    The log of a cache is read here from several sides: the values read of a
    property, the iterators opened for a value, the steps an iterator gave, the
    verdicts of custom matchers, and what was asked for at all.  Recording adds to
    each of them at the end.

    An entry is more than a note: `Access.Effect` says what it did to the store. -/

namespace StructuralMatch

/-! ## Sides of an access -/

/-- Something that a match may want to know. -/
inductive Question where
  /-- The value of a property. -/
  | property (owner : Ref) (key : Key)
  /-- The iterator over an iterable. -/
  | iterator (iterable : Ref)
  /-- The step of an iterator at a position. -/
  | position (iterator position : Nat)
deriving DecidableEq

namespace Question

/-- Note a question, if it is new. -/
def note (qs : List Question) (q : Question) : List Question :=
  if q ∈ qs then qs else qs ++ [q]

/-- Note questions one after another. -/
def noteAll (qs new : List Question) : List Question := new.foldl note qs

@[simp] theorem noteAll_nil (qs : List Question) : noteAll qs [] = qs := rfl

/-- Questions are noted one after another. -/
theorem noteAll_append (qs new more : List Question) :
    noteAll qs (new ++ more) = noteAll (noteAll qs new) more := List.foldl_append

theorem noteAll_singleton (qs : List Question) (q : Question) :
    noteAll qs [q] = if q ∈ qs then qs else qs ++ [q] := rfl

/-- Questions that are noted already change nothing. -/
theorem noteAll_of_forall_mem {qs new : List Question} (h : ∀ q ∈ new, q ∈ qs) :
    noteAll qs new = qs := by
  induction new with
  | nil => rfl
  | cons q new ih =>
      have hnote : note qs q = qs := if_pos (h q (List.mem_cons_self ..))
      rw [noteAll, List.foldl_cons, hnote]
      exact ih fun r hr => h r (List.mem_cons_of_mem _ hr)

/-- New questions are noted in order. -/
theorem noteAll_of_forall_not_mem {qs new : List Question} (hnew : new.Nodup)
    (h : ∀ q ∈ new, q ∉ qs) : noteAll qs new = qs ++ new := by
  induction new generalizing qs with
  | nil => exact (List.append_nil qs).symm
  | cons q new ih =>
      obtain ⟨hq, hnew⟩ := List.nodup_cons.1 hnew
      have hnote : note qs q = qs ++ [q] := if_neg (h q (List.mem_cons_self ..))
      have hrest : ∀ r ∈ new, r ∉ qs ++ [q] := by
        intro r hr hmem
        rcases List.mem_append.1 hmem with hold | heq
        · exact h r (List.mem_cons_of_mem _ hr) hold
        · exact hq (List.mem_singleton.1 heq ▸ hr)
      rw [noteAll, List.foldl_cons, hnote]
      exact (ih hnew hrest).trans (by simp)

/-- Noting questions leaves out those that were there before. -/
theorem noteAll_eraseDups (qs new : List Question) :
    noteAll qs.eraseDups new = (qs ++ new).eraseDups := by
  induction new generalizing qs with
  | nil => rw [List.append_nil]; rfl
  | cons q new ih =>
      -- noting one question is erasing it where it is a repetition
      have hnote : note qs.eraseDups q = (qs ++ [q]).eraseDups := by
        rw [List.eraseDups_append, note]
        by_cases hq : q ∈ qs
        · simp [hq, List.removeAll]
        · simp [hq, List.removeAll, List.eraseDups_cons]
      rw [noteAll, List.foldl_cons, hnote, ← noteAll, ih, List.append_assoc, List.singleton_append]

end Question

/-- The questions for steps of an iterator from a position on; texts are spelled in
    private. -/
def Handle.questions : Handle → (position count : Nat) → List Question
  | .cell i, position, count => (List.range' position count).map (.position i)
  | .text _, _, _ => []

/-- Every position is asked for once. -/
theorem Handle.nodup_questions (h : Handle) (position count : Nat) :
    (h.questions position count).Nodup := by
  cases h with
  | cell i =>
      refine List.Pairwise.map _ ?_ (List.nodup_range' (s := position) (n := count) 1)
      intro a b hab heq
      exact hab (Question.position.inj heq).2
  | text n => exact List.nodup_nil

/-- Positions that follow one another. -/
theorem Handle.questions_append (h : Handle) (position m n : Nat) :
    h.questions position m ++ h.questions (position + m) n = h.questions position (m + n) := by
  cases h with
  | cell i => simp [questions, ← List.range'_append_1]
  | text k => rfl

namespace Access

/-- The value that was read, if it is of this property. -/
def value? (r : Ref) (k : Key) : Access → Option Value
  | .read owner key v => if owner = r ∧ key = k then some v else none
  | _ => none

/-- The iterator that was made, if it is for this value. -/
def iterator? (r : Ref) : Access → Option Nat
  | .opened iterable i => if iterable = r then some i else none
  | _ => none

/-- The step that was taken, with its position, if it is of this iterator. -/
def step? (i : Nat) : Access → Option (Step × Nat)
  | .advanced j position step => if j = i then some (step, position) else none
  | _ => none

/-- The verdict of a custom matcher. -/
def verdict? : Access → Option (Verdict Unit)
  | .consulted _ verdict => some verdict
  | _ => none

/-- The value whose properties were copied. -/
def copied? : Access → Option Value
  | .remainder v _ => some v
  | _ => none

/-- The question that was answered. -/
def question? : Access → Option Question
  | .read r k _ => some (.property r k)
  | .opened r _ => some (.iterator r)
  | .advanced i position _ => some (.position i position)
  | _ => none

/-- The value that was looked at. -/
def subject? : Access → Option Value
  | .read r _ _ | .opened r _ => some (.ref r)
  | .advanced i _ _ => some (.ref (.iterator i))
  | .remainder v _ => some v
  | .consulted _ _ | .collected _ => none

/-- What the access did to the store, and that its result came of it. -/
def Effect : Access → Store → Store → Prop
  | .read r k v, σ, τ => σ.get (.ref r) k = (v, τ)
  | .opened r i, σ, τ => σ.iterate (.ref r) = (some i, τ)
  | .advanced i _ step, σ, τ => σ.next i = (step, τ)
  | .consulted name verdict, σ, τ =>
      ∃ (m : Matcher) (v : Value),
        m.name = name ∧ m.judge v (σ.record (.consulted name)) = (verdict, τ)
  | .collected items, σ, τ => (σ.newArray items).2 = τ
  | .remainder v excluded, σ, τ => (σ.without v excluded).2 = τ

/-- Every effect is a run of changes. -/
theorem Effect.leads {a : Access} {σ τ : Store} (h : a.Effect σ τ) : σ.Leads τ := by
  cases a with
  | read r k v =>
      have hget := Store.get_leads σ (.ref r) k
      rwa [show σ.get (.ref r) k = (v, τ) from h] at hget
  | opened r i =>
      have hiterate := Store.iterate_leads σ (.ref r)
      rwa [show σ.iterate (.ref r) = (some i, τ) from h] at hiterate
  | advanced i position step =>
      have hnext := (Store.next_reaches σ i).leads
      rwa [show σ.next i = (step, τ) from h] at hnext
  | consulted name verdict =>
      obtain ⟨m, v, -, hjudge⟩ := h
      -- a matcher is asked after it was noted
      have hm := m.leads v (σ.record (.consulted name))
      rw [hjudge] at hm
      exact (Store.Change.remark σ (.consulted name) trivial trivial).reaches.trans hm
  | collected items => exact h ▸ (Store.Change.array σ items).reaches
  | remainder v excluded => exact h ▸ Store.without_leads σ v excluded

/-- The values that an access mentions are there. -/
def Held (σ : Store) : Access → Prop
  | .read r _ v => σ.holds (.ref r) = true ∧ σ.holds v = true
  | .opened r i => σ.holds (.ref r) = true ∧ σ.isIterable (.ref r) = true ∧
      σ.holds (.ref (.iterator i)) = true
  | .advanced i _ step => σ.holds (.ref (.iterator i)) = true ∧
      ∀ v ∈ step.value?, σ.holds v = true
  | .remainder v _ => σ.holds v = true
  | _ => True

/-- A value that was looked at is there. -/
theorem Held.subject {a : Access} {σ : Store} (h : a.Held σ) :
    ∀ v ∈ a.subject?, σ.holds v = true := by
  intro v hv
  cases a with
  | read r k x => exact Option.some.inj hv ▸ h.1
  | opened r i => exact Option.some.inj hv ▸ h.1
  | advanced i position step => exact Option.some.inj hv ▸ h.1
  | remainder w excluded => exact Option.some.inj hv ▸ h
  | _ => cases hv

/-- What is there stays there. -/
theorem Held.keeps {a : Access} {σ τ : Store} (h : a.Held σ) (hk : σ.Keeps τ) : a.Held τ := by
  cases a with
  | read r k v => exact ⟨hk.holds h.1, hk.holds h.2⟩
  | opened r i => exact ⟨hk.holds h.1, (hk.isIterable_eq h.1).trans h.2.1, hk.holds h.2.2⟩
  | advanced i position step => exact ⟨hk.holds h.1, fun v hv => hk.holds (h.2 v hv)⟩
  | remainder v excluded => exact hk.holds h
  | _ => trivial

end Access

/-! ## Sides of a log -/

namespace Cache

variable (c : Cache)

/-- The values read of a property, in order. -/
def readings (r : Ref) (k : Key) : List Value := c.log.filterMap (·.access.value? r k)

/-- The iterators opened for a value, in order. -/
def openings (r : Ref) : List Nat := c.log.filterMap (·.access.iterator? r)

/-- The steps that an iterator gave, in order, with their positions. -/
def advances (i : Nat) : List (Step × Nat) := c.log.filterMap (·.access.step? i)

/-- The verdicts of custom matchers, in order. -/
def verdicts : List (Verdict Unit) := c.log.filterMap (·.access.verdict?)

/-- The values whose properties were copied, in order. -/
def copies : List Value := c.log.filterMap (·.access.copied?)

/-- What was asked for, in order. -/
def questions : List Question := c.log.filterMap (·.access.question?)

/-- Recording adds one entry to what a side shows of the log. -/
theorem filterMap_record {α : Type} (f : Access → Option α) (a : Access) (σ τ : Store) :
    (c.record a σ τ).log.filterMap (fun e => f e.access) =
      c.log.filterMap (fun e => f e.access) ++ (f a).toList := by
  rw [record, List.filterMap_append]
  cases h : f a <;> simp [h]

variable (a : Access) (σ τ : Store)

@[simp] theorem properties_record : (c.record a σ τ).properties = c.properties := rfl

@[simp] theorem sources_record : (c.record a σ τ).sources = c.sources := rfl

@[simp] theorem memos_record : (c.record a σ τ).memos = c.memos := rfl

@[simp] theorem opened_record : (c.record a σ τ).opened = c.opened := rfl

@[simp] theorem readings_record (r : Ref) (k : Key) :
    (c.record a σ τ).readings r k = c.readings r k ++ (a.value? r k).toList :=
  c.filterMap_record (·.value? r k) a σ τ

@[simp] theorem openings_record (r : Ref) :
    (c.record a σ τ).openings r = c.openings r ++ (a.iterator? r).toList :=
  c.filterMap_record (·.iterator? r) a σ τ

@[simp] theorem advances_record (i : Nat) :
    (c.record a σ τ).advances i = c.advances i ++ (a.step? i).toList :=
  c.filterMap_record (·.step? i) a σ τ

@[simp] theorem verdicts_record :
    (c.record a σ τ).verdicts = c.verdicts ++ a.verdict?.toList :=
  c.filterMap_record (·.verdict?) a σ τ

@[simp] theorem copies_record :
    (c.record a σ τ).copies = c.copies ++ a.copied?.toList :=
  c.filterMap_record (·.copied?) a σ τ

@[simp] theorem questions_record :
    (c.record a σ τ).questions = c.questions ++ a.question?.toList :=
  c.filterMap_record (·.question?) a σ τ

/-- Something has been asked for exactly when the side of the log that would show it is
    not empty. -/
theorem mem_questions_iff {α : Type} {q : Question} {f : Access → Option α}
    (hf : ∀ a : Access, a.question? = some q ↔ (f a).isSome) :
    q ∈ c.questions ↔ c.log.filterMap (fun e => f e.access) ≠ [] := by
  rw [questions, List.mem_filterMap, ne_eq, List.filterMap_eq_nil_iff]
  constructor
  · rintro ⟨e, he, hq⟩ hnone
    -- an entry with the question shows on that side
    have := (hf e.access).1 hq
    simp [hnone e he] at this
  · intro h
    simp only [Classical.not_forall] at h
    obtain ⟨e, he, hsome⟩ := h
    exact ⟨e, he, (hf e.access).2 (Option.isSome_iff_ne_none.2 hsome)⟩

/-- A property has been asked for exactly when a value was read. -/
theorem property_mem_questions (r : Ref) (k : Key) :
    .property r k ∈ c.questions ↔ c.readings r k ≠ [] := by
  refine c.mem_questions_iff ?_
  intro a
  cases a <;> simp [Access.question?, Access.value?]

/-- An iterator has been asked for exactly when one was opened. -/
theorem iterator_mem_questions (r : Ref) : .iterator r ∈ c.questions ↔ c.openings r ≠ [] := by
  refine c.mem_questions_iff ?_
  intro a
  cases a <;> simp [Access.question?, Access.iterator?]

/-- A position has been asked for exactly when the iterator was advanced to it. -/
theorem position_mem_questions (i p : Nat) :
    .position i p ∈ c.questions ↔ p ∈ (c.advances i).map Prod.snd := by
  rw [questions, advances, List.mem_map]
  simp only [List.mem_filterMap]
  constructor
  · rintro ⟨e, he, hq⟩
    cases ha : e.access with
    | advanced j position step =>
        rw [ha, Access.question?, Option.some.injEq, Question.position.injEq] at hq
        exact ⟨(step, position), ⟨e, he, by simp [ha, Access.step?, hq.1]⟩, hq.2⟩
    | _ => simp [ha, Access.question?] at hq
  · rintro ⟨⟨step, position⟩, ⟨e, he, hs⟩, rfl⟩
    cases ha : e.access with
    | advanced j position' step' =>
        rw [ha, Access.step?, Option.ite_none_right_eq_some] at hs
        obtain ⟨hj, hs⟩ := hs
        cases hs
        exact ⟨e, he, by rw [ha, Access.question?, hj]⟩
    | _ => simp [ha, Access.step?] at hs

end Cache

end StructuralMatch
