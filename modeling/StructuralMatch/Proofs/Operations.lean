import StructuralMatch.Proofs.Moves

/-! # What the operations of a match do

    One specification for each operation by which a match looks at values.  Each
    says that the operation is work, which answer it gives in terms of the memory
    afterwards, and which question it asked: what was asked before is not asked
    again.  Nothing below has to open these operations.

    Between operations no drain is going on, so all memos are settled. -/

namespace StructuralMatch

namespace State

variable {s t : State}

/-- No drain is going on. -/
def Settled (s : State) : Prop := ∀ h : Handle, (s.cache.memo h).Settled

/-- What an operation leaves behind, having asked some questions. -/
structure Leaves (s t : State) (asked : List Question) : Prop where
  works : Works s t
  settled : t.Settled
  questions : t.cache.questions = Question.noteAll s.cache.questions asked
  verdicts : t.cache.verdicts = s.cache.verdicts
  copies : t.cache.copies = s.cache.copies

theorem Leaves.refl (hs : s.Settled) : Leaves s s [] := ⟨.refl s, hs, rfl, rfl, rfl⟩

/-- An operation that asks what is known already leaves everything as it is. -/
theorem Leaves.of_known (hs : s.Settled) {asked : List Question}
    (h : ∀ q ∈ asked, q ∈ s.cache.questions) : Leaves s s asked :=
  ⟨.refl s, hs, (Question.noteAll_of_forall_mem h).symm, rfl, rfl⟩

/-- One operation after another: the questions add up, each noted once. -/
theorem Leaves.trans {u : State} {asked more : List Question} (h₁ : Leaves s t asked)
    (h₂ : Leaves t u more) : Leaves s u (asked ++ more) where
  works := h₁.works.trans h₂.works
  settled := h₂.settled
  questions := by rw [h₂.questions, h₁.questions, Question.noteAll_append]
  verdicts := h₂.verdicts.trans h₁.verdicts
  copies := h₂.copies.trans h₁.copies

/-- An operation that leaves the log alone asks nothing. -/
theorem Leaves.of_log_eq (hworks : Works s t) (hset : t.Settled)
    (hlog : t.cache.log = s.cache.log) : Leaves s t [] := by
  refine ⟨hworks, hset, ?_, ?_, ?_⟩
  · rw [Question.noteAll_nil, Cache.questions, hlog, Cache.questions]
  · rw [Cache.verdicts, hlog, Cache.verdicts]
  · rw [Cache.copies, hlog, Cache.copies]

/-- An operation that adds one entry to the log asks what the entry answers, which is new;
    the entry is neither a verdict nor a copy. -/
theorem Leaves.of_log_snoc {a : Access} {start stop : Nat} (hworks : Works s t)
    (hset : t.Settled) (hlog : t.cache.log = s.cache.log ++ [⟨a, start, stop⟩])
    (hnew : ∀ q ∈ a.question?, q ∉ s.cache.questions) (hverdict : a.verdict? = none)
    (hcopied : a.copied? = none) : Leaves s t a.question?.toList := by
  refine ⟨hworks, hset, ?_, ?_, ?_⟩
  · rw [Cache.questions, hlog, List.filterMap_append, ← Cache.questions]
    cases hq : a.question? with
    | none => simp [hq]
    | some q => simp [hq, Question.noteAll_singleton, hnew q hq]
  · rw [Cache.verdicts, hlog, List.filterMap_append, ← Cache.verdicts]
    simp [hverdict]
  · rw [Cache.copies, hlog, List.filterMap_append, ← Cache.copies]
    simp [hcopied]

/-! ## Properties -/

/-- Visiting a value. -/
theorem register_leaves (hset : s.Settled) (v : Value) : Leaves s (s.register v).2 [] := by
  cases v with
  | prim p => exact .refl hset
  | ref r =>
      have hlog : (s.register (.ref r)).2.cache.log = s.cache.log := Cache.log_visit _ _
      -- a visit opens a table for the value and touches no memo
      have hmemos : (s.register (.ref r)).2.cache.memos = s.cache.memos := by
        show (s.cache.visit r).memos = _
        rw [Cache.visit]
        split <;> rfl
      refine .of_log_eq (Move.visit s r).works ?_ hlog
      intro h
      rw [Cache.memo, hmemos]
      exact hset h

/-- Reading a property gives the value that the log shows for it. -/
theorem read_leaves (hs : s.Sound) (hset : s.Settled) {r : Ref}
    (held : s.store.holds (.ref r) = true) (k : Key) :
    Leaves s (s.read (.ref r) k).2 [.property r k] ∧
      (s.read (.ref r) k).2.cache.readings r k = [(s.read (.ref r) k).1] := by
  have hreadings := hs.faithful.readings r k
  cases hknown : s.cache.property? (.ref r) k with
  | some x =>
      -- the property is known, so it was asked for before
      have hread : s.read (.ref r) k = (x, s) := by
        simp only [State.read, Value.identity, hknown]
      rw [hread]
      rw [hknown] at hreadings
      refine ⟨.of_known hset ?_, hreadings⟩
      intro q hq
      rw [List.mem_singleton.1 hq, Cache.property_mem_questions, hreadings]
      exact List.cons_ne_nil _ _
  | none =>
      have hread : s.read (.ref r) k =
          ((s.store.get (.ref r) k).1,
            ⟨(s.cache.remember r k (s.store.get (.ref r) k).1).record
              (.read r k (s.store.get (.ref r) k).1) s.store (s.store.get (.ref r) k).2,
              (s.store.get (.ref r) k).2⟩) := by
        simp only [State.read, Value.identity, hknown]
      -- the property is new, and the log now ends with its value
      rw [hknown] at hreadings
      rw [hread]
      refine ⟨.of_log_snoc (Move.read s held hknown rfl).works hset rfl ?_ rfl rfl, ?_⟩
      · rintro q ⟨⟩
        rw [Cache.property_mem_questions, hreadings]
        exact fun h => h rfl
      · rw [Cache.readings_record]
        show s.cache.readings r k ++ _ = _
        simp [hreadings, Access.value?]

/-! ## Iterators -/

/-- What the cache is in charge of already it does not take charge of again. -/
theorem adopt_of_contains {h : Handle} (hknown : s.cache.memos.contains h = true) :
    s.adopt h = s := by
  rw [State.adopt, Cache.adopt, if_pos hknown]

/-- Taking charge of an iterator. -/
theorem adopt_leaves (hs : s.Sound) (hset : s.Settled) {h : Handle} (hu : s.Usable h) :
    Leaves s (s.adopt h) [] := by
  cases h with
  | cell i =>
      have hlog : (s.adopt (.cell i)).cache.log = s.cache.log := Cache.log_adopt _ _
      refine .of_log_eq (Move.adopt s hu).works ?_ hlog
      intro g
      rw [State.adopt, Cache.memo_adopt]
      exact hset g
  | text n =>
      -- a text that is spelled has its memo from the beginning
      have hcontains := (hs.faithful.texts n _ (Array.getElem?_eq_getElem hu)).1
      rw [adopt_of_contains hcontains]
      exact .refl hset

/-- The text behind a handle, while it is being spelled. -/
def Spells (s : State) (n : Nat) (text : String) : Prop :=
  ∃ t : Spelling, s.cache.texts[n]? = some t ∧ t.text = text ∧ t.closed = false

/-- Getting the iterator of a text: a new one. -/
theorem iteratorFor_text (hset : s.Settled) (text : String) :
    ∃ n, (s.iteratorFor (.text text)).1 = some (.text n) ∧
      Leaves s (s.iteratorFor (.text text)).2 [] ∧
        (s.iteratorFor (.text text)).2.Spells n text := by
  have hlog : (s.spell text).2.cache.log = s.cache.log := Cache.log_adopt _ _
  have htexts : (s.spell text).2.cache.texts = s.cache.texts.push (.begin text) :=
    Cache.texts_adopt _ _
  refine ⟨s.cache.texts.size, rfl, .of_log_eq (Move.spell s text).works ?_ hlog, ?_⟩
  · intro g
    show ((s.spell text).2.cache.memo g).Settled
    rw [State.spell, Cache.memo_adopt]
    exact hset g
  · exact ⟨.begin text, by simp [State.iteratorFor, htexts], rfl, rfl⟩

/-- Getting no iterator for a reference: it cannot be iterated over, and nothing happens. -/
theorem iteratorFor_none (hs : s.Sound) {r : Ref} (h : (s.iteratorFor (.ref r)).1 = none) :
    s.store.isIterable (.ref r) = false ∧ (s.iteratorFor (.ref r)).2 = s := by
  have hiterable := hs.grounded.isSome_iterate (.ref r)
  have hsame := @Store.iterate_eq_of_none s.store (.ref r)
  simp only [State.iteratorFor] at h ⊢
  split at h
  · cases h
  · generalize s.store.iterate (.ref r) = iterated at hiterable hsame h ⊢
    rcases iterated with ⟨_ | i, σ⟩
    · have hσ : σ = s.store := hsame rfl
      exact ⟨hiterable.symm, by rw [hσ]⟩
    · cases h

/-- Getting an iterator for a reference gives the one that the log shows for it. -/
theorem iteratorFor_some (hs : s.Sound) (hset : s.Settled) {r : Ref}
    (held : s.store.holds (.ref r) = true) {h : Handle}
    (hsome : (s.iteratorFor (.ref r)).1 = some h) :
    ∃ i, h = .cell i ∧ Leaves s (s.iteratorFor (.ref r)).2 [.iterator r] ∧
      (s.iteratorFor (.ref r)).2.cache.openings r = [i] ∧
        (s.iteratorFor (.ref r)).2.Usable (.cell i) := by
  have hopenings := hs.faithful.openings r
  cases hknown : s.cache.sources.get? r with
  | some i =>
      have hfor : s.iteratorFor (.ref r) = (some (.cell i), s) := by
        simp only [State.iteratorFor, hknown]
      -- the reference was opened before, and its iterator is in charge already
      rw [hfor] at hsome ⊢
      rw [hknown] at hopenings
      have hmem : i ∈ s.cache.openings r := by simp [hopenings]
      refine ⟨i, (Option.some.inj hsome).symm, .of_known hset ?_, hopenings, ?_⟩
      · intro q hq
        rw [List.mem_singleton.1 hq, Cache.iterator_mem_questions]
        exact List.ne_nil_of_mem hmem
      · -- the log names the iterator, so it is there
        obtain ⟨e, he, hi⟩ := List.mem_filterMap.1 hmem
        have hheld := hs.held e he
        cases ha : e.access with
        | opened q j =>
            rw [ha, Access.iterator?, Option.ite_none_right_eq_some] at hi
            rw [ha] at hheld
            exact Option.some.inj hi.2 ▸ hheld.2.2
        | _ => simp [ha, Access.iterator?] at hi
  | none =>
      cases heffect : s.store.iterate (.ref r) with
      | mk opened σ =>
      cases opened with
      | none => simp [State.iteratorFor, hknown, heffect] at hsome
      | some i =>
          have hfor : s.iteratorFor (.ref r) = (some (.cell i),
              ⟨((s.cache.assign r i).record (.opened r i) s.store σ).adopt (.cell i), σ⟩) := by
            simp only [State.iteratorFor, hknown, heffect]
          rw [hknown] at hopenings
          -- the opening is logged, and taking charge of the iterator adds nothing to the log
          have hlog := Cache.log_adopt ((s.cache.assign r i).record (.opened r i) s.store σ)
            (.cell i)
          rw [hfor] at hsome ⊢
          refine ⟨i, (Option.some.inj hsome).symm,
            .of_log_snoc (Move.assign s held hknown heffect).works ?_ hlog ?_ rfl rfl, ?_,
            Store.holds_of_iterate held heffect⟩
          · intro g
            rw [Cache.memo_adopt]
            exact hset g
          · rintro q ⟨⟩
            rw [Cache.iterator_mem_questions, hopenings]
            exact fun h => h rfl
          · rw [Cache.openings, hlog, ← Cache.openings, Cache.openings_record]
            show s.cache.openings r ++ _ = _
            simp [hopenings, Access.iterator?]

/-! ## Steps -/

/-- What advancing an iterator leaves behind, its memo with one step added. -/
structure Pulls (s t : State) (h : Handle) (position : Nat) (m : Memo) : Prop where
  works : Works s t
  known : t.cache.memos.contains h = true
  questions : t.cache.questions = s.cache.questions ++ h.questions position 1
  verdicts : t.cache.verdicts = s.cache.verdicts
  copies : t.cache.copies = s.cache.copies
  memo : ∀ g, t.cache.memo g = if h = g then m else s.cache.memo g

/-- Advancing an iterator whose memo waits for more. -/
theorem pull_pulls {h : Handle} (hu : s.Usable h)
    (hknown : s.cache.memos.contains h = true) {vs : List Value}
    (waits : (s.cache.memo h).Stands vs false) {add : Memo → Step → Memo}
    (hadd : ∀ step : Step,
      (add (s.cache.memo h) step).Stands (vs ++ step.value?.toList) step.isDone) :
    Pulls s (s.pull add h).2 h vs.length (add (s.cache.memo h) (s.pull add h).1) := by
  have hlength := waits.length_eq
  cases h with
  | cell i =>
      have hpull : s.pull add (.cell i) = ((s.store.next i).1,
          ⟨(s.cache.record (.advanced i vs.length (s.store.next i).1) s.store
            (s.store.next i).2).learn (.cell i)
              (add (s.cache.memo (.cell i)) (s.store.next i).1), (s.store.next i).2⟩) := by
        rw [← hlength]
        rfl
      rw [hpull]
      refine ⟨(Move.advance s hu hknown waits rfl (hadd _)).works, ?_, ?_, ?_, ?_, ?_⟩
      · rw [Cache.contains_learn]
        exact Bool.or_eq_true_iff.2 (.inr hknown)
      · exact Cache.questions_record ..
      · exact (Cache.verdicts_record ..).trans (List.append_nil _)
      · exact (Cache.copies_record ..).trans (List.append_nil _)
      · intro g
        exact Cache.memo_learn _ _ _ g
  | text n =>
      refine ⟨(Move.letter s hu hknown waits (hadd _)).works, ?_, ?_, rfl, rfl, ?_⟩
      · exact (Cache.contains_learn ..).trans (Bool.or_eq_true_iff.2 (.inr hknown))
      · exact (List.append_nil _).symm
      · intro g
        exact Cache.memo_learn _ _ _ g

/-- The memo of every iterator that is there stands for something. -/
theorem Sound.stands (hs : s.Sound) {h : Handle} (hu : s.Usable h) :
    ∃ vs ended, (s.cache.memo h).Stands vs ended := by
  cases h with
  | cell i =>
      obtain ⟨vs, ended, hm, -⟩ := hs.faithful.advances i
      exact ⟨vs, ended, hm⟩
  | text n =>
      obtain ⟨-, vs, ended, hm, -⟩ := hs.faithful.texts n _ (Array.getElem?_eq_getElem hu)
      exact ⟨vs, ended, hm⟩

/-- What is known of an iterator has been asked for. -/
theorem questions_mem (hs : s.Sound) {h : Handle} {vs : List Value} {ended : Bool}
    (hm : (s.cache.memo h).Stands vs ended) {p count : Nat}
    (hp : p + count ≤ (Step.run vs ended).length) :
    ∀ q ∈ h.questions p count, q ∈ s.cache.questions := by
  intro q hq
  cases h with
  | text n => cases hq
  | cell i =>
      obtain ⟨k, hk, rfl⟩ := List.mem_map.1 hq
      obtain ⟨ws, ended', hstands, hadvances⟩ := hs.faithful.advances i
      obtain ⟨rfl, rfl⟩ := hm.unique hstands
      rw [Cache.position_mem_questions, hadvances, List.zipIdx_map_snd]
      have := List.mem_range'_1.1 hk
      exact List.mem_range'_1.2 (by omega)

/-- What is not known of an iterator has not been asked for. -/
theorem questions_not_mem (hs : s.Sound) {h : Handle} {vs : List Value} {ended : Bool}
    (hm : (s.cache.memo h).Stands vs ended) {p count : Nat}
    (hp : (Step.run vs ended).length ≤ p) :
    ∀ q ∈ h.questions p count, q ∉ s.cache.questions := by
  intro q hq
  cases h with
  | text n => cases hq
  | cell i =>
      obtain ⟨k, hk, rfl⟩ := List.mem_map.1 hq
      obtain ⟨ws, ended', hstands, hadvances⟩ := hs.faithful.advances i
      obtain ⟨rfl, rfl⟩ := hm.unique hstands
      rw [Cache.position_mem_questions, hadvances, List.zipIdx_map_snd]
      have := List.mem_range'_1.1 hk
      intro hmem
      have := List.mem_range'_1.1 hmem
      omega

/-- Advancing once. -/
theorem repeatedly_one (pull : State → Step × State) (s : State) :
    repeatedly pull 1 s = (pull s).2 := by
  simp only [repeatedly]
  split <;> simp_all

/-- A positional read gives what is known. -/
theorem step_of_known {h : Handle} {p : Nat} {r : Step}
    (hknown : (s.cache.memo h).at? p = some r) : s.step h p = (r, s.adopt h) := by
  have hadopt : ((s.adopt h).cache.memo h).at? p = some r := by
    rwa [State.adopt, Cache.memo_adopt]
  simp only [State.step, hadopt]

/-- A positional read, at a position up to which the iterator has yielded, gives the step
    of the run. -/
theorem step_leaves (hs : s.Sound) (hset : s.Settled) {h : Handle} (hu : s.Usable h)
    {vs : List Value} {ended : Bool} (hm : (s.cache.memo h).Stands vs ended) {p : Nat}
    (hp : p ≤ vs.length) :
    Leaves s (s.step h p).2 (h.questions p 1) ∧
      ∃ ws ended', ((s.step h p).2.cache.memo h).Stands ws ended' ∧
        (Step.run ws ended')[p]? = some (s.step h p).1 := by
  have hadopt := adopt_leaves hs hset hu
  have hs' := hadopt.works.sound hs
  have hu' := hadopt.works.usable hu
  have hm' : ((s.adopt h).cache.memo h).Stands vs ended := by
    rwa [State.adopt, Cache.memo_adopt]
  have hat := hm.at?_eq (hset h) hp
  cases hknown : (s.cache.memo h).at? p with
  | some r =>
      rw [hknown] at hat
      rw [step_of_known hknown]
      refine ⟨?_, vs, ended, hm', hat.symm⟩
      have hlt := (List.getElem?_eq_some_iff.1 hat.symm).1
      -- what the memo tells was asked for when it was pulled
      have hask : Leaves (s.adopt h) (s.adopt h) (h.questions p 1) :=
        .of_known hadopt.settled (questions_mem hs' hm' hlt)
      simpa using hadopt.trans hask
  | none =>
      -- the read is at the end of what is known, and the memo waits for more
      rw [hknown] at hat
      have hlength := List.getElem?_eq_none_iff.1 hat.symm
      rw [Step.length_run] at hlength
      have hended : ended = false := by
        cases ended with
        | false => rfl
        | true => simp at hlength; omega
      -- so the position is the first that is not known, and a single advance answers it
      subst hended
      have hpv : p = vs.length := by simp at hlength; omega
      subst hpv
      have hsteps := hm'.length_eq_of_settled (hadopt.settled h)
      have hadopted : ((s.adopt h).cache.memo h).at? vs.length = none := by
        rwa [State.adopt, Cache.memo_adopt]
      have hstep : s.step h vs.length =
          ((((s.adopt h).pull Memo.addStep h).2.cache.memo h).steps[vs.length]?.getD .done,
            ((s.adopt h).pull Memo.addStep h).2) := by
        simp only [State.step, hadopted, hsteps, Nat.add_sub_cancel_left, repeatedly_one]
      have hpulls := pull_pulls hu' (Cache.contains_adopt_self _ _) hm'
        (hm'.addStep (hadopt.settled h))
      have hfound := hpulls.memo h
      rw [if_pos rfl] at hfound
      rw [hstep, hfound]
      generalize (s.adopt h).pull Memo.addStep h = pulled at *
      obtain ⟨r, t⟩ := pulled
      refine ⟨?_, _, _, hm'.addStep (hadopt.settled h) r, ?_⟩
      · -- the advance asked for the one position that was not known
        have hpulled : Leaves (s.adopt h) t (h.questions vs.length 1) := by
          refine ⟨hpulls.works, ?_, ?_, hpulls.verdicts, hpulls.copies⟩
          · intro g
            rw [hpulls.memo g]
            split
            · exact (hadopt.settled h).addStep r
            · exact hadopt.settled g
          · rw [hpulls.questions, Question.noteAll_of_forall_not_mem (h.nodup_questions _ _)]
            exact questions_not_mem hs' hm' (by simp [Step.run_false])
        simpa using hadopt.trans hpulled
      · rw [← Step.run_concat]
        simp [Memo.addStep, ← hsteps, Step.run_false]

/-- What positional reads past what is known leave behind: more of the run, as much as was
    asked for or all. -/
structure Reads (s t : State) (h : Handle) (vs : List Value) (count : Nat) : Prop where
  works : Works s t
  others : ∀ g, g ≠ h → t.cache.memo g = s.cache.memo g
  tail : (t.cache.memo h).tail = []
  more : ∃ ws ended, (t.cache.memo h).Stands (vs ++ ws) ended ∧ (ended = false → ws.length = count)

/-- Positional reads leave all memos settled. -/
theorem Reads.settled {h : Handle} {vs : List Value} {count : Nat} (hr : Reads s t h vs count)
    (hs : s.Settled) : t.Settled := by
  intro g
  by_cases hg : g = h
  · intro _
    rw [hg, hr.tail]
  · rw [hr.others g hg]
    exact hs g

/-- Reading on, step by step. -/
theorem repeatedly_reads (h : Handle) (count : Nat) :
    ∀ {s : State}, s.Usable h → s.cache.memos.contains h = true →
      ∀ {vs : List Value}, (s.cache.memo h).Stands vs false →
        (s.cache.memo h).tail = [] →
          Reads s (repeatedly (pull Memo.addStep h) count s) h vs count := by
  induction count with
  | zero =>
      intro s hu hknown vs hm htail
      refine ⟨.refl s, fun _ _ => rfl, htail, [], false, ?_, fun _ => rfl⟩
      rw [List.append_nil]
      exact hm
  | succ count ih =>
      intro s hu hknown vs hm htail
      -- each advance adds a step to the memo of this iterator, and to no other
      have hset : (s.cache.memo h).Settled := fun _ => htail
      have hpulls := pull_pulls hu hknown hm (hm.addStep hset)
      have hothers : ∀ g, g ≠ h → (s.pull Memo.addStep h).2.cache.memo g = s.cache.memo g :=
        fun g hg => (hpulls.memo g).trans (if_neg (Ne.symm hg))
      have hself := hpulls.memo h
      rw [if_pos rfl] at hself
      rw [repeatedly]
      generalize s.pull Memo.addStep h = pulled at *
      rcases pulled with ⟨v | _, t⟩
      · have hstands : (t.cache.memo h).Stands (vs ++ [v]) false := by
          rw [hself]
          exact hm.addStep hset (.yielded v)
        have htail' : (t.cache.memo h).tail = [] := by
          rw [hself]
          exact htail
        have hrest := ih (hpulls.works.usable hu) hpulls.known hstands htail'
        obtain ⟨ws, ended, hmore, hcount⟩ := hrest.more
        refine ⟨hpulls.works.trans hrest.works, ?_, hrest.tail, v :: ws, ended, ?_, ?_⟩
        · intro g hg
          exact (hrest.others g hg).trans (hothers g hg)
        · simpa using hmore
        · intro hended
          rw [List.length_cons, hcount hended]
      · -- the iterator has ended, and the advances that are left are not made
        refine ⟨hpulls.works, hothers, ?_, [], true, ?_, fun h => by cases h⟩
        · rw [hself]
          exact htail
        · rw [hself]
          exact hm.addStep hset .done

/-- A positional read answers at any position, and the memo knows the answer afterwards. -/
theorem step_answers (hs : s.Sound) (hset : s.Settled) {h : Handle} (hu : s.Usable h) (p : Nat) :
    Works s (s.step h p).2 ∧ (s.step h p).2.Settled ∧
      ((s.step h p).2.cache.memo h).at? p = some (s.step h p).1 := by
  have hadopt := adopt_leaves hs hset hu
  cases hknown : ((s.adopt h).cache.memo h).at? p with
  | some r =>
      have hsame := hknown
      rw [State.adopt, Cache.memo_adopt] at hsame
      rw [step_of_known hsame]
      exact ⟨hadopt.works, hadopt.settled, hknown⟩
  | none =>
      have hu' := hadopt.works.usable hu
      obtain ⟨vs, ended, hm⟩ := (hadopt.works.sound hs).stands hu'
      have htold := hm.at?_eq_told (hadopt.settled h) p
      rw [hknown] at htold
      -- what is not told lies beyond a run that has not ended
      obtain ⟨rfl, hp⟩ := Step.told_eq_none htold.symm
      have hsteps := hm.length_eq_of_settled (hadopt.settled h)
      have htail : ((s.adopt h).cache.memo h).tail = [] := by
        have hlength := hm.length_eq
        rw [hsteps] at hlength
        exact List.eq_nil_of_length_eq_zero (by omega)
      have hreads := repeatedly_reads h (p + 1 - vs.length) hu' (Cache.contains_adopt_self _ _) hm
        htail
      have hstep : s.step h p =
          (((repeatedly (pull Memo.addStep h) (p + 1 - vs.length) (s.adopt h)).cache.memo
              h).steps[p]?.getD .done,
            repeatedly (pull Memo.addStep h) (p + 1 - vs.length) (s.adopt h)) := by
        simp only [State.step, hknown, hsteps]
      rw [hstep]
      generalize repeatedly (pull Memo.addStep h) (p + 1 - vs.length) (s.adopt h) = t at hreads ⊢
      obtain ⟨ws, ended, hmore, hcount⟩ := hreads.more
      have hset' := hreads.settled hadopt.settled
      refine ⟨hadopt.works.trans hreads.works, hset', ?_⟩
      have hanswer : ((t.cache.memo h).at? p).isSome := by
        rw [hmore.at?_eq_told (hset' h), Step.isSome_told]
        cases ended with
        | true => exact .inl rfl
        | false =>
            have hlength := hcount rfl
            exact .inr (by rw [List.length_append]; omega)
      exact Memo.at?_eq_getD hreads.tail hanswer

/-! ## Drains -/

/-- An iterator that yields has less to yield. -/
theorem remaining_pull_lt {h : Handle} (hu : s.Usable h) (add : Memo → Step → Memo) {v : Value}
    (hv : (s.pull add h).1 = .yielded v) : (s.pull add h).2.remaining h < s.remaining h := by
  cases h with
  | cell i => exact Store.remaining_next_lt hv
  | text n =>
      -- what a text has left are the letters that are not spelled yet
      have hspelling : (s.pull add (.text n)).2.cache.spelling n = (s.cache.spelling n).next.2 := by
        have hn : n < s.cache.texts.size := hu
        simp [State.pull, State.next, State.learn, Cache.learn, Cache.setSpelling, Cache.spelling,
          Array.getD_eq_getD_getElem?, hn]
      have hnext : (s.cache.spelling n).next.1 = .yielded v := hv
      show ((s.pull add (.text n)).2.cache.spelling n).left.length < _
      rw [hspelling]
      show _ < (s.cache.spelling n).left.length
      rw [Spelling.next] at hnext ⊢
      cases hleft : (s.cache.spelling n).left with
      | nil => simp [hleft] at hnext
      | cons c left => simp

/-- What advancing an iterator to its end leaves behind. -/
structure Exhausts (s t : State) (h : Handle) (vs : List Value) : Prop where
  works : Works s t
  verdicts : t.cache.verdicts = s.cache.verdicts
  copies : t.cache.copies = s.cache.copies
  others : ∀ g, g ≠ h → t.cache.memo g = s.cache.memo g
  drained : (t.cache.memo h).drained = true
  steps : (t.cache.memo h).steps = (s.cache.memo h).steps
  all : ∃ ws, (t.cache.memo h).Stands (vs ++ ws) true ∧
    t.cache.questions = s.cache.questions ++ h.questions vs.length (ws.length + 1)

/-- Advancing an iterator as often as it can yield, and once more, brings it to its end. -/
theorem repeatedly_exhausts (h : Handle) (count : Nat) :
    ∀ {s : State}, s.Usable h → s.cache.memos.contains h = true → ∀ {vs : List Value},
      (s.cache.memo h).Stands vs false → s.remaining h < count →
        Exhausts s (repeatedly (pull Memo.addTail h) count s) h vs := by
  induction count with
  | zero => exact fun _ _ _ _ hlt => absurd hlt (Nat.not_lt_zero _)
  | succ count ih =>
      intro s hu hknown vs hm hlt
      have hpulls := pull_pulls hu hknown hm hm.addTail
      -- what the iterator can still yield bounds the number of pulls
      have hless := @remaining_pull_lt s h hu Memo.addTail
      have hothers : ∀ g, g ≠ h →
          (s.pull Memo.addTail h).2.cache.memo g = s.cache.memo g :=
        fun g hg => (hpulls.memo g).trans (if_neg (Ne.symm hg))
      have hself := hpulls.memo h
      rw [if_pos rfl] at hself
      rw [repeatedly]
      generalize s.pull Memo.addTail h = pulled at *
      rcases pulled with ⟨_ | _, t⟩
      · rename_i v
        have hwaits : (t.cache.memo h).Stands (vs ++ [v]) false := by
          rw [hself]
          exact hm.addTail (.yielded v)
        have hrest := ih (hpulls.works.usable hu) hpulls.known hwaits
          (Nat.lt_of_lt_of_le (hless rfl) (by omega))
        obtain ⟨ws, hstands, hasked⟩ := hrest.all
        refine ⟨hpulls.works.trans hrest.works, hrest.verdicts.trans hpulls.verdicts,
          hrest.copies.trans hpulls.copies, ?_, hrest.drained, ?_, v :: ws, ?_, ?_⟩
        · intro g hg
          exact (hrest.others g hg).trans (hothers g hg)
        · rw [hrest.steps, hself, Memo.addTail_steps]
        · simpa using hstands
        · -- the position of this pull comes before those of the rest
          have hcount := h.questions_append vs.length 1 (ws.length + 1)
          have hlength : (vs ++ [v]).length = vs.length + 1 := by simp
          rw [hasked, hpulls.questions, hlength, List.append_assoc, hcount, List.length_cons,
            Nat.add_comm 1]
      · -- the report of exhaustion is the last pull, and marks the memo as drained
        refine ⟨hpulls.works, hpulls.verdicts, hpulls.copies, hothers, ?_, ?_, [], ?_,
          hpulls.questions⟩
        · rw [hself]
          rfl
        · rw [hself, Memo.addTail_steps]
        · rw [hself]
          exact hm.addTail .done

/-- Exhausting an iterator asks for all its positions from any known one on: what is known
    is asked in vain, and the rest is new. -/
theorem Exhausts.leaves {h : Handle} {vs : List Value} (hex : Exhausts s t h vs) (hs : s.Sound)
    (hset : s.Settled) (hm : (s.cache.memo h).Stands vs false) {p : Nat} (hp : p ≤ vs.length) :
    ∃ ws, (t.cache.memo h).Stands (vs ++ ws) true ∧
      Leaves s t (h.questions p ((vs ++ ws).length + 1 - p)) := by
  obtain ⟨ws, hstands, hasked⟩ := hex.all
  refine ⟨ws, hstands, hex.works, ?_, ?_, hex.verdicts, hex.copies⟩
  · intro g
    by_cases hg : g = h
    · intro hnot
      rw [hg, hex.drained] at hnot
      cases hnot
    · rw [hex.others g hg]
      exact hset g
  · have hlength : (Step.run vs false).length = vs.length := by simp [Step.run_false]
    -- the positions split into those that were known and those that were pulled
    have hold : ∀ q ∈ h.questions p (vs.length - p), q ∈ s.cache.questions :=
      questions_mem hs hm (by omega)
    have hnew : ∀ q ∈ h.questions vs.length (ws.length + 1), q ∉ s.cache.questions :=
      questions_not_mem hs hm (by omega)
    have hsplit := h.questions_append p (vs.length - p) (ws.length + 1)
    have hcount : vs.length - p + (ws.length + 1) = (vs ++ ws).length + 1 - p := by
      rw [List.length_append]
      omega
    rw [Nat.add_sub_cancel' hp, hcount] at hsplit
    rw [← hsplit, Question.noteAll_append, Question.noteAll_of_forall_mem hold,
      Question.noteAll_of_forall_not_mem (h.nodup_questions _ _) hnew, hasked]

/-- A drain of an iterator that has ended pulls nothing. -/
theorem drainFrom_of_ended {h : Handle} {vs : List Value} (hm : (s.cache.memo h).Stands vs true)
    {p : Nat} (hp : p ≤ vs.length) : s.drainFrom h p = (vs.drop p, s.adopt h) := by
  have hm' : ((s.adopt h).cache.memo h).Stands vs true := by
    rwa [State.adopt, Cache.memo_adopt]
  have hdrop := hm'.drop_eq hp
  cases hknown : (((s.adopt h).cache.memo h).steps.drop p).any Step.isDone with
  | true =>
      rw [(hm'.of_any_isDone hknown).2, List.drop_nil, List.append_nil] at hdrop
      simp only [State.drainFrom, hknown, if_true, hdrop]
  | false =>
      -- without completion among the steps, it is the tail that tells it
      have hdrained : ((s.adopt h).cache.memo h).drained = true := by
        by_contra hnot
        have hwaits := hm'.waits_of_any_isDone hp hknown (Bool.eq_false_iff.2 hnot)
        cases hwaits
      simp only [State.drainFrom, hknown, State.drain, hdrained, if_true, hdrop,
        Bool.false_eq_true, if_false]

/-- A drain, from a position up to which the iterator has yielded, gives the rest of all
    its values. -/
theorem drainFrom_leaves (hs : s.Sound) (hset : s.Settled) {h : Handle} (hu : s.Usable h)
    {vs : List Value} {ended : Bool} (hm : (s.cache.memo h).Stands vs ended) {p : Nat}
    (hp : p ≤ vs.length) :
    ∃ ws, ((s.drainFrom h p).2.cache.memo h).Stands ws true ∧
      (s.drainFrom h p).1 = ws.drop p ∧
        Leaves s (s.drainFrom h p).2 (h.questions p (ws.length + 1 - p)) := by
  have hadopt := adopt_leaves hs hset hu
  have hs' := hadopt.works.sound hs
  have hu' := hadopt.works.usable hu
  have hm' : ((s.adopt h).cache.memo h).Stands vs ended := by
    rwa [State.adopt, Cache.memo_adopt]
  cases ended with
  | true =>
      -- all values are known, and so is completion
      have hlength : (Step.run vs true).length = vs.length + 1 := by simp [Step.length_run]
      have hask : Leaves (s.adopt h) (s.adopt h) (h.questions p (vs.length + 1 - p)) :=
        .of_known hadopt.settled (questions_mem hs' hm' (by omega))
      rw [drainFrom_of_ended hm hp]
      exact ⟨vs, hm', rfl, by simpa using hadopt.trans hask⟩
  | false =>
      -- completion is not known yet, so the drain has to pull
      have hknown : (((s.adopt h).cache.memo h).steps.drop p).any Step.isDone = false := by
        by_contra hnot
        have hended := (hm'.of_any_isDone (Bool.not_eq_false _ ▸ hnot)).1
        cases hended
      have hdrained : ((s.adopt h).cache.memo h).drained = false := by
        have hexhausted := hm'.exhausted_eq
        rw [Memo.exhausted, Bool.or_eq_false_iff] at hexhausted
        exact hexhausted.1
      have hexhausts := repeatedly_exhausts h _ hu' (Cache.contains_adopt_self _ _) hm'
        (Nat.lt_succ_self _)
      obtain ⟨ws, hstands, hleaves⟩ := hexhausts.leaves hs' hadopt.settled hm' hp
      -- the steps that were known come first, the tail that was pulled follows
      have hfrom : s.drainFrom h p = ((vs ++ ws).drop p,
          repeatedly (pull Memo.addTail h) ((s.adopt h).remaining h + 1) (s.adopt h)) := by
        rw [← hstands.drop_eq (p := p) (by rw [List.length_append]; omega), hexhausts.steps]
        simp only [State.drainFrom, hknown, State.drain, hdrained, Bool.false_eq_true, if_false]
      rw [hfrom]
      exact ⟨vs ++ ws, hstands, rfl, by simpa using hadopt.trans hleaves⟩

/-! ## Values made on the way -/

/-- Putting elements into an array. -/
theorem collect_leaves (hset : s.Settled) (items : List Value) :
    Leaves s (s.collect items).2 [] :=
  .of_log_snoc (Move.unseen s (a := .collected items) trivial trivial rfl).works hset rfl
    (by simp [Access.question?]) rfl rfl

/-- Copying properties into an object. -/
theorem remainder_works {v : Value} (held : s.store.holds v = true) (excluded : List Key) :
    Works s (s.remainder v excluded).2 :=
  (Move.unseen s (a := .remainder v excluded) trivial held rfl).works

/-- What asking a matcher leaves behind: its verdict, and no question. -/
structure Consults (s t : State) (verdict : Verdict Unit) : Prop where
  works : Works s t
  settled : t.Settled
  questions : t.cache.questions = s.cache.questions
  verdicts : t.cache.verdicts = s.cache.verdicts ++ [verdict]
  copies : t.cache.copies = s.cache.copies

theorem consult_consults (hset : s.Settled) (m : Matcher) (v : Value) :
    Consults s (s.consult m v).2 (s.consult m v).1 := by
  have heffect : (Access.consulted m.name (s.consult m v).1).Effect s.store
      (s.consult m v).2.store := ⟨m, v, rfl, rfl⟩
  refine ⟨(Move.unseen s (a := .consulted _ _) trivial trivial heffect).works, hset, ?_, ?_, ?_⟩
  · exact (Cache.questions_record ..).trans (List.append_nil _)
  · exact Cache.verdicts_record ..
  · exact (Cache.copies_record ..).trans (List.append_nil _)

/-! ## What a match finds is there -/

/-- A value that was read is there. -/
theorem Sound.holds_of_readings (hs : s.Sound) {r : Ref} {k : Key} {x : Value}
    (h : x ∈ s.cache.readings r k) : s.store.holds x = true := by
  obtain ⟨e, he, hx⟩ := List.mem_filterMap.1 h
  have hheld := hs.held e he
  cases ha : e.access with
  | read q j y =>
      rw [ha, Access.value?, Option.ite_none_right_eq_some] at hx
      rw [ha] at hheld
      exact Option.some.inj hx.2 ▸ hheld.2
  | _ => simp [ha, Access.value?] at hx

/-- What an iterator yielded is there. -/
theorem Sound.holds_of_stands (hs : s.Sound) {h : Handle} (hu : s.Usable h) {vs : List Value}
    {ended : Bool} (hm : (s.cache.memo h).Stands vs ended) :
    ∀ v ∈ vs, s.store.holds v = true := by
  intro v hv
  cases h with
  | cell i =>
      obtain ⟨ws, ended', hstands, hadvances⟩ := hs.faithful.advances i
      obtain ⟨rfl, rfl⟩ := hm.unique hstands
      have hmem : Step.yielded v ∈ (s.cache.advances i).map Prod.fst := by
        rw [hadvances, List.zipIdx_map_fst]
        exact List.mem_append_left _ (List.mem_map_of_mem hv)
      obtain ⟨⟨step, position⟩, hadvance, rfl⟩ := List.mem_map.1 hmem
      obtain ⟨e, he, hstep⟩ := List.mem_filterMap.1 hadvance
      have hheld := hs.held e he
      cases ha : e.access with
      | advanced j position' step' =>
          rw [ha, Access.step?, Option.ite_none_right_eq_some] at hstep
          rw [ha] at hheld
          cases hstep.2
          exact hheld.2 v rfl
      | _ => simp [ha, Access.step?] at hstep
  | text n =>
      obtain ⟨-, ws, ended', hstands, htells⟩ :=
        hs.faithful.texts n _ (Array.getElem?_eq_getElem hu)
      obtain ⟨rfl, rfl⟩ := hm.unique hstands
      cases v with
      | prim p => rfl
      | ref r => cases htells.plain _ hv

end State

end StructuralMatch
