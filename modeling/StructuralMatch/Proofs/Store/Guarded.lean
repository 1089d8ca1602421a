import StructuralMatch.Proofs.Store.Apart

/-! # What stays out of reach

    No operation on stores brings to light what is set aside, as long as it starts from
    what is apart; and nothing leads to it afterwards either.  The inductions follow the
    operations: over the script, the depth of a chain of iterators, the list of
    properties. -/

namespace StructuralMatch

open Store

variable {n : Nat} {hidden : Hidden} {σ : Store}

/-! ## Running scripts -/

section Scripts

variable {advance : Nat → Store → Step × Store} {close : Nat → Store → Bool × Store}

/-- A script gives what is apart if its advances do. -/
theorem Script.run_guarded {α : Type} {P : α → Prop}
    (hadvance : ∀ {i : Nat} {σ : Store}, ¬ hidden.refs (.iterator i) → σ.Guards n hidden →
      Guarded n hidden (Step.Apart hidden) (advance i σ))
    (hclose : ∀ (i : Nat) {σ : Store}, σ.Guards n hidden → (close i σ).2.Guards n hidden) :
    ∀ (script : Script α) {σ : Store}, script.Apart hidden P → σ.Guards n hidden →
      Guarded n hidden P (script.run advance close σ)
  | .give _, _, hscript, h => ⟨hscript, h⟩
  | .make b next, _, hscript, h =>
      (b.build_guarded hscript.1 h).bind (fun v σ => (next v).run advance close σ) fun v _ hv =>
        Script.run_guarded hadvance hclose (next v) (hscript.2 v hv)
  | .advance _ next, _, hscript, h =>
      (hadvance hscript.1 h).bind (fun step σ => (next step).run advance close σ)
        fun step _ hstep => Script.run_guarded hadvance hclose (next step) (hscript.2 step hstep)
  | .close i next, _, hscript, h =>
      Script.run_guarded hadvance hclose (next _) (hscript _) (hclose i h)
  | .note _ next, _, hscript, h =>
      Script.run_guarded hadvance hclose next hscript (h.retrace _)

/-- A source gives what is apart, and goes on doing so. -/
theorem Source.Apart.poll {source : Source} (hsource : source.Apart hidden)
    (hadvance : ∀ {i : Nat} {σ : Store}, ¬ hidden.refs (.iterator i) → σ.Guards n hidden →
      Guarded n hidden (Step.Apart hidden) (advance i σ))
    (hclose : ∀ (i : Nat) {σ : Store}, σ.Guards n hidden → (close i σ).2.Guards n hidden)
    (h : σ.Guards n hidden) :
    ∃ output rest τ, source.poll advance close σ = (output, rest, τ) ∧
      (∀ v ∈ output, v.Apart hidden) ∧ (output.isSome → rest.Apart hidden) ∧
        τ.Guards n hidden := by
  cases hsource with
  | @items outputs apart =>
      cases outputs with
      | nil => exact ⟨none, _, σ, rfl, by simp, by simp, h⟩
      | cons script outputs =>
          obtain ⟨hresult, hafter⟩ := script.run_guarded hadvance hclose
            (apart script (List.mem_cons_self ..)) h
          exact ⟨_, .items outputs, _, rfl, hresult,
            fun _ => .items fun s hs => apart s (List.mem_cons_of_mem _ hs), hafter⟩
  | range next stop =>
      by_cases hlt : next < stop
      · refine ⟨some (.number (.ofInt next)), .range (next + 1) stop, σ, ?_, ?_,
          fun _ => .range _ _, h⟩
        · rw [Source.poll, if_pos hlt]
        · rintro v ⟨⟩
          trivial
      · refine ⟨none, .range next stop, σ, ?_, by simp, by simp, h⟩
        rw [Source.poll, if_neg hlt]
  | @inner i apart =>
      obtain ⟨hstep, hafter⟩ := hadvance apart h
      exact ⟨_, .inner i, _, rfl, hstep, fun _ => .inner apart, hafter⟩
  | @lists _ xs lists apart =>
      obtain ⟨rest, trace, hpoll, hrest⟩ := lists.poll advance close σ
      refine ⟨_, rest, _, hpoll, ?_, ?_, h.retrace trace⟩
      · exact fun v hv => apart v (List.mem_of_mem_head? hv)
      · intro hsome
        have hne := List.isSome_head?.1 hsome
        exact .lists (hrest hne) fun v hv => apart v (List.mem_of_mem_tail hv)

end Scripts

/-- An iterator that is spent gives nothing. -/
theorem Iterator.apart_spent {it : Iterator} (spent : it.source = none) : it.Apart hidden := by
  intro source live
  cases spent.symm.trans live

/-- After an output an iterator goes on giving what is apart. -/
theorem Iterator.Apart.after (it : Iterator) (output : Option Value) {rest : Source}
    (hrest : output.isSome → rest.Apart hidden) : (it.after output rest).Apart hidden := by
  cases output with
  | none => exact apart_spent rfl
  | some x =>
      rintro source ⟨⟩
      exact hrest rfl

namespace Store

variable {α : Type}

/-! ## Iterating -/

/-- An iterator that gives what is apart is put in place, also of the one that is followed. -/
theorem Guards.setIterator (h : σ.Guards n hidden) (i : Nat) {it : Iterator}
    (hit : it.Apart hidden) : (σ.setIterator i it).Guards n hidden :=
  { h with
    iterators := forall_set h.iterators fun _ => hit
    followed := fun hj => forall_set (Q := fun j jt => j = n → Iterator.Apart hidden jt)
      (fun hj he => h.followed (he ▸ hj)) (fun _ => hit) hj rfl
    within := by
      refine ⟨fun {r} hr => ?_, h.within.getters, h.within.factories⟩
      have hheld := h.within.refs hr
      cases r with
      | iterator j => simpa [holds, Store.setIterator] using hheld
      | _ => exact hheld }

/-- Closing drops a source, and leads nowhere. -/
theorem close_guards (i : Nat) (h : σ.Guards n hidden) : (σ.close i).2.Guards n hidden := by
  rw [close]
  split
  · exact h
  · split
    · exact h
    · rename_i it here isOpen
      have hdropped : Iterator.Apart hidden { it with source := none, closed := true } :=
        Iterator.apart_spent rfl
      exact (h.setIterator i hdropped).retrace _

/-- Whether it is below the limit or not. -/
theorem closeBelow_guards (limit i : Nat) (h : σ.Guards n hidden) :
    (closeBelow limit i σ).2.Guards n hidden := by
  rw [closeBelow]
  split
  · exact close_guards i h
  · exact h

/-- Whether an iterator gives what is apart: it is the one that is followed, or not set
    aside. -/
def Followed (n : Nat) (hidden : Hidden) (i : Nat) : Prop := i = n ∨ ¬ hidden.refs (.iterator i)

/-- An iterator that may be followed gives what is apart. -/
theorem Guards.iterator_apart (h : σ.Guards n hidden) {i : Nat} (hi : Followed n hidden i)
    {it : Iterator} (here : σ.iterators[i]? = some it) : it.Apart hidden := by
  rcases hi with rfl | hi
  · exact h.followed here
  · exact h.iterators here hi

/-- However long the chain of iterators, the step is apart. -/
theorem nextWithin_guarded (depth : Nat) : ∀ {i : Nat} {σ : Store}, Followed n hidden i →
    σ.Guards n hidden → Guarded n hidden (Step.Apart hidden) (σ.nextWithin depth i) := by
  induction depth with
  | zero => exact fun _ h => h.done
  | succ depth ih =>
      intro i σ hi h
      rw [nextWithin]
      split
      · exact h.done
      · rename_i it here
        have hit := h.iterator_apart hi here
        split
        · exact h.done
        · rename_i source live
          -- the source may only advance iterators below this one that are in reach
          have hbelow : ∀ {j : Nat} {σ : Store}, ¬ hidden.refs (.iterator j) → σ.Guards n hidden →
              Guarded n hidden (Step.Apart hidden)
                (if j < i then σ.nextWithin depth j else (.done, σ)) := by
            intro j σ hj h
            split
            · exact ih (.inr hj) h
            · exact h.done
          obtain ⟨output, rest, τ, hpoll, houtput, hrest, hafter⟩ :=
            (hit source live).poll hbelow (fun j _ => closeBelow_guards i j) h
          dsimp only
          rw [hpoll]
          refine ⟨?_, (hafter.setIterator i (.after it _ fun hsome => hrest ?_)).retrace _⟩
          · intro v hv
            simp only [Step.value?_ofOption] at hv
            obtain ⟨w, hw, rfl⟩ := Option.map_eq_some_iff.1 hv
            exact vet_apart (houtput w hw) τ
          · exact Option.isSome_map ▸ hsome

/-- Advancing an iterator that gives what is apart. -/
theorem next_guarded {i : Nat} (hi : Followed n hidden i) (h : σ.Guards n hidden) :
    Guarded n hidden (Step.Apart hidden) (σ.next i) := nextWithin_guarded (i + 1) hi h

/-- User code that is apart gives what is apart. -/
theorem runScript_guarded {P : α → Prop} {script : Script α} (hscript : script.Apart hidden P)
    (h : σ.Guards n hidden) : Guarded n hidden P (σ.runScript script) :=
  script.run_guarded (fun hi => next_guarded (.inr hi)) (fun i _ => close_guards i) hscript h

/-- The iterator that is handed out is in reach. -/
theorem supply_guarded {handed : Supply} (hhanded : handed.Apart hidden)
    (h : σ.Guards n hidden) :
    Guarded n hidden (fun i => ¬ hidden.refs (.iterator i)) (σ.supply handed) := by
  cases handed with
  | fresh plan => exact plan.build_guarded hhanded h
  | existing i =>
      rw [supply]
      split
      · exact ⟨hhanded, h⟩
      · exact newIterator_guarded (Iterator.apart_spent rfl) ⟨rfl, rfl⟩ h

/-- A factory that is not set aside hands out an iterator in reach. -/
theorem runFactory_guarded (iterable : Ref) {k : Nat} (hk : ¬ hidden.factories k)
    (h : σ.Guards n hidden) :
    Guarded n hidden (fun i => ∀ j ∈ i, ¬ hidden.refs (.iterator j)) (σ.runFactory iterable k) := by
  rw [runFactory]
  split
  · exact h.nothing
  · rename_i f here
    have hf := h.factories here hk
    -- one run more does not change what the factory gives
    have hstarted : Factory.Apart hidden { f with runs := f.runs + 1 } := hf
    have hstart : (σ.startFactory k f iterable).Guards n hidden :=
      { h with
        factories := forall_set h.factories fun _ => hstarted
        within := h.within.keeps
          (Change.startFactory (P := fun _ => True) σ k f iterable trivial).keeps }
    exact (runScript_guarded (hf f.runs) hstart).bind
      (fun handed σ => (some (σ.supply handed).1, (σ.supply handed).2)) fun handed _ hhanded h =>
        (supply_guarded hhanded h).map some fun _ hi _ hj => Option.some.inj hj ▸ hi

/-! ## Looking -/

/-- An object that is not set aside. -/
theorem Guards.object_apart (h : σ.Guards n hidden) {o : Nat} (ho : ¬ hidden.refs (.object o)) :
    (σ.object o).Apart hidden := by
  rw [object, Array.getD_eq_getD_getElem?]
  cases hget : σ.objects[o]? with
  | none => exact Object.apart_empty hidden
  | some object => exact h.objects hget ho

/-- The properties of what is apart, be it an object or a function. -/
theorem Guards.objectOf?_apart (h : σ.Guards n hidden) {v : Value} (hv : v.Apart hidden)
    {o : Object} (ho : σ.objectOf? v = some o) : o.Apart hidden := by
  rcases v with _ | _ | _ | _ | _
  case ref.object c => exact h.objects ho hv
  case ref.function f =>
    obtain ⟨function, hf, rfl⟩ := Option.map_eq_some_iff.1 ho
    exact (h.functions hf hv).object
  all_goals cases ho

/-- A prototype chain that starts apart stays so. -/
theorem Guards.chainWithin_apart (h : σ.Guards n hidden) (depth : Nat) : ∀ {o : Object},
    o.Apart hidden → ∀ p ∈ σ.chainWithin depth o, p.Apart hidden := by
  induction depth with
  | zero =>
      intro o ho p hp
      exact List.mem_singleton.1 hp ▸ ho
  | succ depth ih =>
      intro o ho p hp
      rw [chainWithin] at hp
      split at hp
      · exact List.mem_singleton.1 hp ▸ ho
      · rename_i next hnext
        obtain ⟨q, hq, hget⟩ := Option.bind_eq_some_iff.1 hnext
        rcases List.mem_cons.1 hp with rfl | hp
        · exact ho
        · exact ih (h.objects hget (ho.proto q hq)) p hp

/-- Found on whichever prototype, a property is apart. -/
theorem Guards.findProperty_apart (h : σ.Guards n hidden) {o : Object} (ho : o.Apart hidden)
    {k : Key} {p : Property} (hp : σ.findProperty o k = some p) : p.Apart hidden := by
  obtain ⟨q, hq, hown⟩ := List.exists_of_findSome?_eq_some hp
  exact (h.chainWithin_apart _ ho q hq).properties _ (Assoc.mem_of_get?_eq_some hown)

/-! ## Opening iterators -/

/-- An iterator that is made for something gives what is apart. -/
theorem iterate_guarded {v : Value} (hv : v.Apart hidden) (h : σ.Guards n hidden) :
    Guarded n hidden (fun i => ∀ j ∈ i, ¬ hidden.refs (.iterator j)) (σ.iterate v) := by
  have hsome : ∀ i, ¬ hidden.refs (.iterator i) → ∀ j ∈ some i, ¬ hidden.refs (.iterator j) :=
    fun i hi j hj => Option.some.inj hj ▸ hi
  rw [iterate.eq_def]
  split
  · exact ⟨hsome _ hv, h⟩
  · exact (newIterator_guarded (h.overArray_apart hv) ⟨rfl, rfl⟩ (h.retrace _)).map some hsome
  · rename_i s
    -- letters are texts
    have hletters : (Iterator.overText s).Apart hidden := by
      rintro source ⟨⟩
      refine .lists (Source.lists_ofValues _) fun x hx => ?_
      obtain ⟨c, -, rfl⟩ := List.mem_map.1 hx
      trivial
    exact (newIterator_guarded hletters ⟨rfl, rfl⟩ h).map some hsome
  · rename_i o
    split
    · rename_i f hfactory
      exact runFactory_guarded _ ((h.object_apart hv).factory f hfactory) h
    · exact h.nothing
  · exact h.nothing

/-! ## Reading properties -/

/-- A getter that is not set aside gives what is apart. -/
theorem runGetter_guarded {g : Nat} (hg : ¬ hidden.getters g) (h : σ.Guards n hidden) :
    Guarded n hidden (Value.Apart hidden) (σ.runGetter g) := by
  rw [runGetter]
  split
  · exact ⟨trivial, h⟩
  · rename_i getter here
    have hgetter := h.getters here hg
    -- one run more does not change what the getter gives
    have hstarted : Getter.Apart hidden { getter with runs := getter.runs + 1 } := hgetter
    have hstart : (σ.startGetter g getter).Guards n hidden :=
      { h with
        getters := forall_set h.getters fun _ => hstarted
        within := h.within.keeps
          (Change.startGetter (P := fun _ => True) σ g getter trivial).keeps }
    exact (runScript_guarded (hgetter getter.runs) hstart).bind (fun v σ => (σ.vet v, σ))
      fun v σ hv h => ⟨vet_apart hv σ, h⟩

/-- A property that is apart reads as something that is. -/
theorem readProperty_guarded {p : Property} (hp : p.Apart hidden) (h : σ.Guards n hidden) :
    Guarded n hidden (Value.Apart hidden) (σ.readProperty p) := by
  obtain ⟨slot, enumerable⟩ := p
  cases slot with
  | data v => exact ⟨hp, h⟩
  | accessor g => exact runGetter_guarded hp h

/-- A property of something that is apart is so itself. -/
theorem get_guarded {v : Value} (hv : v.Apart hidden) (k : Key) (h : σ.Guards n hidden) :
    Guarded n hidden (Value.Apart hidden) (σ.get v k) := by
  rw [get.eq_def]
  split
  · rename_i a
    split
    · exact ⟨trivial, h⟩
    · refine ⟨?_, h⟩
      show Value.Apart hidden ((element? (σ.items a) k).getD .undefined)
      cases hfound : element? (σ.items a) k with
      | none => trivial
      | some x =>
          obtain ⟨i, -, hx⟩ := Option.bind_eq_some_iff.1 hfound
          exact h.items_apart hv x (List.mem_of_getElem? hx)
  · split
    · rename_i p hfound
      obtain ⟨o, hobject, hproperty⟩ := Option.bind_eq_some_iff.1 hfound
      exact readProperty_guarded (h.findProperty_apart (h.objectOf?_apart hv hobject) hproperty) h
    · exact ⟨trivial, h⟩

theorem readAll_guarded : ∀ (ps : List (Key × Property)) {σ : Store},
    (∀ q ∈ ps, q.2.Apart hidden) → σ.Guards n hidden →
      Guarded n hidden (fun xs => ∀ x ∈ xs, x.2.Apart hidden) (readAll ps σ)
  | [], _, _, h => ⟨List.forall_mem_nil _, h⟩
  | (k, _) :: ps, _, hps, h =>
      (readProperty_guarded (hps _ (List.mem_cons_self ..)) h).bind
        (fun v σ => ((k, v) :: (readAll ps σ).1, (readAll ps σ).2)) fun v _ hv h =>
          (readAll_guarded ps (fun q hq => hps q (List.mem_cons_of_mem _ hq)) h).map ((k, v) :: ·)
            fun _ hxs => List.forall_mem_cons.2 ⟨hv, hxs⟩

/-- What is listed of something that is apart is so itself. -/
theorem entries_guarded {v : Value} (hv : v.Apart hidden) (h : σ.Guards n hidden) :
    Guarded n hidden (fun xs => ∀ x ∈ xs, x.2.Apart hidden) (σ.entries v) := by
  rw [entries.eq_def]
  split
  · refine ⟨fun x hx => ?_, h⟩
    obtain ⟨⟨y, i⟩, hy, rfl⟩ := List.mem_map.1 hx
    exact h.items_apart hv y (List.fst_mem_of_mem_zipIdx hy)
  · split
    · rename_i o hobject
      have ho := h.objectOf?_apart hv hobject
      exact readAll_guarded _ (fun q hq => ho.properties q (List.mem_filter.1 hq).1) h
    · exact ⟨List.forall_mem_nil _, h⟩

/-- What is left of something that is apart is so itself. -/
theorem without_guarded {v : Value} (hv : v.Apart hidden) (excluded : List Key)
    (h : σ.Guards n hidden) : Guarded n hidden (Value.Apart hidden) (σ.without v excluded) := by
  have hentries := entries_guarded hv h
  refine newObject_guarded (Object.apart_ofFields (fun e he => ?_) _) hentries.guards
  exact hentries.result e (List.mem_filter.1 he).1

end Store

end StructuralMatch
