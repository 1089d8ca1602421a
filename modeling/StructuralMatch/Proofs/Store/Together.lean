import StructuralMatch.Proofs.Store.Alike

/-! # Operations on alike stores

    Every operation gives the same in alike stores and leaves them alike.  The
    inductions follow the operations: over the blueprint, the script, the depth of a
    chain of iterators, the list of properties. -/

namespace StructuralMatch

open Store

variable {n : Nat} {σ τ : Store}

/-! ## Building -/

mutual

/-- Building makes the same in alike stores. -/
theorem Blueprint.build_together : ∀ (b : Blueprint) {σ τ : Store}, Alike n σ τ →
    Together n (b.build σ) (b.build τ)
  | .existing _, _, _, h => ⟨rfl, h⟩
  | .array items, _, _, h =>
      (Blueprint.buildAll_together items h).bind (fun vs σ => σ.newArray vs) fun vs _ _ =>
        newArray_together vs
  | .object shape, _, _, h =>
      (shape.build_together h).bind (fun o σ => σ.newObject o) fun o _ _ => newObject_together o
  | .function name shape body label, _, _, h =>
      (shape.build_together h).bind
        (fun o σ =>
          let (body, σ) := body.build σ
          σ.newFunction ⟨name, o.forFunction name, body, label⟩) fun o _ _ h =>
        (body.build_together h).bind
          (fun body σ => σ.newFunction ⟨name, o.forFunction name, body, label⟩) fun _ _ _ =>
            newFunction_together _
  | .iterator plan, _, _, h => (plan.build_together h).map fun i => Value.ref (.iterator i)

/-- The prototype is built first, then the properties, and the factory last. -/
theorem Shape.build_together : ∀ (shape : Shape) {σ τ : Store}, Alike n σ τ →
    Together n (shape.build σ) (shape.build τ)
  | .mk className proto properties factory, _, _, h =>
      (Blueprint.buildOption_together proto h).bind
        (fun p σ =>
          let (ps, σ) := PropertyPlan.buildAll properties σ
          let (factory, σ) := σ.newFactory? factory
          (Object.addAll { className, proto := p.bind Value.object?, factory } ps, σ))
        fun p _ _ h =>
        (PropertyPlan.buildAll_together properties h).bind
          (fun ps σ =>
            let (factory, σ) := σ.newFactory? factory
            (Object.addAll { className, proto := p.bind Value.object?, factory } ps, σ))
          fun ps _ _ h =>
          (newFactory?_together factory h).map fun factory =>
            Object.addAll { className, proto := p.bind Value.object?, factory } ps

/-- A property has the same value or the same new getter. -/
theorem PropertyPlan.build_together : ∀ (p : PropertyPlan) {σ τ : Store}, Alike n σ τ →
    Together n (p.build σ) (p.build τ)
  | .field b, _, _, h => (b.build_together h).map Property.field
  | .hidden b, _, _, h => (b.build_together h).map Property.hidden
  | .getter label body, _, _, h =>
      (body.build_together h).bind
        (fun body σ =>
          let (g, σ) := σ.newGetter ⟨label, body, 0⟩
          (Property.getter g, σ)) fun _ _ _ h =>
        (newGetter_together _ h).map Property.getter

/-- A getter has the same body, also one that advances an iterator. -/
theorem GetterPlan.build_together : ∀ (p : GetterPlan) {σ τ : Store}, Alike n σ τ →
    Together n (p.build σ) (p.build τ)
  | .values bs, _, _, h => (Blueprint.buildAll_together bs h).map Script.ofValues
  | .fresh _, _, _, h => ⟨rfl, h⟩
  | .advance b, σ, τ, h => by
      obtain ⟨hv, hbuilt⟩ := b.build_together h
      rw [GetterPlan.build, GetterPlan.build]
      generalize b.build σ = built at hv hbuilt ⊢
      generalize b.build τ = built' at hv hbuilt ⊢
      obtain ⟨v, σ₁⟩ := built
      obtain ⟨v', τ₁⟩ := built'
      dsimp only at hv hbuilt ⊢
      -- both were built from the same value
      subst hv
      cases v'.iterator? with
      | none => exact ⟨rfl, hbuilt⟩
      | some i => exact ⟨rfl, hbuilt⟩

theorem BodyPlan.build_together : ∀ (p : BodyPlan) {σ τ : Store}, Alike n σ τ →
    Together n (p.build σ) (p.build τ)
  | .sum, _, _, h => ⟨rfl, h⟩
  | .arguments, _, _, h => ⟨rfl, h⟩
  | .constant b, _, _, h => (b.build_together h).map fun v _ => Blueprint.existing v

theorem IteratorPlan.build_together : ∀ (p : IteratorPlan) {σ τ : Store}, Alike n σ τ →
    Together n (p.build σ) (p.build τ)
  | .mk kind source label, _, _, h =>
      (source.build_together h).bind
        (fun source σ => σ.newIterator ⟨kind, some source, label, 0, false⟩) fun _ _ _ =>
          newIterator_together _

/-- A source gives the same, also one that reads an iterator or an array. -/
theorem SourcePlan.build_together : ∀ (p : SourcePlan) {σ τ : Store}, Alike n σ τ →
    Together n (p.build σ) (p.build τ)
  | .items bs, _, _, h =>
      (Blueprint.buildOptions_together bs h).map fun vs => Source.items (vs.map .give)
  | .range _ _, _, _, h => ⟨rfl, h⟩
  | .elements b, σ, τ, h => by
      obtain ⟨hv, hbuilt⟩ := b.build_together h
      rw [SourcePlan.build, SourcePlan.build]
      generalize b.build σ = built at hv hbuilt ⊢
      generalize b.build τ = built' at hv hbuilt ⊢
      obtain ⟨v, σ₁⟩ := built
      obtain ⟨v', τ₁⟩ := built'
      dsimp only at hv hbuilt ⊢
      -- both were built from the same value
      subst hv
      split
      · exact ⟨rfl, hbuilt⟩
      · rw [hbuilt.items_eq]
        exact (newIterator_together _ hbuilt).map Source.inner
      · exact ⟨rfl, hbuilt⟩

/-- Built one after another, all are the same. -/
theorem Blueprint.buildAll_together : ∀ (bs : List Blueprint) {σ τ : Store}, Alike n σ τ →
    Together n (Blueprint.buildAll bs σ) (Blueprint.buildAll bs τ)
  | [], _, _, h => ⟨rfl, h⟩
  | b :: bs, _, _, h =>
      (b.build_together h).bind
        (fun v σ =>
          let (vs, σ) := Blueprint.buildAll bs σ
          (v :: vs, σ)) fun v _ _ h =>
        (Blueprint.buildAll_together bs h).map (v :: ·)

theorem Blueprint.buildOption_together : ∀ (b : Option Blueprint) {σ τ : Store}, Alike n σ τ →
    Together n (Blueprint.buildOption b σ) (Blueprint.buildOption b τ)
  | none, _, _, h => ⟨rfl, h⟩
  | some b, _, _, h => (b.build_together h).map some

theorem Blueprint.buildOptions_together : ∀ (bs : List (Option Blueprint)) {σ τ : Store},
    Alike n σ τ → Together n (Blueprint.buildOptions bs σ) (Blueprint.buildOptions bs τ)
  | [], _, _, h => ⟨rfl, h⟩
  | b :: bs, _, _, h =>
      (Blueprint.buildOption_together b h).bind
        (fun v σ =>
          let (vs, σ) := Blueprint.buildOptions bs σ
          (v :: vs, σ)) fun v _ _ h =>
        (Blueprint.buildOptions_together bs h).map (v :: ·)

theorem PropertyPlan.buildAll_together : ∀ (ps : List (Key × PropertyPlan)) {σ τ : Store},
    Alike n σ τ → Together n (PropertyPlan.buildAll ps σ) (PropertyPlan.buildAll ps τ)
  | [], _, _, h => ⟨rfl, h⟩
  | (k, p) :: ps, _, _, h =>
      (p.build_together h).bind
        (fun p σ =>
          let (ps, σ) := PropertyPlan.buildAll ps σ
          ((k, p) :: ps, σ)) fun p _ _ h =>
        (PropertyPlan.buildAll_together ps h).map ((k, p) :: ·)

end

/-! ## Running scripts -/

section Scripts

variable {advance : Nat → Store → Step × Store} {close : Nat → Store → Bool × Store}

/-- A script does the same if its advances and closes do. -/
theorem Script.run_together {α : Type}
    (hadvance : ∀ i {σ τ : Store}, Alike n σ τ → Together n (advance i σ) (advance i τ))
    (hclose : ∀ i {σ τ : Store}, Alike n σ τ → Together n (close i σ) (close i τ)) :
    ∀ (script : Script α) {σ τ : Store}, Alike n σ τ →
      Together n (script.run advance close σ) (script.run advance close τ)
  | .give _, _, _, h => ⟨rfl, h⟩
  | .make b next, _, _, h =>
      (b.build_together h).bind (fun v σ => (next v).run advance close σ) fun v _ _ =>
        Script.run_together hadvance hclose (next v)
  | .advance i next, _, _, h =>
      (hadvance i h).bind (fun step σ => (next step).run advance close σ) fun step _ _ =>
        Script.run_together hadvance hclose (next step)
  | .close i next, _, _, h =>
      (hclose i h).bind (fun closed σ => (next closed).run advance close σ) fun closed _ _ =>
        Script.run_together hadvance hclose (next closed)
  | .note _ next, _, _, h => Script.run_together hadvance hclose next (h.record _ _)

/-- Sources that give the same give the same output, and go on giving the same. -/
theorem Source.Like.poll {source source' : Source} (h : source.Like source')
    (hadvance : ∀ i {σ τ : Store}, Alike n σ τ → Together n (advance i σ) (advance i τ))
    (hclose : ∀ i {σ τ : Store}, Alike n σ τ → Together n (close i σ) (close i τ))
    (hστ : Alike n σ τ) :
    ∃ output rest rest' σ₁ τ₁, source.poll advance close σ = (output, rest, σ₁) ∧
      source'.poll advance close τ = (output, rest', τ₁) ∧ (output.isSome → rest.Like rest') ∧
        Alike n σ₁ τ₁ := by
  cases h with
  | same =>
      cases source with
      | items outputs =>
          cases outputs with
          | nil => exact ⟨none, _, _, σ, τ, rfl, rfl, fun _ => .same _, hστ⟩
          | cons script outputs =>
              obtain ⟨hresult, hafter⟩ := script.run_together hadvance hclose hστ
              refine ⟨_, .items outputs, .items outputs, _, _, rfl, ?_, fun _ => .same _, hafter⟩
              rw [← hresult]
              rfl
      | range next stop =>
          by_cases hlt : next < stop
          · refine ⟨some (.number (.ofInt next)), .range (next + 1) stop, .range (next + 1) stop, σ,
              τ, ?_, ?_, fun _ => .same _, hστ⟩
            · rw [Source.poll, if_pos hlt]
            · rw [Source.poll, if_pos hlt]
          · refine ⟨none, .range next stop, .range next stop, σ, τ, ?_, ?_, fun _ => .same _, hστ⟩
            · rw [Source.poll, if_neg hlt]
            · rw [Source.poll, if_neg hlt]
      | inner i =>
          obtain ⟨hresult, hafter⟩ := hadvance i hστ
          refine ⟨_, .inner i, .inner i, _, _, rfl, ?_, fun _ => .same _, hafter⟩
          rw [← hresult]
          rfl
  | lists here there =>
      -- sources that list values may differ in everything else
      obtain ⟨rest, trace, hpoll, hrest⟩ := here.poll advance close σ
      obtain ⟨rest', trace', hpoll', hrest'⟩ := there.poll advance close τ
      refine ⟨_, rest, rest', _, _, hpoll, hpoll', fun hsome => ?_, hστ.retrace trace trace'⟩
      have hne := List.isSome_head?.1 hsome
      exact .lists (hrest hne) (hrest' hne)

end Scripts

/-- Iterators that give the same go on giving the same after one output of their sources. -/
theorem Iterator.Like.after {hidden : Prop} {it it' : Iterator}
    (h : it.Like hidden it') (output : Option Value) {rest rest' : Source}
    (hrest : output.isSome → rest.Like rest') :
    (it.after output rest).Like hidden (it'.after output rest') := by
  cases output with
  | none => exact ⟨.none, h.closed, h.kind⟩
  | some x => exact ⟨.some (hrest rfl), h.closed, h.kind⟩

namespace Store

variable {α : Type}

/-! ## Iterating -/

/-- Closing tells the same and drops the source in both. -/
theorem close_together (i : Nat) (h : Alike n σ τ) : Together n (σ.close i) (τ.close i) := by
  rw [close, close]
  rcases h.iterators.cases i with ⟨hσ, hτ⟩ | ⟨it, it', hσ, hτ, hlike⟩
  · rw [hσ, hτ]
    exact ⟨rfl, h⟩
  · rw [hσ, hτ]
    dsimp only
    rw [hlike.closed]
    split
    · exact ⟨rfl, h⟩
    · -- closed iterators have no source to differ in
      have hdropped : Iterator.Like (i = n) { it with source := none, closed := true }
          { it' with source := none, closed := true } := ⟨.none, rfl, hlike.kind⟩
      exact ⟨rfl, (h.setIterator i hdropped).record _ _⟩

/-- The limit does not depend on the store. -/
theorem closeBelow_together (limit i : Nat) (h : Alike n σ τ) :
    Together n (closeBelow limit i σ) (closeBelow limit i τ) := by
  rw [closeBelow, closeBelow]
  split
  · exact close_together i h
  · exact ⟨rfl, h⟩

/-- Advancing gives the same step at every depth of a chain of iterators. -/
theorem nextWithin_together (depth : Nat) : ∀ (i : Nat) {σ τ : Store}, Alike n σ τ →
    Together n (σ.nextWithin depth i) (τ.nextWithin depth i) := by
  induction depth with
  | zero => exact fun _ _ _ h => ⟨rfl, h⟩
  | succ depth ih =>
      intro i σ τ h
      rw [nextWithin, nextWithin]
      rcases h.iterators.cases i with ⟨hσ, hτ⟩ | ⟨it, it', hσ, hτ, hlike⟩
      · rw [hσ, hτ]
        exact ⟨rfl, h⟩
      · rw [hσ, hτ]
        dsimp only
        have hsource := hlike.source
        generalize it.source = source at hsource ⊢
        generalize it'.source = source' at hsource ⊢
        cases hsource with
        | none => exact ⟨rfl, h⟩
        | @some source source' hsource =>
            -- both are live, and their sources may only advance iterators made before this one
            have hbelow : ∀ j {σ τ : Store}, Alike n σ τ → Together n
                (if j < i then σ.nextWithin depth j else (.done, σ))
                (if j < i then τ.nextWithin depth j else (.done, τ)) := by
              intro j σ τ h
              split
              · exact ih j h
              · exact ⟨rfl, h⟩
            obtain ⟨output, rest, rest', σ₁, τ₁, hpoll, hpoll', hrest, hafter⟩ :=
              hsource.poll hbelow (fun j _ _ => closeBelow_together i j) h
            dsimp only
            rw [hpoll, hpoll']
            dsimp only
            rw [hafter.vet_eq]
            -- both go on with what is left of their sources, or are spent
            have hgoes := hlike.after (output.map σ₁.vet) (Option.isSome_map ▸ hrest)
            exact ⟨rfl, (hafter.setIterator i hgoes).record _ _⟩

/-- Advancing an iterator gives the same step. -/
theorem next_together (i : Nat) (h : Alike n σ τ) : Together n (σ.next i) (τ.next i) :=
  nextWithin_together (i + 1) i h

/-- User code does the same when it is run in full. -/
theorem runScript_together (script : Script α) (h : Alike n σ τ) :
    Together n (σ.runScript script) (τ.runScript script) :=
  script.run_together (fun i _ _ => next_together i) (fun i _ _ => close_together i) h

/-- The iterator that is handed out is the same. -/
theorem supply_together (handed : Supply) (h : Alike n σ τ) :
    Together n (σ.supply handed) (τ.supply handed) := by
  cases handed with
  | fresh plan => exact plan.build_together h
  | existing i =>
      rw [supply, supply, h.iterators.size]
      split
      · exact ⟨rfl, h⟩
      · exact newIterator_together _ h

/-- A factory hands out the same, even if it has run more often in one store. -/
theorem runFactory_together (iterable : Ref) (k : Nat) (h : Alike n σ τ) :
    Together n (σ.runFactory iterable k) (τ.runFactory iterable k) := by
  rw [runFactory, runFactory]
  rcases h.factories.cases k with ⟨hσ, hτ⟩ | ⟨f, f', hσ, hτ, hlike⟩
  · rw [hσ, hτ]
    exact ⟨rfl, h⟩
  · rw [hσ, hτ]
    -- one run more in both
    have hstart : Alike n (σ.startFactory k f iterable) (τ.startFactory k f' iterable) := by
      refine ⟨h.arrays, h.objects, h.functions, h.getters, h.iterators, h.factories.set ?_⟩
      exact ⟨hlike.body, hlike.runs.imp (congrArg (· + 1)) id⟩
    have hhanded : Together n ((σ.startFactory k f iterable).runScript (f.body f.runs))
        ((τ.startFactory k f' iterable).runScript (f'.body f'.runs)) := by
      rw [hlike.body]
      -- either it is the same run, or the run does not matter
      rcases hlike.runs with hruns | ⟨handed, hsteady⟩
      · rw [hruns]
        exact runScript_together _ hstart
      · obtain ⟨trace, hrun⟩ := (hsteady f.runs).run (fun i σ => σ.next i)
          (fun i σ => σ.close i) (σ.startFactory k f iterable)
        obtain ⟨trace', hrun'⟩ := (hsteady f'.runs).run (fun i σ => σ.next i)
          (fun i σ => σ.close i) (τ.startFactory k f' iterable)
        rw [runScript, runScript, hrun, hrun']
        exact ⟨rfl, hstart.retrace trace trace'⟩
    exact hhanded.bind (fun handed σ => (some (σ.supply handed).1, (σ.supply handed).2))
      fun handed _ _ h => (supply_together handed h).map some

/-- An iterator over a value is made in the same way. -/
theorem iterate_together (v : Value) (h : Alike n σ τ) :
    Together n (σ.iterate v) (τ.iterate v) := by
  cases v with
  | prim p =>
      cases p with
      | text s => exact (newIterator_together _ h).map some
      | _ => exact ⟨rfl, h⟩
  | ref r =>
      cases r with
      | array a =>
          -- an array opens with its elements
          rw [iterate, iterate, h.items_eq]
          exact (newIterator_together _ (h.record _ _)).map some
      | object o =>
          rw [iterate, iterate, h.object_eq]
          cases (σ.object o).factory with
          | none => exact ⟨rfl, h⟩
          | some f => exact runFactory_together _ f h
      | function f => exact ⟨rfl, h⟩
      | iterator i => exact ⟨rfl, h⟩

/-! ## Reading properties -/

/-- A getter has run equally often in both, and gives the same. -/
theorem runGetter_together (g : Nat) (h : Alike n σ τ) :
    Together n (σ.runGetter g) (τ.runGetter g) := by
  rw [runGetter, runGetter, h.getters]
  cases σ.getters[g]? with
  | none => exact ⟨rfl, h⟩
  | some getter =>
      have hstart : Alike n (σ.startGetter g getter) (τ.startGetter g getter) := by
        refine ⟨h.arrays, h.objects, h.functions, ?_, h.iterators, h.factories⟩
        show τ.getters.setIfInBounds g _ = σ.getters.setIfInBounds g _
        rw [h.getters]
      exact (runScript_together _ hstart).bind (fun v σ => (σ.vet v, σ)) fun v _ _ h =>
        ⟨congrFun h.vet_eq v, h⟩

/-- Reading runs the same getter, or none. -/
theorem readProperty_together (p : Property) (h : Alike n σ τ) :
    Together n (σ.readProperty p) (τ.readProperty p) := by
  rw [readProperty, readProperty]
  cases p.slot with
  | data v => exact ⟨rfl, h⟩
  | accessor g => exact runGetter_together g h

/-- A property reads as the same. -/
theorem get_together (v : Value) (k : Key) (h : Alike n σ τ) :
    Together n (σ.get v k) (τ.get v k) := by
  simp only [get, h.items_eq, h.objectOf?_eq, h.findProperty_eq]
  split
  · split
    · exact ⟨rfl, h⟩
    · exact ⟨rfl, h⟩
  · split
    · exact readProperty_together _ h
    · exact ⟨rfl, h⟩

theorem readAll_together : ∀ (ps : List (Key × Property)) {σ τ : Store}, Alike n σ τ →
    Together n (readAll ps σ) (readAll ps τ)
  | [], _, _, h => ⟨rfl, h⟩
  | (k, p) :: ps, _, _, h =>
      (readProperty_together p h).bind
        (fun v σ => ((k, v) :: (readAll ps σ).1, (readAll ps σ).2)) fun v _ _ h =>
          (readAll_together ps h).map ((k, v) :: ·)

/-- The entries that are listed are the same. -/
theorem entries_together (v : Value) (h : Alike n σ τ) :
    Together n (σ.entries v) (τ.entries v) := by
  simp only [entries, h.items_eq, h.objectOf?_eq]
  split
  · exact ⟨rfl, h⟩
  · split
    · exact readAll_together _ h
    · exact ⟨rfl, h⟩

/-- The properties that are left are copied into the same object. -/
theorem without_together (v : Value) (excluded : List Key) (h : Alike n σ τ) :
    Together n (σ.without v excluded) (τ.without v excluded) := by
  have hentries := entries_together v h
  -- the same entries are kept, so the proofs that their keys differ are of one statement
  have hkept : ((τ.entries v).1.filter fun e => !excluded.contains e.1) =
      (σ.entries v).1.filter fun e => !excluded.contains e.1 := by rw [hentries.result]
  rw [without, without,
    Object.ofFields_congr hkept _ (Assoc.nodup_keys_filter (σ.nodup_entries v) _)]
  exact newObject_together _ hentries.alike

end Store

end StructuralMatch
