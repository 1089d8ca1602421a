import StructuralMatch.Proofs.Insertion
import StructuralMatch.Proofs.Store.Supply

/-! # What is out of reach

    Some cells are set aside, and nothing else leads to them: no other cell names one, and
    no user code comes up with one that it was not given (`Store.Apart`).  Then no operation
    brings one of them to light, and they stay out of reach (`Store.Guards`).

    What user code gives depends on what it is given, so a script is apart if its
    continuations are, for values that are apart (`Script.Apart`). -/

namespace StructuralMatch

/-- Cells that are set aside. -/
structure Hidden where
  refs : Ref → Prop
  getters : Nat → Prop
  factories : Nat → Prop

/-- What is set aside is there. -/
structure Hidden.Within (hidden : Hidden) (σ : Store) : Prop where
  refs : ∀ {r : Ref}, hidden.refs r → σ.holds (.ref r) = true
  getters : ∀ {g : Nat}, hidden.getters g → g < σ.getters.size
  factories : ∀ {f : Nat}, hidden.factories f → f < σ.factories.size

/-- What is set aside stays there. -/
theorem Hidden.Within.keeps {hidden : Hidden} {σ τ : Store} (h : hidden.Within σ)
    (hk : σ.Keeps τ) : hidden.Within τ where
  refs := fun hr => hk.holds (h.refs hr)
  getters := fun hg => Nat.lt_of_lt_of_le (h.getters hg) hk.getters
  factories := fun hf => Nat.lt_of_lt_of_le (h.factories hf) hk.factories

/-! ## What names nothing that is set aside -/

/-- A value that is not set aside. -/
def Value.Apart (hidden : Hidden) : Value → Prop
  | .prim _ => True
  | .ref r => ¬ hidden.refs r

/-- A step that yields nothing set aside. -/
def Step.Apart (hidden : Hidden) (step : Step) : Prop := ∀ v ∈ step.value?, v.Apart hidden

/-- A property whose value, or whose getter, is not set aside. -/
def Property.Apart (hidden : Hidden) (p : Property) : Prop :=
  match p.slot with
  | .data v => v.Apart hidden
  | .accessor g => ¬ hidden.getters g

/-- An object that names nothing set aside: in no property, as no prototype, as no factory. -/
structure Object.Apart (hidden : Hidden) (o : Object) : Prop where
  properties : ∀ q ∈ o.properties, q.2.Apart hidden
  proto : ∀ p ∈ o.proto, ¬ hidden.refs (.object p)
  factory : ∀ f ∈ o.factory, ¬ hidden.factories f

mutual

/-- A blueprint for something that names nothing set aside. -/
def Blueprint.Apart (hidden : Hidden) : Blueprint → Prop
  | .existing v => v.Apart hidden
  | .array items => Blueprint.AllApart hidden items
  | .object shape => shape.Apart hidden
  | .function _ shape body _ => shape.Apart hidden ∧ body.Apart hidden
  | .iterator plan => plan.Apart hidden

/-- A shape for an object that names nothing set aside. -/
def Shape.Apart (hidden : Hidden) : Shape → Prop
  | .mk _ proto properties factory =>
      Blueprint.OptionApart hidden proto ∧ PropertyPlan.AllApart hidden properties ∧
        IteratorPlan.OptionApart hidden factory

def PropertyPlan.Apart (hidden : Hidden) : PropertyPlan → Prop
  | .field b | .hidden b => b.Apart hidden
  | .getter _ body => body.Apart hidden

def GetterPlan.Apart (hidden : Hidden) : GetterPlan → Prop
  | .values bs => Blueprint.AllApart hidden bs
  | .fresh b | .advance b => b.Apart hidden

/-- A function body that answers nothing set aside, unless it was given it. -/
def BodyPlan.Apart (hidden : Hidden) : BodyPlan → Prop
  | .sum | .arguments => True
  | .constant b => b.Apart hidden

def IteratorPlan.Apart (hidden : Hidden) : IteratorPlan → Prop
  | .mk _ source _ => source.Apart hidden

def SourcePlan.Apart (hidden : Hidden) : SourcePlan → Prop
  | .items bs => Blueprint.OptionsApart hidden bs
  | .range _ _ => True
  | .elements b => b.Apart hidden

/-- Blueprints none of which names anything set aside. -/
def Blueprint.AllApart (hidden : Hidden) : List Blueprint → Prop
  | [] => True
  | b :: bs => b.Apart hidden ∧ Blueprint.AllApart hidden bs

def Blueprint.OptionApart (hidden : Hidden) : Option Blueprint → Prop
  | none => True
  | some b => b.Apart hidden

def Blueprint.OptionsApart (hidden : Hidden) : List (Option Blueprint) → Prop
  | [] => True
  | b :: bs => Blueprint.OptionApart hidden b ∧ Blueprint.OptionsApart hidden bs

def PropertyPlan.AllApart (hidden : Hidden) : List (Key × PropertyPlan) → Prop
  | [] => True
  | (_, p) :: ps => p.Apart hidden ∧ PropertyPlan.AllApart hidden ps

def IteratorPlan.OptionApart (hidden : Hidden) : Option IteratorPlan → Prop
  | none => True
  | some plan => plan.Apart hidden

end

/-- A script that advances nothing set aside and gives such results, as long as what it is
    given is apart. -/
def Script.Apart (hidden : Hidden) {α : Type} (P : α → Prop) : Script α → Prop
  | .give a => P a
  | .make b next => b.Apart hidden ∧ ∀ v, v.Apart hidden → (next v).Apart hidden P
  | .advance i next => ¬ hidden.refs (.iterator i) ∧
      ∀ step, step.Apart hidden → (next step).Apart hidden P
  | .close _ next => ∀ closed, (next closed).Apart hidden P
  | .note _ next => next.Apart hidden P

/-- A factory supplies a fresh iterator or one that is not set aside. -/
def Supply.Apart (hidden : Hidden) : Supply → Prop
  | .fresh plan => plan.Apart hidden
  | .existing i => ¬ hidden.refs (.iterator i)

/-- A source that gives nothing set aside.  Where it only lists values, what stands behind a
    report of exhaustion does not count. -/
inductive Source.Apart (hidden : Hidden) : Source → Prop where
  | items {outputs : List (Script (Option Value))}
      (apart : ∀ script ∈ outputs, script.Apart hidden fun output => ∀ v ∈ output, v.Apart hidden) :
      Apart hidden (.items outputs)
  | range (next stop : Int) : Apart hidden (.range next stop)
  | inner {i : Nat} (apart : ¬ hidden.refs (.iterator i)) : Apart hidden (.inner i)
  | lists {source : Source} {xs : List Value} (lists : source.Lists xs)
      (apart : ∀ x ∈ xs, x.Apart hidden) : Apart hidden source

/-- An iterator that is spent, or has a source that gives nothing set aside. -/
def Iterator.Apart (hidden : Hidden) (it : Iterator) : Prop :=
  ∀ source ∈ it.source, source.Apart hidden

/-- A function that answers nothing set aside to arguments that are not. -/
structure Function.Apart (hidden : Hidden) (f : Function) : Prop where
  object : f.object.Apart hidden
  body : ∀ args : List Value, (∀ v ∈ args, v.Apart hidden) → (f.body args).Apart hidden

/-- A getter that gives nothing set aside, at any of its runs. -/
def Getter.Apart (hidden : Hidden) (g : Getter) : Prop :=
  ∀ run, (g.body run).Apart hidden (Value.Apart hidden)

/-- A factory that supplies nothing set aside, at any of its runs. -/
def Factory.Apart (hidden : Hidden) (f : Factory) : Prop :=
  ∀ run, (f.body run).Apart hidden (Supply.Apart hidden)

namespace Store

/-- Nothing in the store leads to what is set aside, unless it is set aside itself. -/
structure Apart (hidden : Hidden) (σ : Store) : Prop where
  arrays : ∀ {a : Nat} {items : List Value}, σ.arrays[a]? = some items →
    ¬ hidden.refs (.array a) → ∀ v ∈ items, v.Apart hidden
  objects : ∀ {o : Nat} {object : Object}, σ.objects[o]? = some object →
    ¬ hidden.refs (.object o) → object.Apart hidden
  functions : ∀ {f : Nat} {function : Function}, σ.functions[f]? = some function →
    ¬ hidden.refs (.function f) → function.Apart hidden
  iterators : ∀ {i : Nat} {it : Iterator}, σ.iterators[i]? = some it →
    ¬ hidden.refs (.iterator i) → it.Apart hidden
  getters : ∀ {g : Nat} {getter : Getter}, σ.getters[g]? = some getter →
    ¬ hidden.getters g → getter.Apart hidden
  factories : ∀ {f : Nat} {factory : Factory}, σ.factories[f]? = some factory →
    ¬ hidden.factories f → factory.Apart hidden

/-- Nothing leads to what is set aside, and nothing that is made later will be set aside.
    One iterator may be set aside and is followed all the same: what it gives is apart. -/
structure Guards (n : Nat) (hidden : Hidden) (σ : Store) : Prop extends Apart hidden σ where
  followed : ∀ {it : Iterator}, σ.iterators[n]? = some it → it.Apart hidden
  within : hidden.Within σ

/-- A run gives what is asked for, and what was set aside stays out of reach. -/
structure Guarded (n : Nat) (hidden : Hidden) {α : Type} (P : α → Prop) (x : α × Store) :
    Prop where
  result : P x.1
  guards : x.2.Guards n hidden

variable {n : Nat} {hidden : Hidden} {σ τ : Store} {α β : Type} {P : α → Prop} {Q : β → Prop}

/-- The run goes on with what it has got. -/
theorem Guarded.bind {x : α × Store} (h : Guarded n hidden P x) (f : α → Store → β × Store)
    (hf : ∀ (a : α) {σ : Store}, P a → σ.Guards n hidden → Guarded n hidden Q (f a σ)) :
    Guarded n hidden Q (f x.1 x.2) := hf x.1 h.result h.guards

/-- The run gives something that depends on what it has got. -/
theorem Guarded.map {x : α × Store} (h : Guarded n hidden P x) (f : α → β)
    (hf : ∀ a, P a → Q (f a)) : Guarded n hidden Q (f x.1, x.2) := ⟨hf x.1 h.result, h.guards⟩

/-- Nothing is given at all. -/
theorem Guards.nothing (h : σ.Guards n hidden) :
    Guarded n hidden (fun a : Option α => ∀ x ∈ a, P x) ((none : Option α), σ) :=
  ⟨fun x hx => absurd hx (Option.not_mem_none x), h⟩

/-- Exhaustion gives nothing at all. -/
theorem Guards.done (h : σ.Guards n hidden) : Guarded n hidden (Step.Apart hidden) (.done, σ) :=
  ⟨fun v hv => absurd hv (Option.not_mem_none v), h⟩

/-! ## Cells -/

/-- What is not there yet is not set aside. -/
theorem Guards.not_refs (h : σ.Guards n hidden) {r : Ref} (hr : σ.holds (.ref r) = false) :
    ¬ hidden.refs r := by
  intro hhidden
  rw [h.within.refs hhidden] at hr
  cases hr

/-- What is written to the trace leads nowhere. -/
theorem Guards.retrace (h : σ.Guards n hidden) (trace : Array Event) :
    ({ σ with trace } : Store).Guards n hidden where
  arrays := h.arrays
  objects := h.objects
  functions := h.functions
  iterators := h.iterators
  getters := h.getters
  factories := h.factories
  followed := h.followed
  within := ⟨h.within.refs, h.within.getters, h.within.factories⟩

/-- A value that names no cell becomes `undefined`, which is never set aside. -/
theorem vet_apart {v : Value} (hv : v.Apart hidden) (σ : Store) : (σ.vet v).Apart hidden := by
  rw [vet]
  split
  · exact hv
  · trivial

theorem vetProperty_apart {p : Property} (hp : p.Apart hidden) (σ : Store) :
    (σ.vetProperty p).Apart hidden := by
  obtain ⟨slot, enumerable⟩ := p
  cases slot with
  | data v => exact vet_apart hp σ
  | accessor g =>
      rw [vetProperty]
      dsimp only
      split
      · exact hp
      · trivial

theorem vetObject_apart {o : Object} (ho : o.Apart hidden) (σ : Store) :
    (σ.vetObject o).Apart hidden where
  properties := by
    intro q hq
    obtain ⟨q, hmem, rfl⟩ := List.mem_map.1 hq
    exact vetProperty_apart (ho.properties q hmem) σ
  proto := fun p hp => ho.proto p (Option.filter_eq_some_iff.1 hp).1
  factory := fun f hf => ho.factory f (Option.filter_eq_some_iff.1 hf).1

/-- A new array of apart values is in reach, for what is set aside was there before it. -/
theorem newArray_guarded {items : List Value} (hitems : ∀ v ∈ items, v.Apart hidden)
    (h : σ.Guards n hidden) : Guarded n hidden (Value.Apart hidden) (σ.newArray items) where
  result := h.not_refs (by simp [holds])
  guards :=
    { h with
      arrays := by
        refine forall_push h.arrays fun _ v hv => ?_
        obtain ⟨w, hw, rfl⟩ := List.mem_map.1 hv
        exact vet_apart (hitems w hw) σ
      within := h.within.keeps (Change.array (P := fun _ => True) σ items).keeps }

/-- A new object that names nothing set aside is in reach. -/
theorem newObject_guarded {o : Object} (ho : o.Apart hidden) (h : σ.Guards n hidden) :
    Guarded n hidden (Value.Apart hidden) (σ.newObject o) where
  result := h.not_refs (by simp [holds])
  guards :=
    { h with
      objects := forall_push h.objects fun _ => vetObject_apart ho σ
      within := h.within.keeps (Change.object (P := fun _ => True) σ o).keeps }

theorem newFunction_guarded {f : Function} (hf : f.Apart hidden) (h : σ.Guards n hidden) :
    Guarded n hidden (Value.Apart hidden) (σ.newFunction f) where
  result := h.not_refs (by simp [holds])
  guards :=
    { h with
      functions := by
        have hnew : Function.Apart hidden { f with object := σ.vetObject f.object } :=
          ⟨vetObject_apart hf.object σ, hf.body⟩
        intro g function hg
        exact forall_push (Q := fun g function => ¬ hidden.refs (.function g) →
          Function.Apart hidden function) h.functions (fun _ => hnew) hg
      within := h.within.keeps (Change.function (P := fun _ => True) σ f).keeps }

/-- A new iterator is in reach, also if it is the one that is followed. -/
theorem newIterator_guarded {it : Iterator} (hit : it.Apart hidden)
    (fresh : it.pulled = 0 ∧ it.closed = false) (h : σ.Guards n hidden) :
    Guarded n hidden (fun i => ¬ hidden.refs (.iterator i)) (σ.newIterator it) where
  result := h.not_refs (by simp [holds, newIterator])
  guards :=
    { h with
      iterators := forall_push h.iterators fun _ => hit
      followed := by
        intro jt hjt
        have hold : ∀ {i : Nat} {jt : Iterator}, σ.iterators[i]? = some jt → i = n →
            jt.Apart hidden := by
          rintro i jt hj rfl
          exact h.followed hj
        -- the iterator that is followed may not have been made until now
        exact forall_push (Q := fun i jt => i = n → Iterator.Apart hidden jt) hold (fun _ => hit)
          hjt rfl
      within := h.within.keeps (Change.iterator (P := fun _ => True) σ it fresh).keeps }

/-- A new getter is in reach. -/
theorem newGetter_guarded {g : Getter} (hg : g.Apart hidden) (h : σ.Guards n hidden) :
    Guarded n hidden (fun g => ¬ hidden.getters g) (σ.newGetter g) where
  result := fun hhidden => absurd (h.within.getters hhidden) (Nat.lt_irrefl _)
  guards :=
    { h with
      getters := forall_push h.getters fun _ => hg
      within := h.within.keeps (Change.getter (P := fun _ => True) σ g).keeps }

theorem newFactory_guarded {f : Factory} (hf : f.Apart hidden) (h : σ.Guards n hidden) :
    Guarded n hidden (fun f => ¬ hidden.factories f) (σ.newFactory f) where
  result := fun hhidden => absurd (h.within.factories hhidden) (Nat.lt_irrefl _)
  guards :=
    { h with
      factories := forall_push h.factories fun _ => hf
      within := h.within.keeps (Change.factory (P := fun _ => True) σ f).keeps }

/-- The factory of a plan, where there is one, supplies what the plan describes. -/
theorem newFactory?_guarded {plan : Option IteratorPlan}
    (hplan : IteratorPlan.OptionApart hidden plan) (h : σ.Guards n hidden) :
    Guarded n hidden (fun f => ∀ f' ∈ f, ¬ hidden.factories f') (σ.newFactory? plan) := by
  cases plan with
  | none => exact h.nothing
  | some plan =>
      have hf : Factory.Apart hidden ⟨plan.label, fun _ => .give (.fresh plan), 0⟩ :=
        fun _ => hplan
      refine (newFactory_guarded hf h).map some fun f hf f' hf' => ?_
      cases hf'
      exact hf

end Store

namespace Store

variable {n : Nat} {hidden : Hidden} {σ : Store}

/-- The elements of an array that is not set aside. -/
theorem Guards.items_apart (h : σ.Guards n hidden) {a : Nat} (ha : ¬ hidden.refs (.array a)) :
    ∀ v ∈ σ.items a, v.Apart hidden := by
  intro v hv
  rw [items, Array.getD_eq_getD_getElem?] at hv
  cases hget : σ.arrays[a]? with
  | none => simp [hget] at hv
  | some items =>
      rw [hget] at hv
      exact h.arrays hget ha v hv

/-- An iterator over the elements of an array that is not set aside. -/
theorem Guards.overArray_apart (h : σ.Guards n hidden) {a : Nat}
    (ha : ¬ hidden.refs (.array a)) : (Iterator.overArray (σ.items a)).Apart hidden := by
  intro source hsource
  cases hsource
  exact .lists (Source.lists_ofValues _) (h.items_apart ha)

end Store

/-! ## Building -/

section Objects

variable {hidden : Hidden}

theorem Object.apart_empty (hidden : Hidden) : Object.Apart hidden {} :=
  ⟨by simp, by simp, by simp⟩

/-- A property more, and the object still names nothing set aside. -/
theorem Object.Apart.add {o : Object} (ho : o.Apart hidden) (k : Key) {p : Property}
    (hp : p.Apart hidden) : (o.add k p).Apart hidden where
  properties := by
    intro q hq
    rcases Assoc.mem_insert hq with h | rfl
    · exact ho.properties q h
    · exact hp
  proto := ho.proto
  factory := ho.factory

theorem Object.Apart.addAll {o : Object} (ho : o.Apart hidden) {ps : List (Key × Property)}
    (hps : ∀ q ∈ ps, q.2.Apart hidden) : (o.addAll ps).Apart hidden := by
  induction ps generalizing o with
  | nil => exact ho
  | cons p ps ih =>
      exact ih (ho.add p.1 (hps p (List.mem_cons_self ..)))
        fun q hq => hps q (List.mem_cons_of_mem _ hq)

/-- A plain object of apart values names nothing set aside. -/
theorem Object.apart_ofFields {es : List (Key × Value)} (hes : ∀ e ∈ es, e.2.Apart hidden)
    (distinct : (Assoc.keys es).Nodup) : (ofFields es distinct).Apart hidden where
  properties := by
    intro q hq
    obtain ⟨e, he, rfl⟩ := List.mem_map.1 hq
    exact hes e he
  proto := nofun
  factory := nofun

/-- The name that a function carries is a text. -/
theorem Object.Apart.forFunction {o : Object} (ho : o.Apart hidden) (name : String) :
    (o.forFunction name).Apart hidden := by
  rw [Object.forFunction]
  split
  · exact ho
  · exact ho.add _ trivial

/-- A getter that gives its values in turn gives no other, and `undefined` if it has none. -/
theorem Script.ofValues_apart {vs : List Value} (hvs : ∀ v ∈ vs, v.Apart hidden) (run : Nat) :
    (Script.ofValues vs run).Apart hidden (Value.Apart hidden) := by
  show Value.Apart hidden (vs.getD _ .undefined)
  rw [List.getD_eq_getElem?_getD]
  cases hget : vs[min run (vs.length - 1)]? with
  | none => trivial
  | some v => exact hvs v (List.mem_of_getElem? hget)

end Objects

open Store

section Building

variable {n : Nat} {hidden : Hidden}

mutual

/-- What is built is apart, and leads to nothing set aside. -/
theorem Blueprint.build_guarded : ∀ (b : Blueprint) {σ : Store}, b.Apart hidden →
    σ.Guards n hidden → Guarded n hidden (Value.Apart hidden) (b.build σ)
  | .existing _, _, hb, h => ⟨hb, h⟩
  | .array items, _, hb, h =>
      (Blueprint.buildAll_guarded items hb h).bind (fun vs σ => σ.newArray vs) fun _ _ =>
        newArray_guarded
  | .object shape, _, hb, h =>
      (shape.build_guarded hb h).bind (fun o σ => σ.newObject o) fun _ _ => newObject_guarded
  | .function name shape body label, _, hb, h =>
      (shape.build_guarded hb.1 h).bind
        (fun o σ =>
          let (body, σ) := body.build σ
          σ.newFunction ⟨name, o.forFunction name, body, label⟩) fun o _ ho h =>
        (body.build_guarded hb.2 h).bind
          (fun body σ => σ.newFunction ⟨name, o.forFunction name, body, label⟩)
          fun _ _ hbody => newFunction_guarded ⟨ho.forFunction name, hbody⟩
  | .iterator plan, _, hb, h =>
      (plan.build_guarded hb h).map (fun i => Value.ref (.iterator i)) fun _ hi => hi

/-- A built object names what its prototype, its properties and its factory are built as. -/
theorem Shape.build_guarded : ∀ (shape : Shape) {σ : Store}, shape.Apart hidden →
    σ.Guards n hidden → Guarded n hidden (Object.Apart hidden) (shape.build σ)
  | .mk className proto properties factory, _, ⟨hproto, hproperties, hfactory⟩, h =>
      (Blueprint.buildOption_guarded proto hproto h).bind
        (fun p σ =>
          let (ps, σ) := PropertyPlan.buildAll properties σ
          let (factory, σ) := σ.newFactory? factory
          (Object.addAll { className, proto := p.bind Value.object?, factory } ps, σ))
        fun p _ hp h =>
        (PropertyPlan.buildAll_guarded properties hproperties h).bind
          (fun ps σ =>
            let (factory, σ) := σ.newFactory? factory
            (Object.addAll { className, proto := p.bind Value.object?, factory } ps, σ))
          fun ps _ hps h =>
          (newFactory?_guarded hfactory h).map
            (fun factory => Object.addAll { className, proto := p.bind Value.object?, factory } ps)
            fun factory hf => by
              -- only an object becomes a prototype, and it is apart as a value was
              refine Object.Apart.addAll ⟨by simp, fun o ho => ?_, hf⟩ hps
              obtain ⟨v, hv, hobject⟩ := Option.bind_eq_some_iff.1 ho
              have hapart := hp v hv
              rcases v with _ | _ | _ | _ | _ <;> cases hobject
              exact hapart

theorem PropertyPlan.build_guarded : ∀ (p : PropertyPlan) {σ : Store}, p.Apart hidden →
    σ.Guards n hidden → Guarded n hidden (Property.Apart hidden) (p.build σ)
  | .field b, _, hp, h => (b.build_guarded hp h).map Property.field fun _ hv => hv
  | .hidden b, _, hp, h => (b.build_guarded hp h).map Property.hidden fun _ hv => hv
  | .getter label body, _, hp, h =>
      (body.build_guarded hp h).bind
        (fun body σ =>
          let (g, σ) := σ.newGetter ⟨label, body, 0⟩
          (Property.getter g, σ)) fun body _ hbody h =>
        (newGetter_guarded (g := ⟨label, body, 0⟩) hbody h).map Property.getter fun _ hg => hg

/-- A built getter gives what the blueprint names, or what the iterator behind it yields. -/
theorem GetterPlan.build_guarded : ∀ (p : GetterPlan) {σ : Store}, p.Apart hidden →
    σ.Guards n hidden → Guarded n hidden
      (fun body => ∀ run, (body run).Apart hidden (Value.Apart hidden)) (p.build σ)
  | .values bs, _, hp, h =>
      (Blueprint.buildAll_guarded bs hp h).map Script.ofValues fun _ hvs =>
        Script.ofValues_apart hvs
  | .fresh _, _, hp, h => ⟨fun _ => ⟨hp, fun _ hv => hv⟩, h⟩
  | .advance b, σ, hp, h => by
      obtain ⟨hv, hbuilt⟩ := b.build_guarded hp h
      rw [GetterPlan.build]
      generalize b.build σ = built at hv hbuilt ⊢
      obtain ⟨v, τ⟩ := built
      dsimp only at hv hbuilt ⊢
      split
      · rename_i i hi
        -- the getter advances the iterator that was built for it
        have hapart : ¬ hidden.refs (.iterator i) := by
          rcases v with _ | _ | _ | _ | _ <;> cases hi
          exact hv
        refine ⟨fun _ => ⟨hapart, fun step hstep => ?_⟩, hbuilt⟩
        show Value.Apart hidden (step.value?.getD .undefined)
        cases hvalue : step.value? with
        | none => trivial
        | some x => exact hstep x hvalue
      · exact ⟨Script.ofValues_apart (by simp), hbuilt⟩

/-- A built function answers a number, its arguments, or what the blueprint names. -/
theorem BodyPlan.build_guarded : ∀ (p : BodyPlan) {σ : Store}, p.Apart hidden →
    σ.Guards n hidden → Guarded n hidden
      (fun body => ∀ args : List Value, (∀ v ∈ args, v.Apart hidden) → (body args).Apart hidden)
      (p.build σ)
  | .sum, _, _, h => ⟨fun _ _ => trivial, h⟩
  | .arguments, _, _, h => by
      refine ⟨fun args hargs => ?_, h⟩
      show Blueprint.AllApart hidden (args.map .existing)
      -- the function answers an array of the arguments it was given
      induction args with
      | nil => trivial
      | cons v args ih =>
          exact ⟨hargs v (List.mem_cons_self ..),
            ih fun w hw => hargs w (List.mem_cons_of_mem _ hw)⟩
  | .constant b, _, hp, h =>
      (b.build_guarded hp h).map (fun v _ => Blueprint.existing v) fun _ hv _ _ => hv

theorem IteratorPlan.build_guarded : ∀ (p : IteratorPlan) {σ : Store}, p.Apart hidden →
    σ.Guards n hidden → Guarded n hidden (fun i => ¬ hidden.refs (.iterator i)) (p.build σ)
  | .mk kind source label, _, hp, h =>
      (source.build_guarded hp h).bind
        (fun source σ => σ.newIterator ⟨kind, some source, label, 0, false⟩)
        fun _ _ hsource => newIterator_guarded
          (fun _ hlive => Option.some.inj hlive ▸ hsource) ⟨rfl, rfl⟩

/-- A built source gives values from its list, numbers, or what an iterator in reach yields. -/
theorem SourcePlan.build_guarded : ∀ (p : SourcePlan) {σ : Store}, p.Apart hidden →
    σ.Guards n hidden → Guarded n hidden (Source.Apart hidden) (p.build σ)
  | .items bs, _, hp, h =>
      (Blueprint.buildOptions_guarded bs hp h).map (fun vs => Source.items (vs.map .give))
        fun vs hvs => .items fun script hscript => by
          obtain ⟨v, hv, rfl⟩ := List.mem_map.1 hscript
          exact hvs v hv
  | .range start stop, _, _, h => ⟨.range start stop, h⟩
  | .elements b, σ, hp, h => by
      obtain ⟨hv, hbuilt⟩ := b.build_guarded hp h
      rw [SourcePlan.build]
      generalize b.build σ = built at hv hbuilt ⊢
      obtain ⟨v, τ⟩ := built
      dsimp only at hv hbuilt ⊢
      split
      · -- elements of an iterator are the iterator's own
        exact ⟨.inner hv, hbuilt⟩
      · -- elements of an array come from a fresh iterator over it
        rename_i a
        exact (newIterator_guarded (hbuilt.overArray_apart hv) ⟨rfl, rfl⟩ hbuilt).map Source.inner
          fun _ => .inner
      · exact ⟨.items (by simp), hbuilt⟩

theorem Blueprint.buildAll_guarded : ∀ (bs : List Blueprint) {σ : Store},
    Blueprint.AllApart hidden bs → σ.Guards n hidden →
      Guarded n hidden (fun vs => ∀ v ∈ vs, v.Apart hidden) (Blueprint.buildAll bs σ)
  | [], _, _, h => ⟨List.forall_mem_nil _, h⟩
  | b :: bs, _, hb, h =>
      (b.build_guarded hb.1 h).bind
        (fun v σ =>
          let (vs, σ) := Blueprint.buildAll bs σ
          (v :: vs, σ)) fun v _ hv h =>
        (Blueprint.buildAll_guarded bs hb.2 h).map (v :: ·) fun _ hvs =>
          List.forall_mem_cons.2 ⟨hv, hvs⟩

theorem Blueprint.buildOption_guarded : ∀ (b : Option Blueprint) {σ : Store},
    Blueprint.OptionApart hidden b → σ.Guards n hidden →
      Guarded n hidden (fun v => ∀ w ∈ v, w.Apart hidden) (Blueprint.buildOption b σ)
  | none, _, _, h => h.nothing
  | some b, _, hb, h =>
      (b.build_guarded hb h).map some fun _ hv _ hw => Option.some.inj hw ▸ hv

theorem Blueprint.buildOptions_guarded : ∀ (bs : List (Option Blueprint)) {σ : Store},
    Blueprint.OptionsApart hidden bs → σ.Guards n hidden →
      Guarded n hidden (fun vs => ∀ v ∈ vs, ∀ w ∈ v, w.Apart hidden) (Blueprint.buildOptions bs σ)
  | [], _, _, h => ⟨List.forall_mem_nil _, h⟩
  | b :: bs, _, hb, h =>
      (Blueprint.buildOption_guarded b hb.1 h).bind
        (fun v σ =>
          let (vs, σ) := Blueprint.buildOptions bs σ
          (v :: vs, σ)) fun v _ hv h =>
        (Blueprint.buildOptions_guarded bs hb.2 h).map (v :: ·) fun _ hvs =>
          List.forall_mem_cons.2 ⟨hv, hvs⟩

theorem PropertyPlan.buildAll_guarded : ∀ (ps : List (Key × PropertyPlan)) {σ : Store},
    PropertyPlan.AllApart hidden ps → σ.Guards n hidden →
      Guarded n hidden (fun ps => ∀ q ∈ ps, q.2.Apart hidden) (PropertyPlan.buildAll ps σ)
  | [], _, _, h => ⟨List.forall_mem_nil _, h⟩
  | (k, p) :: ps, _, hp, h =>
      (p.build_guarded hp.1 h).bind
        (fun p σ =>
          let (ps, σ) := PropertyPlan.buildAll ps σ
          ((k, p) :: ps, σ)) fun p _ hp' h =>
        (PropertyPlan.buildAll_guarded ps hp.2 h).map ((k, p) :: ·) fun _ hps =>
          List.forall_mem_cons.2 ⟨hp', hps⟩

end

end Building

end StructuralMatch
