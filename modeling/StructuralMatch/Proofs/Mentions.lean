import StructuralMatch.Pattern
import StructuralMatch.Proofs.Insertion
import StructuralMatch.Proofs.Store.Lineage

/-! # Builders as ordered maps

    Objects, functions and object patterns are put together by calls that mention keys,
    some of them again and again.  What comes out is the ordered map of the calls: the
    distinct keys in the order of first mention, each with its last mention, whether that
    is a value, a hidden value or an accessor (`Shape.build_related`), or a pattern
    (`ObjectPattern.entries_ofCalls`).

    A copy that leaves out some keys is listed without looking any of them up.  It is the same
    as if they were looked up (`Store.without_eq_addAll`), since no key is enumerated twice. -/

namespace StructuralMatch

/-! ## What a plan makes -/

/-- The blueprint is of a value that is there or that is still to be made. -/
def Blueprint.Given (σ : Store) (b : Blueprint) : Prop :=
  ∀ v, b = .existing v → σ.holds v = true

/-- What a property is to hold is there or is still to be made. -/
def PropertyPlan.Given (σ : Store) : PropertyPlan → Prop
  | .field b | .hidden b => b.Given σ
  | .getter _ _ => True

/-- The property was made for the plan, between the one store and the other: it has the slot
    and the enumerability that the plan asks for. -/
inductive PropertyPlan.Made (σ τ : Store) : PropertyPlan → Property → Prop where
  | field {b : Blueprint} {υ : Store} (before : σ.Leads υ) (after : (b.build υ).2.Leads τ) :
      Made σ τ (.field b) ⟨.data (b.build υ).1, true⟩
  | hidden {b : Blueprint} {υ : Store} (before : σ.Leads υ) (after : (b.build υ).2.Leads τ) :
      Made σ τ (.hidden b) ⟨.data (b.build υ).1, false⟩
  | getter {label : Option String} {body : GetterPlan} {υ : Store} (before : σ.Leads υ)
      (after : ((body.build υ).2.newGetter ⟨label, (body.build υ).1, 0⟩).2.Leads τ) :
      Made σ τ (.getter label body) ⟨.accessor (body.build υ).2.getters.size, true⟩

section Plans

variable {σ τ υ : Store} {p : Property} {plan : PropertyPlan}

theorem PropertyPlan.Given.keeps (h : plan.Given σ) (hk : σ.Keeps τ) : plan.Given τ := by
  cases plan with
  | field b => exact fun v hv => hk.holds (h v hv)
  | hidden b => exact fun v hv => hk.holds (h v hv)
  | getter label body => trivial

theorem PropertyPlan.Made.mono {σ' τ' : Store} (hσ : σ'.Leads σ) (hτ : τ.Leads τ')
    (h : plan.Made σ τ p) : plan.Made σ' τ' p := by
  cases h with
  | field before after => exact .field (hσ.trans before) (after.trans hτ)
  | hidden before after => exact .hidden (hσ.trans before) (after.trans hτ)
  | getter before after => exact .getter (hσ.trans before) (after.trans hτ)

/-- What is built is there. -/
theorem Blueprint.holds_build {b : Blueprint} (h : b.Given σ) :
    (b.build σ).2.holds (b.build σ).1 = true := by
  cases b with
  | existing v => exact h v rfl
  | array items => simp [Blueprint.build, Store.newArray, Store.holds]
  | object shape => simp [Blueprint.build, Store.newObject, Store.holds]
  | function name shape body label => simp [Blueprint.build, Store.newFunction, Store.holds]
  | iterator plan =>
      obtain ⟨kind, source, label⟩ := plan
      simp [Blueprint.build, IteratorPlan.build, Store.newIterator, Store.holds]

/-- What a property refers to stays there. -/
theorem Store.Keeps.vetProperty_eq (hk : σ.Keeps τ) (h : σ.vetProperty p = p) :
    τ.vetProperty p = p := by
  obtain ⟨slot, enumerable⟩ := p
  cases slot with
  | data v =>
      have hv : σ.vet v = v := Slot.data.inj (congrArg Property.slot h)
      have held : σ.holds v = true := by
        rw [← hv]
        exact σ.holds_vet v
      simp only [Store.vetProperty, Store.vet_of_holds (hk.holds held)]
  | accessor g =>
      have hg : g < σ.getters.size := by
        by_contra hnot
        simp [Store.vetProperty, hnot] at h
      simp only [Store.vetProperty, if_pos (Nat.lt_of_lt_of_le hg hk.getters)]

/-- Building a property makes what the plan asks for. -/
theorem PropertyPlan.build_made (h : plan.Given σ) :
    plan.Made σ (plan.build σ).2 (plan.build σ).1 ∧
      (plan.build σ).2.vetProperty (plan.build σ).1 = (plan.build σ).1 := by
  cases plan with
  | field b =>
      refine ⟨.field (.refl σ) (.refl _), ?_⟩
      simp only [PropertyPlan.build, Property.field, Store.vetProperty,
        Store.vet_of_holds (Blueprint.holds_build h)]
  | hidden b =>
      refine ⟨.hidden (.refl σ) (.refl _), ?_⟩
      simp only [PropertyPlan.build, Property.hidden, Store.vetProperty,
        Store.vet_of_holds (Blueprint.holds_build h)]
  | getter label body =>
      refine ⟨.getter (.refl σ) (.refl _), ?_⟩
      simp [PropertyPlan.build, Property.getter, Store.vetProperty, Store.newGetter]

end Plans

/-! ## Objects and functions -/

/-- The property was made for the plan, and what it refers to is there. -/
def PropertyPlan.Settled (σ τ : Store) (plan : PropertyPlan) (p : Property) : Prop :=
  plan.Made σ τ p ∧ τ.vetProperty p = p

section Shapes

variable {σ τ : Store} {mentions : List (Key × PropertyPlan)}

theorem PropertyPlan.Settled.mono {σ' τ' : Store} {plan : PropertyPlan} {p : Property}
    (hσ : σ'.Leads σ) (hτ : τ.Leads τ') (h : plan.Settled σ τ p) : plan.Settled σ' τ' p :=
  ⟨h.1.mono hσ hτ, hτ.keeps.vetProperty_eq h.2⟩

/-- Properties are made one for each mention. -/
theorem PropertyPlan.buildAll_related (given : ∀ m ∈ mentions, m.2.Given σ) :
    Assoc.Related (PropertyPlan.Settled σ (buildAll mentions σ).2) mentions
      (buildAll mentions σ).1 := by
  induction mentions generalizing σ with
  | nil => exact .nil
  | cons m mentions ih =>
      obtain ⟨k, plan⟩ := m
      obtain ⟨hplan, hrest⟩ := List.forall_mem_cons.1 given
      have hfirst : σ.Leads (plan.build σ).2 := plan.build_reaches σ
      have hlater : (plan.build σ).2.Leads (buildAll mentions (plan.build σ).2).2 :=
        buildAll_reaches mentions _
      refine .cons ⟨rfl, ?_⟩ ?_
      · exact Settled.mono (.refl σ) hlater (build_made hplan)
      · refine (ih fun m hm => (hrest m hm).keeps hfirst.keeps).imp fun _ _ he => ⟨he.1, ?_⟩
        exact he.2.mono hfirst (.refl _)

/-- The object of a shape has the properties that are mentioned, as an ordered map. -/
theorem Shape.build_related (className : Option String) (proto : Option Blueprint)
    (factory : Option IteratorPlan) (given : ∀ m ∈ mentions, m.2.Given σ) :
    Assoc.Related (PropertyPlan.Settled σ (Shape.build (.mk className proto mentions factory) σ).2)
      (Assoc.ofPairs mentions)
      (Shape.build (.mk className proto mentions factory) σ).1.properties := by
  have hproto : σ.Leads (Blueprint.buildOption proto σ).2 := Blueprint.buildOption_reaches proto σ
  have hbuilt := PropertyPlan.buildAll_related fun m hm => (given m hm).keeps hproto.keeps
  have hfactory := Store.newFactory?_reaches (P := fun _ => True)
    (PropertyPlan.buildAll mentions (Blueprint.buildOption proto σ).2).2 factory
  have hall := Assoc.Related.insertAll (m := []) (n := []) .nil hbuilt
  rw [Shape.build]
  dsimp only
  rw [Object.addAll_eq]
  exact hall.imp fun _ _ he => ⟨he.1, he.2.mono hproto hfactory⟩

/-- Settled properties are kept as they are. -/
theorem Assoc.Related.map_vetProperty {ms : Assoc Key PropertyPlan} {ps : Assoc Key Property}
    (h : ms.Related (PropertyPlan.Settled σ τ) ps) :
    (ps.map fun p => (p.1, τ.vetProperty p.2)) = ps := by
  rw [Assoc.Related] at h
  induction h with
  | nil => rfl
  | cons he _ ih => rw [List.map_cons, ih, he.2.2]

/-- What a function owns besides what is mentioned: a hidden `name`, unless that is mentioned. -/
def Object.finishing (mentions : List (Key × PropertyPlan)) (name : String) :
    Assoc Key Property :=
  if ⟨"name"⟩ ∈ mentions.map Prod.fst then [] else [(⟨"name"⟩, .hidden (.text name))]

/-- The value owns what is mentioned, and what is added after it. -/
structure Store.OwnsMentioned (σ τ : Store) (mentions : List (Key × PropertyPlan))
    (added : Assoc Key Property) (v : Value) : Prop where
  /-- Keys stand in the order of first mention, and then those that are added. -/
  keys : (τ.own v).keys = (mentions.map Prod.fst).eraseDups ++ added.keys
  /-- Each has the slot and the enumerability that its last mention asks for. -/
  mentioned : ∀ {k plan}, Assoc.get? mentions.reverse k = some plan →
    ∃ p, (τ.own v).get? k = some p ∧ plan.Made σ τ p
  /-- Nothing else is owned but what is added. -/
  unmentioned : ∀ {k}, Assoc.get? mentions.reverse k = none → (τ.own v).get? k = added.get? k

/-- It is enough to own a list of properties that were made for the mentions. -/
theorem Store.OwnsMentioned.of_related {υ : Store} {v : Value} {ps added : Assoc Key Property}
    (hrelated : (Assoc.ofPairs mentions).Related (PropertyPlan.Settled σ υ) ps)
    (hlater : υ.Leads τ) (hown : τ.own v = ps ++ added) :
    σ.OwnsMentioned τ mentions added v := by
  have hget : ∀ k, Option.Rel (PropertyPlan.Settled σ υ) (Assoc.get? mentions.reverse k)
      (ps.get? k) := fun k => Assoc.get?_ofPairs mentions k ▸ hrelated.get? k
  refine ⟨?_, fun {k plan} hk => ?_, fun {k} hk => ?_⟩
  · rw [hown, Assoc.keys, List.map_append, ← Assoc.keys, ← hrelated.keys_eq, Assoc.keys_ofPairs]
    rfl
  · have hrel := hget k
    rw [hk] at hrel
    generalize hp : ps.get? k = found at hrel
    cases hrel with
    | some hsettled =>
        refine ⟨_, ?_, hsettled.1.mono (.refl σ) hlater⟩
        rw [hown, Assoc.get?_append, hp, Option.some_or]
  · have hrel := hget k
    rw [hk] at hrel
    generalize hp : ps.get? k = found at hrel
    cases hrel
    rw [hown, Assoc.get?_append, hp, Option.none_or]

variable (className : Option String) (proto : Option Blueprint) (factory : Option IteratorPlan)

/-- An object owns what was mentioned. -/
theorem Blueprint.object_owns (given : ∀ m ∈ mentions, m.2.Given σ) :
    σ.OwnsMentioned ((object (.mk className proto mentions factory)).build σ).2 mentions []
      ((object (.mk className proto mentions factory)).build σ).1 := by
  have hrelated := Shape.build_related className proto factory given
  rw [Blueprint.build]
  generalize (Shape.mk className proto mentions factory).build σ = built at hrelated ⊢
  obtain ⟨o, υ⟩ := built
  refine .of_related hrelated (Store.Change.object υ o).reaches ?_
  have hown := Store.own_of_objectOf? (σ := (υ.newObject o).2) (v := (υ.newObject o).1)
    (o := υ.vetObject o) Array.getElem?_push_size
  rw [List.append_nil]
  exact hown.trans hrelated.map_vetProperty

/-- Finishing an object as that of a function adds a `name` at the end, or nothing. -/
theorem Object.properties_forFunction {o : Object}
    (hkeys : o.properties.keys = (mentions.map Prod.fst).eraseDups) (name : String) :
    (o.forFunction name).properties = o.properties ++ finishing mentions name := by
  have hmem : (o.own? ⟨"name"⟩).isSome ↔ ⟨"name"⟩ ∈ mentions.map Prod.fst := by
    rw [own?, Assoc.get?_isSome_iff, hkeys, List.mem_eraseDups]
  rw [forFunction, finishing]
  by_cases hname : ⟨"name"⟩ ∈ mentions.map Prod.fst
  · rw [if_pos (hmem.2 hname), if_pos hname, List.append_nil]
  · rw [if_neg (mt hmem.1 hname), if_neg hname]
    refine Assoc.insert_of_not_mem ?_ _
    rwa [hkeys, List.mem_eraseDups]

/-- A function owns what was mentioned, and a hidden `name` if nothing mentioned it. -/
theorem Blueprint.function_owns (name : String) (body : BodyPlan) (label : Option String)
    (given : ∀ m ∈ mentions, m.2.Given σ) :
    σ.OwnsMentioned ((function name (.mk className proto mentions factory) body label).build σ).2
      mentions (Object.finishing mentions name)
      ((function name (.mk className proto mentions factory) body label).build σ).1 := by
  have hrelated := Shape.build_related className proto factory given
  rw [Blueprint.build]
  generalize (Shape.mk className proto mentions factory).build σ = built at hrelated ⊢
  obtain ⟨o, υ⟩ := built
  have hbody : υ.Leads (body.build υ).2 := body.build_reaches υ
  dsimp only at hrelated ⊢
  generalize body.build υ = calls at hbody ⊢
  obtain ⟨returns, ω⟩ := calls
  -- building the body adds cells, and what the properties name stays
  have hsettled : (Assoc.ofPairs mentions).Related (PropertyPlan.Settled σ ω) o.properties :=
    hrelated.imp fun _ _ he => ⟨he.1, he.2.mono (.refl σ) hbody⟩
  have hkeys : o.properties.keys = (mentions.map Prod.fst).eraseDups := by
    rw [← hrelated.keys_eq, Assoc.keys_ofPairs, Assoc.keys]
  let f : Function := ⟨name, o.forFunction name, returns, label⟩
  refine .of_related hsettled (Store.Change.function ω f).reaches ?_
  have hown := Store.own_of_objectOf? (σ := (ω.newFunction f).2) (v := (ω.newFunction f).1)
    (o := ω.vetObject f.object) (by simp [Store.objectOf?, Store.newFunction])
  have hfinishing : ((Object.finishing mentions name).map fun p => (p.1, ω.vetProperty p.2)) =
      Object.finishing mentions name := by
    rw [Object.finishing]
    split <;> rfl
  refine hown.trans ?_
  show ((o.forFunction name).properties.map fun p => (p.1, ω.vetProperty p.2)) = _
  rw [Object.properties_forFunction hkeys, List.map_append, hsettled.map_vetProperty, hfinishing]

end Shapes

/-! ## Object patterns -/

namespace ObjectPattern

/-- A call of the builder of object patterns. -/
inductive Call where
  | entry (k : Key) (p : Pattern)
  | rest (name : String)

namespace Call

/-- What the call does to the pattern. -/
def apply (o : ObjectPattern) : Call → ObjectPattern
  | entry k p => o.entry k p
  | rest name => o.rest name

/-- The key and the pattern of an entry. -/
def entry? : Call → Option (Key × Pattern)
  | entry k p => some (k, p)
  | rest _ => none

/-- The rest marker of a call for one. -/
def marker? : Call → Option RestMarker
  | entry _ _ => none
  | rest name => some ⟨nonemptyKey? name⟩

end Call

/-- The pattern that calls make one after another. -/
def ofCalls (calls : List Call) : ObjectPattern := calls.foldl Call.apply {}

theorem ofCalls_concat (calls : List Call) (c : Call) :
    ofCalls (calls ++ [c]) = Call.apply (ofCalls calls) c := List.foldl_concat ..

/-- The entries are the ordered map of those that are given, whatever the rest markers are. -/
theorem entries_ofCalls (calls : List Call) :
    (ofCalls calls).entries = Assoc.ofPairs (calls.filterMap Call.entry?) := by
  induction calls using List.reverseRecOn with
  | nil => rfl
  | append_singleton calls c ih =>
      rw [ofCalls_concat, List.filterMap_append, Assoc.ofPairs, Assoc.insertAll_append,
        ← Assoc.ofPairs, ← ih]
      cases c <;> rfl

/-- The rest marker is the last one that is given, whatever the entries are. -/
theorem marker_ofCalls (calls : List Call) :
    (ofCalls calls).marker = (calls.filterMap Call.marker?).getLast? := by
  induction calls using List.reverseRecOn with
  | nil => rfl
  | append_singleton calls c ih =>
      rw [ofCalls_concat, List.filterMap_append]
      cases c with
      | entry k p => exact ih.trans (congrArg List.getLast? (List.append_nil _).symm)
      | rest name => exact List.getLast?_concat.symm

end ObjectPattern

/-! ## Copies with some keys left out -/

namespace Store

variable {σ : Store}

/-- The copy is the one that adding the fields one after another would make. -/
theorem without_eq_addAll (σ : Store) (v : Value) (excluded : List Key) :
    σ.without v excluded =
      (σ.entries v).2.newObject (.addAll {} (((σ.entries v).1.filter fun e =>
        !excluded.contains e.1).map fun e => (e.1, .field e.2))) := by
  rw [without, Object.addAll_fields]

/-- A new object owns the keys that it was made with. -/
theorem keys_own_newObject (τ : Store) (o : Object) :
    ((τ.newObject o).2.own (τ.newObject o).1).keys = o.properties.keys := by
  have hown := own_of_objectOf? (σ := (τ.newObject o).2) (v := (τ.newObject o).1)
    (o := τ.vetObject o) Array.getElem?_push_size
  rw [hown]
  exact Assoc.keys_map o.properties _

/-- The copy has the listed keys that are not left out. -/
theorem keys_without (σ : Store) (v : Value) (excluded : List Key) :
    ((σ.without v excluded).2.own (σ.without v excluded).1).keys =
      (σ.listed v).keys.filter fun k => !excluded.contains k := by
  rw [without, keys_own_newObject, Object.keys_ofFields]
  calc Assoc.keys ((σ.entries v).1.filter fun e => !excluded.contains e.1)
      = (Assoc.keys (σ.entries v).1).filter (fun k => !excluded.contains k) := by
        rw [Assoc.keys, Assoc.keys, List.filter_map]
        rfl
    _ = (σ.listed v).keys.filter (fun k => !excluded.contains k) := by
        rw [entries_eq_readAll, keys_readAll]

end Store

/-! ## All builders -/

/-- **Builders are ordered maps**: objects, functions and object patterns have the distinct
    keys that the calls mention, in the order of first mention and each as it was mentioned
    last; a function has a hidden `name` after them unless that was mentioned, and a rest
    marker of a pattern is no entry.  A copy that leaves out some keys, which is listed as it
    comes, is the one that adding its fields one after another makes, and has no key twice. -/
theorem builders_order {σ : Store} {mentions : List (Key × PropertyPlan)}
    (given : ∀ m ∈ mentions, m.2.Given σ)
    (className : Option String) (proto : Option Blueprint) (factory : Option IteratorPlan)
    (name : String) (body : BodyPlan) (label : Option String)
    (calls : List ObjectPattern.Call) (v : Value) (excluded : List Key) :
    (let shape := Shape.mk className proto mentions factory
      let object := (Blueprint.object shape).build σ
      let function := (Blueprint.function name shape body label).build σ
      σ.OwnsMentioned object.2 mentions [] object.1 ∧
        σ.OwnsMentioned function.2 mentions
          (if ⟨"name"⟩ ∈ mentions.map Prod.fst then [] else [(⟨"name"⟩, .hidden (.text name))])
          function.1) ∧
      (let pattern := ObjectPattern.ofCalls calls
        let given := calls.filterMap ObjectPattern.Call.entry?
        pattern.keys = (given.map Prod.fst).eraseDups ∧ pattern.keys.Nodup ∧
          (∀ k, pattern.entries.get? k = Assoc.get? given.reverse k) ∧
            pattern.marker = (calls.filterMap ObjectPattern.Call.marker?).getLast? ∧
              ∀ text, (pattern.rest text).entries = pattern.entries ∧
                ∀ k p, ((pattern.rest text).entry k p).marker = some ⟨nonemptyKey? text⟩) ∧
      let kept := (σ.entries v).1.filter fun e => !excluded.contains e.1
      let copy := σ.without v excluded
      copy = (σ.entries v).2.newObject (.addAll {} (kept.map fun e => (e.1, .field e.2))) ∧
        (copy.2.own copy.1).keys = (σ.listed v).keys.filter (fun k => !excluded.contains k) ∧
          (copy.2.own copy.1).keys.Nodup := by
  refine ⟨⟨?_, ?_⟩, ⟨?_, ?_, ?_, ?_, ?_⟩, ?_, ?_, ?_⟩
  · exact Blueprint.object_owns className proto factory given
  · exact Blueprint.function_owns className proto factory name body label given
  · rw [ObjectPattern.keys, ObjectPattern.entries_ofCalls, Assoc.keys_ofPairs, Assoc.keys]
  · rw [ObjectPattern.keys, ObjectPattern.entries_ofCalls]
    exact Assoc.nodup_keys_insertAll (m := []) List.nodup_nil _
  · intro k
    rw [ObjectPattern.entries_ofCalls, Assoc.get?_ofPairs]
  · exact ObjectPattern.marker_ofCalls calls
  · exact fun text => ⟨rfl, fun k p => rfl⟩
  · exact σ.without_eq_addAll v excluded
  · exact σ.keys_without v excluded
  · rw [σ.keys_without]
    exact (σ.nodup_listed v).filter _

namespace Mentioning

/-- A value, then an accessor in its place; a hidden value, then one that is not. -/
def mentions : List (Key × PropertyPlan) :=
  [(⟨"a"⟩, .field (.existing (.text "first"))), (⟨"b"⟩, .hidden (.existing .undefined)),
    (⟨"a"⟩, .getter none (.values [])), (⟨"b"⟩, .field (.existing (.text "last")))]

/-- An object with those properties. -/
def start : Store := ((Blueprint.object (.mk none none mentions none)).build .empty).2

theorem given : ∀ m ∈ mentions, m.2.Given start := by
  intro m hm
  simp only [mentions, List.mem_cons, List.not_mem_nil, or_false] at hm
  rcases hm with rfl | rfl | rfl | rfl
  · rintro v ⟨⟩
    rfl
  · rintro v ⟨⟩
    rfl
  · trivial
  · rintro v ⟨⟩
    rfl

/-- Entries and rest markers, one of them under the name of an entry. -/
def calls : List ObjectPattern.Call :=
  [.entry ⟨"k"⟩ (.identifier none), .rest "k", .entry ⟨"l"⟩ (.rest none),
    .entry ⟨"k"⟩ (.literal .null), .rest ""]

/-- A function with those properties. -/
def function : Value × Store :=
  (Blueprint.function "f" (.mk none none mentions none) .sum none).build start

end Mentioning

/-- The function has both keys and then `name`, the pattern both entries and an unnamed rest
    marker, and the copy without `b` the one key that is left. -/
theorem builders_order_mentioning :
    (Mentioning.function.2.own Mentioning.function.1).keys = [⟨"a"⟩, ⟨"b"⟩, ⟨"name"⟩] ∧
      (∃ p, (Mentioning.function.2.own Mentioning.function.1).get? ⟨"b"⟩ = some p ∧
        (PropertyPlan.field (.existing (.text "last"))).Made Mentioning.start
          Mentioning.function.2 p) ∧
      (ObjectPattern.ofCalls Mentioning.calls).keys = [⟨"k"⟩, ⟨"l"⟩] ∧
      (ObjectPattern.ofCalls Mentioning.calls).marker = some ⟨none⟩ ∧
      ((Mentioning.start.without (.ref (.object 0)) [⟨"b"⟩]).2.own
        (Mentioning.start.without (.ref (.object 0)) [⟨"b"⟩]).1).keys = [⟨"a"⟩] := by
  obtain ⟨⟨-, howns⟩, ⟨hkeys, -, -, hmarker, -⟩, -, hcopy, -⟩ :=
    builders_order Mentioning.given none none none "f" .sum none Mentioning.calls
      (.ref (.object 0)) [⟨"b"⟩]
  refine ⟨howns.keys.trans (by decide), howns.mentioned rfl, hkeys.trans (by decide),
    hmarker.trans (by decide), hcopy.trans (by decide)⟩

end StructuralMatch
