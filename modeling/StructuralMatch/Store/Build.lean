import StructuralMatch.Store

/-! # Building blueprints

    Building turns a blueprint into a value: parts are built first and in order,
    then the cell that holds them is made.  A property that is added twice keeps
    its place and takes the later content.  A function gets a hidden property
    `name` unless one was added. -/

namespace StructuralMatch

/-- An enumerable data property. -/
def Property.field (v : Value) : Property := ⟨.data v, true⟩

/-- A data property that enumeration skips. -/
def Property.hidden (v : Value) : Property := ⟨.data v, false⟩

/-- An enumerable accessor property. -/
def Property.getter (cell : Nat) : Property := ⟨.accessor cell, true⟩

namespace Object

/-- Add an own property, or overwrite it where it stands. -/
def add (o : Object) (k : Key) (p : Property) : Object :=
  { o with
    properties := o.properties.insert k p
    nodup := Assoc.nodup_keys_insert o.nodup k p }

/-- Add the properties one after another. -/
def addAll (o : Object) (ps : List (Key × Property)) : Object :=
  ps.foldl (fun o p => o.add p.1 p.2) o

/-- The own property of a key. -/
def own? (o : Object) (k : Key) : Option Property := o.properties.get? k

/-- The object part of a function: a hidden `name` is added unless one is there. -/
def forFunction (o : Object) (name : String) : Object :=
  if (o.own? ⟨"name"⟩).isSome then o else o.add ⟨"name"⟩ (.hidden (.text name))

/-- A plain object of fields just as they are listed; no key is looked up. -/
def ofFields (es : List (Key × Value)) (distinct : (Assoc.keys es).Nodup) : Object where
  properties := es.map fun e => (e.1, .field e.2)
  nodup := (Assoc.keys_map es _).symm ▸ distinct

theorem keys_ofFields (es : List (Key × Value)) (distinct : (Assoc.keys es).Nodup) :
    (ofFields es distinct).properties.keys = Assoc.keys es := Assoc.keys_map es _

theorem ofFields_congr {es fs : List (Key × Value)} (h : es = fs)
    (hes : (Assoc.keys es).Nodup) (hfs : (Assoc.keys fs).Nodup) :
    ofFields es hes = ofFields fs hfs := by
  subst h
  rfl

end Object

/-- Vetting a plain object of fields that are there changes nothing. -/
theorem Store.vetObject_ofFields {σ : Store} {es : List (Key × Value)}
    (held : ∀ e ∈ es, σ.holds e.2 = true)
    (distinct : (Assoc.keys es).Nodup) :
    σ.vetObject (.ofFields es distinct) = .ofFields es distinct := by
  have hvetted : ∀ p ∈ (Object.ofFields es distinct).properties,
      (p.1, σ.vetProperty p.2) = p := by
    intro p hp
    obtain ⟨e, he, rfl⟩ := List.mem_map.1 hp
    simp only [vetProperty, Property.field, vet_of_holds (held e he)]
  exact Object.ext rfl ((List.map_congr_left hvetted).trans (List.map_id' _)) rfl rfl

/-- Return the values one after another, the last one again and again. -/
def Script.ofValues (vs : List Value) (run : Nat) : Script Value :=
  .give (vs.getD (min run (vs.length - 1)) .undefined)

/-- The outputs of a list of values, none of them missing. -/
def Source.ofValues (vs : List Value) : Source := .items (vs.map fun v => .give (some v))

/-- An iterator over the elements of an array. -/
def Iterator.overArray (items : List Value) : Iterator :=
  ⟨.arrayIterator, some (.ofValues items), none, 0, false⟩

/-- An iterator over the characters of a text. -/
def Iterator.overText (s : String) : Iterator :=
  ⟨.textIterator, some (.ofValues (s.toList.map fun c => .text (String.singleton c))),
    none, 0, false⟩

/-- Make the factory of a plan, if there is one. -/
def Store.newFactory? (σ : Store) : Option IteratorPlan → Option Nat × Store
  | none => (none, σ)
  | some plan =>
      let (f, σ) := σ.newFactory ⟨plan.label, fun _ => .give (.fresh plan), 0⟩
      (some f, σ)

mutual

/-- Make the value that a blueprint describes. -/
def Blueprint.build : Blueprint → Store → Value × Store
  | .existing v, σ => (v, σ)
  | .array items, σ =>
      let (vs, σ) := Blueprint.buildAll items σ
      σ.newArray vs
  | .object shape, σ =>
      let (o, σ) := shape.build σ
      σ.newObject o
  | .function name shape body label, σ =>
      let (o, σ) := shape.build σ
      let (body, σ) := body.build σ
      σ.newFunction ⟨name, o.forFunction name, body, label⟩
  | .iterator plan, σ =>
      let (i, σ) := plan.build σ
      (.ref (.iterator i), σ)

/-- Make the object that a shape describes; it is not yet a cell. -/
def Shape.build : Shape → Store → Object × Store
  | .mk className proto properties factory, σ =>
      let (p, σ) := Blueprint.buildOption proto σ
      let (ps, σ) := PropertyPlan.buildAll properties σ
      let (factory, σ) := σ.newFactory? factory
      (.addAll { className, proto := p.bind Value.object?, factory } ps, σ)

/-- Make a property. -/
def PropertyPlan.build : PropertyPlan → Store → Property × Store
  | .field b, σ =>
      let (v, σ) := b.build σ
      (.field v, σ)
  | .hidden b, σ =>
      let (v, σ) := b.build σ
      (.hidden v, σ)
  | .getter label body, σ =>
      let (body, σ) := body.build σ
      let (g, σ) := σ.newGetter ⟨label, body, 0⟩
      (.getter g, σ)

/-- Make what a getter needs, and return what its runs do. -/
def GetterPlan.build : GetterPlan → Store → (Nat → Script Value) × Store
  | .values bs, σ =>
      let (vs, σ) := Blueprint.buildAll bs σ
      (Script.ofValues vs, σ)
  | .fresh b, σ => (fun _ => .make b .give, σ)
  | .advance b, σ =>
      let (v, σ) := b.build σ
      match v.iterator? with
      | some i => (fun _ => .advance i fun step => .give (step.value?.getD .undefined), σ)
      | none => (Script.ofValues [], σ)

/-- Make what a function needs. -/
def BodyPlan.build : BodyPlan → Store → (List Value → Blueprint) × Store
  | .sum, σ => (fun args => .existing (.number (.sum (args.filterMap Value.number?))), σ)
  | .arguments, σ => (fun args => .array (args.map .existing), σ)
  | .constant b, σ =>
      let (v, σ) := b.build σ
      (fun _ => .existing v, σ)

/-- Make an iterator, and return its cell. -/
def IteratorPlan.build : IteratorPlan → Store → Nat × Store
  | .mk kind source label, σ =>
      let (source, σ) := source.build σ
      σ.newIterator ⟨kind, some source, label, 0, false⟩

/-- Make the source of an iterator. -/
def SourcePlan.build : SourcePlan → Store → Source × Store
  | .items bs, σ =>
      let (vs, σ) := Blueprint.buildOptions bs σ
      (.items (vs.map .give), σ)
  | .range start stop, σ => (.range start stop, σ)
  | .elements b, σ =>
      let (v, σ) := b.build σ
      match v with
      | .ref (.iterator i) => (.inner i, σ)
      | .ref (.array a) =>
          let (i, σ) := σ.newIterator (.overArray (σ.items a))
          (.inner i, σ)
      | _ => (.items [], σ)

/-- Build a list from left to right. -/
def Blueprint.buildAll : List Blueprint → Store → List Value × Store
  | [], σ => ([], σ)
  | b :: bs, σ =>
      let (v, σ) := b.build σ
      let (vs, σ) := Blueprint.buildAll bs σ
      (v :: vs, σ)

/-- Build what is there. -/
def Blueprint.buildOption : Option Blueprint → Store → Option Value × Store
  | none, σ => (none, σ)
  | some b, σ =>
      let (v, σ) := b.build σ
      (some v, σ)

/-- Build a list with gaps from left to right. -/
def Blueprint.buildOptions : List (Option Blueprint) → Store → List (Option Value) × Store
  | [], σ => ([], σ)
  | b :: bs, σ =>
      let (v, σ) := Blueprint.buildOption b σ
      let (vs, σ) := Blueprint.buildOptions bs σ
      (v :: vs, σ)

/-- Build properties from left to right. -/
def PropertyPlan.buildAll : List (Key × PropertyPlan) → Store → List (Key × Property) × Store
  | [], σ => ([], σ)
  | (k, p) :: ps, σ =>
      let (p, σ) := p.build σ
      let (ps, σ) := PropertyPlan.buildAll ps σ
      ((k, p) :: ps, σ)

end

end StructuralMatch
