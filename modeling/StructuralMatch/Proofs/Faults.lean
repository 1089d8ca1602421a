import StructuralMatch.Matcher.Scripted
import StructuralMatch.Proofs.FirstMatch
import StructuralMatch.Proofs.Selections
import StructuralMatch.Proofs.Visits

/-! # Faults surface

    An error of a custom matcher ends the match in which the matcher was asked.  It
    is put under the matcher's name unless it has been put under a name already, and
    a selection adds a note of the arm (`MatchError.Surfaces`, `Selection.FailsAt`).

    A custom matcher may run a selection of its own and pass its error on, and so may
    the matchers in there (`Consultation.Nests`).  However deep such a nest is, the
    fault at its bottom comes out with its cause and its message, and with one note
    for each selection on the way, innermost first (`faults_surface`). -/

namespace StructuralMatch

variable {ρ : Type}

/-! ## Under a name -/

namespace MatchError

/-- How an error of the named matcher surfaces: a capability fault as it is, any other as a
    capability fault with the error's message, in its own words, and with the error's notes. -/
inductive Surfaces (name : String) : MatchError → MatchError → Prop where
  | same {e : MatchError} {matcher message : String}
      (fault : e.cause = .capabilityFault matcher message) : Surfaces name e e
  | named {e : MatchError} (other : ∀ matcher message, e.cause ≠ .capabilityFault matcher message) :
      Surfaces name e
        ⟨.capabilityFault name e.message, (Cause.capabilityFault name e.message).text, e.notes⟩

theorem surfaces_blame (e : MatchError) (name : String) : e.Surfaces name (e.blame name) := by
  rw [blame]
  split
  · rename_i matcher message hcause
    exact .same hcause
  · rename_i hother
    exact .named hother

theorem cause_blame (e : MatchError) (name : String) :
    ∃ matcher message, (e.blame name).cause = .capabilityFault matcher message := by
  rw [blame]
  split
  · rename_i matcher message hcause
    exact ⟨matcher, message, hcause⟩
  · exact ⟨name, e.message, rfl⟩

theorem notes_blame (e : MatchError) (name : String) : (e.blame name).notes = e.notes := by
  rw [blame]
  split <;> rfl

/-- A capability fault stays as it is, under whatever name. -/
theorem blame_of_cause {e : MatchError} {matcher message : String}
    (h : e.cause = .capabilityFault matcher message) (name : String) : e.blame name = e := by
  rw [blame, h]

end MatchError

/-! ## In a match -/

section Matches

variable {p : Pattern} {v : Value} {s t : State} {m : Matcher} {w : Visit} {e : MatchError}

/-- A match that fails does so at the first custom matcher that fails, and at once. -/
theorem matchPattern_fault (h : matchPattern p v s = (.failed e, t)) :
    ∃ m w e₀, FirstFault (visitsAt p none v s) m w e₀ ∧
      t = (w.state.consult m w.value).2 ∧ e = e₀.blame m.name := by
  have houtcome := (matchAt_attested p none v s).outcome
  rw [show matchAt p none v s = (.failed e, t) from h] at houtcome
  generalize hx : (Verdict.failed e : Verdict Bindings) = x at houtcome
  cases houtcome with
  | matched passes => cases hx
  | unmatched passes => cases hx
  | failed fault => exact ⟨_, _, _, fault, rfl, Verdict.failed.inj hx⟩

/-- A custom matcher that fails first makes the match fail. -/
theorem FirstFault.matchPattern_eq (h : FirstFault (visitsAt p none v s) m w e) :
    matchPattern p v s = (.failed (e.blame m.name), (w.state.consult m w.value).2) := by
  have houtcome := (matchAt_attested p none v s).outcome
  rw [matchPattern]
  generalize matchAt p none v s = run at houtcome ⊢
  obtain ⟨x, t⟩ := run
  dsimp only at houtcome
  cases houtcome with
  | matched passes => exact absurd passes h.not_passes
  | unmatched passes => exact absurd passes h.not_passes
  | failed fault =>
      obtain ⟨rfl, rfl, rfl⟩ := h.unique fault
      rfl

end Matches

/-! ## In a selection -/

/-- A custom matcher that is asked about a value. -/
structure Consultation where
  matcher : Matcher
  value : Value
  store : Store

/-- What the matcher says. -/
def Consultation.verdict (c : Consultation) : Verdict Unit :=
  (c.matcher.judge c.value (c.store.record (.consulted c.matcher.name))).1

namespace Selection

/-- The arms before an arm decline, and in the match of its pattern the matcher is the first
    to fail. -/
inductive FailsAt (v : Value) (σ : Store) : List (Arm ρ) → Nat → Consultation → Prop where
  | intro {passed rest : List (Arm ρ)} {p : Pattern} {handler : Bindings → Store → ρ × Store}
      {s : State} {m : Matcher} {w : Visit} {e : MatchError}
      (passes : Passes passed v { store := σ } s) (fault : FirstFault (visitsAt p none v s) m w e) :
      FailsAt v σ (passed ++ .when p handler :: rest) passed.length ⟨m, w.value, w.state.store⟩

variable {arms : List (Arm ρ)} {v : Value} {σ : Store} {i : Nat} {c : Consultation}
  {e : MatchError}

/-- An arm whose pattern is a matcher that fails. -/
theorem failsAt_custom {passed : List (Arm ρ)} {s : State} {m : Matcher}
    (passes : Passes passed v { store := σ } s)
    (hfails : ∃ e, (⟨m, v, s.store⟩ : Consultation).verdict = .failed e)
    (handler : Bindings → Store → ρ × Store) (rest : List (Arm ρ)) :
    FailsAt v σ (passed ++ .when (.custom m) handler :: rest) passed.length ⟨m, v, s.store⟩ := by
  obtain ⟨e, hverdict⟩ := hfails
  exact .intro passes (firstFault_custom hverdict none)

/-- A selection gives the error of the matcher that failed, under a name and with a note of
    the arm. -/
theorem FailsAt.gives (h : FailsAt v σ arms i c) (hc : c.verdict = .failed e) :
    ∃ τ, Gives arms v σ (.error ((e.blame c.matcher.name).withNote (armNote i)), τ) := by
  cases h with
  | @intro passed rest p handler s m w e' passes fault =>
      have hsame : Verdict.failed e' = .failed e := fault.fails.symm.trans hc
      cases hsame
      exact ⟨_, gives_failed passes (.when fault.matchPattern_eq) rest⟩

/-- A selection of patterns and tests ends with an error at an arm whose pattern asks a matcher
    that fails, or because all arms decline and there is no fallback. -/
theorem finish_error (hstandard : ∀ arm ∈ arms, arm.isStandard = true)
    (h : (finish arms v σ).1 = .error e) :
    (∃ s, Passes arms v { store := σ } s ∧ e = .ofCause (.nonExhaustive v.typeName)) ∨
      ∃ i c e₀, FailsAt v σ arms i c ∧ c.verdict = .failed e₀ ∧
        e = (e₀.blame c.matcher.name).withNote (armNote i) := by
  rcases passes_or_decided arms v { store := σ } with
    ⟨s, hpasses⟩ | ⟨passed, arm, rest, s, rfl, hpasses, ⟨run, t, hchooses⟩ | ⟨e', t, hfails⟩⟩
  · rw [hpasses.finish_eq] at h
    cases h
    exact .inl ⟨s, hpasses, rfl⟩
  · rw [(gives_chosen hpasses hchooses rest).1] at h
    cases h
  · rw [(gives_failed hpasses hfails rest).1] at h
    cases h
    have harm := hstandard arm (by simp)
    cases hfails with
    | when failed =>
        obtain ⟨m, w, e₀, hfault, -, rfl⟩ := matchPattern_fault failed
        exact .inr ⟨passed.length, _, e₀, .intro hpasses hfault, hfault.fails, rfl⟩
    | custom failed => cases harm

end Selection

/-! ## In a nest of selections -/

open Selection

namespace Consultation

/-- The matcher runs a selection and passes its error on. -/
def Relays (c : Consultation) (arms : List (Arm ρ)) (v : Value) (σ : Store) : Prop :=
  ∀ e, (finish arms v σ).1 = .error e → c.verdict = .failed e

/-- A matcher runs a selection that fails at an arm, where a matcher is asked that runs a
    selection, and so on; the arms are listed innermost first. -/
inductive Nests : Consultation → List Nat → Consultation → Prop where
  | here (c : Consultation) : Nests c [] c
  | through {ρ : Type} {c d b : Consultation} {arms : List (Arm ρ)} {v : Value} {σ : Store}
      {i : Nat} {is : List Nat} (relays : c.Relays arms v σ) (fails : FailsAt v σ arms i d)
      (inner : Nests d is b) : Nests c (is ++ [i]) b

/-- A nested selection without an arm that does not decline makes its matcher fail. -/
theorem Relays.verdict_of_passes {c : Consultation} {arms : List (Arm ρ)} {v : Value} {σ : Store}
    (h : c.Relays arms v σ) {s : State} (hpasses : Passes arms v { store := σ } s) :
    c.verdict = .failed (.ofCause (.nonExhaustive v.typeName)) := by
  exact h _ (congrArg Prod.fst hpasses.finish_eq)

/-- A scripted matcher that runs a selection passes its error on. -/
theorem scripted_relays (name : String) (label : Option String) (test : Condition)
    (yes no : Reaction) (v : Value) (σ : Store) {p : Pattern}
    (h : (if test.holds (Matcher.announce label v (σ.record (.consulted name))) v then yes else no) =
      .nested p) :
    (⟨.scripted name label test yes no, v, σ⟩ : Consultation).Relays
      [Arm.when p fun _ σ => ((), σ)] v
      (Matcher.announce label v (σ.record (.consulted name))) := by
  intro e hfinish
  have hverdict : (⟨.scripted name label test yes no, v, σ⟩ : Consultation).verdict =
      ((Reaction.nested p).judge v
        (Matcher.announce label v (σ.record (.consulted name)))).1 := by
    rw [← h]
    rfl
  rw [hverdict, Reaction.judge]
  generalize finish _ v _ = finished at hfinish ⊢
  obtain ⟨outcome, τ⟩ := finished
  have houtcome : outcome = .error e := hfinish
  rw [houtcome]

/-- The fault at the bottom of a nest comes out at its top: the error that surfaces there has
    the same cause and message, and the notes of the selections on the way. -/
theorem Nests.surfaces {c b : Consultation} {is : List Nat} (h : c.Nests is b) {e : MatchError}
    (hb : b.verdict = .failed e) :
    ∃ e', c.verdict = .failed e' ∧ e'.blame c.matcher.name =
      { e.blame b.matcher.name with notes := e.notes ++ is.map armNote } := by
  induction h with
  | here c =>
      refine ⟨e, hb, ?_⟩
      rw [List.map_nil, List.append_nil, ← MatchError.notes_blame e c.matcher.name]
  | @through ρ c d b arms v σ i is relays fails inner ih =>
      obtain ⟨e', hd, hsurfaces⟩ := ih hb
      obtain ⟨τ, hgives, -⟩ := fails.gives hd
      have hc := relays _ (congrArg Prod.fst hgives)
      refine ⟨_, hc, ?_⟩
      -- the error has a name by now, so it only gets the note
      obtain ⟨matcher, message, hcause⟩ := MatchError.cause_blame e' d.matcher.name
      have hnamed : ((e'.blame d.matcher.name).withNote (armNote i)).cause =
          .capabilityFault matcher message := hcause
      rw [MatchError.blame_of_cause hnamed, hsurfaces, MatchError.withNote, List.map_append,
        ← List.append_assoc]
      rfl

end Consultation

/-- **Faults surface.**  A match fails exactly where the first custom matcher fails, as the
    last thing that it does, and its error is that of the matcher under a name.  A selection
    adds one note, of the arm that failed.  Through nested selections, however many, the fault
    at the bottom keeps its cause and message, and collects one note for each, innermost
    first; a nested selection that finds no arm makes its matcher fail. -/
theorem faults_surface :
    (∀ (p : Pattern) (v : Value) (s t : State) (e : MatchError),
      matchPattern p v s = (.failed e, t) → ∃ m w e₀, FirstFault (visitsAt p none v s) m w e₀ ∧
        t = (w.state.consult m w.value).2 ∧ e₀.Surfaces m.name e ∧
          ∃ matcher message, e.cause = .capabilityFault matcher message) ∧
      (∀ (p : Pattern) (v : Value) (s : State), (matchPattern p v s).2.cache.verdicts =
        s.cache.verdicts ++ (visitsAt p none v s).filterMap Visit.verdict?) ∧
        (∀ {ρ : Type} (arms : List (Arm ρ)) (v : Value) (σ : Store) (e : MatchError),
          (∀ arm ∈ arms, arm.isStandard = true) → (finish arms v σ).1 = .error e →
            (∃ s, Passes arms v { store := σ } s ∧ e = .ofCause (.nonExhaustive v.typeName)) ∨
              ∃ i c e₀ e₁, FailsAt v σ arms i c ∧ c.verdict = .failed e₀ ∧
                e₀.Surfaces c.matcher.name e₁ ∧ e = e₁.withNote (armNote i)) ∧
          (∀ {ρ : Type} (arms : List (Arm ρ)) (v : Value) (σ : Store) (i : Nat)
            (c b : Consultation) (is : List Nat) (e₀ : MatchError), FailsAt v σ arms i c →
              c.Nests is b → b.verdict = .failed e₀ → ∃ e₁ τ, e₀.Surfaces b.matcher.name e₁ ∧
                Gives arms v σ
                  (.error { e₁ with notes := e₀.notes ++ (is ++ [i]).map armNote }, τ)) ∧
            ∀ {ρ : Type} (c : Consultation) (arms : List (Arm ρ)) (v : Value) (σ : Store)
              (s : State), c.Relays arms v σ → Passes arms v { store := σ } s →
                c.verdict = .failed (.ofCause (.nonExhaustive v.typeName)) := by
  refine ⟨?_, ?_, ?_, ?_, ?_⟩
  · intro p v s t e h
    obtain ⟨m, w, e₀, hfault, ht, rfl⟩ := matchPattern_fault h
    exact ⟨m, w, e₀, hfault, ht, e₀.surfaces_blame m.name, e₀.cause_blame m.name⟩
  · intro p v s
    exact (matchAt_attested p none v s).verdicts
  · intro ρ arms v σ e hstandard h
    rcases finish_error hstandard h with hpasses | ⟨i, c, e₀, hfails, hc, rfl⟩
    · exact .inl hpasses
    · exact .inr ⟨i, c, e₀, _, hfails, hc, e₀.surfaces_blame c.matcher.name, rfl⟩
  · intro ρ arms v σ i c b is e₀ hfails hnests hb
    obtain ⟨e', hc, hsurfaces⟩ := hnests.surfaces hb
    obtain ⟨τ, hgives⟩ := hfails.gives hc
    refine ⟨_, τ, e₀.surfaces_blame b.matcher.name, ?_⟩
    rw [hsurfaces, MatchError.withNote] at hgives
    rw [List.map_append, ← List.append_assoc]
    exact hgives
  · intro ρ c arms v σ s hrelays hpasses
    exact hrelays.verdict_of_passes hpasses

namespace Nested

open Consultation

/-- A matcher that always fails, with a message that is not the wording of its cause. -/
def bottom : Matcher :=
  .scripted "bottom" none .always (.fail ⟨.custom "closed", "no entry", ["at the gate"]⟩) .refuse

/-- A matcher that asks the one at the bottom. -/
def middle : Matcher := .scripted "middle" none .always (.nested (.custom bottom)) .refuse

/-- A matcher that asks the one in the middle. -/
def top : Matcher := .scripted "top" none .always (.nested (.custom middle)) .refuse

/-- A matcher whose own selection has one arm, for null. -/
def strict : Matcher := .scripted "strict" none .always (.nested (.literal .null)) .refuse

def arm (p : Pattern) : Arm Unit := .when p fun _ σ => ((), σ)

def value : Value := .bool true

/-- The store once these matchers have been asked, each by the one before. -/
def asked (names : List String) : Store :=
  names.foldl (fun σ name => σ.record (.consulted name)) .empty

/-- The matcher at the top is two selections away from the one at the bottom. -/
theorem nests : (⟨top, value, asked []⟩ : Consultation).Nests [0, 0]
    ⟨bottom, value, asked ["top", "middle"]⟩ := by
  have htop : (⟨top, value, asked []⟩ : Consultation).Relays [arm (.custom middle)] value
      (asked ["top"]) := scripted_relays "top" none .always _ .refuse value .empty rfl
  have hmiddle : (⟨middle, value, asked ["top"]⟩ : Consultation).Relays [arm (.custom bottom)]
      value (asked ["top", "middle"]) :=
    scripted_relays "middle" none .always _ .refuse value (asked ["top"]) rfl
  have houter : FailsAt value (asked ["top"]) [arm (.custom middle)] 0
      ⟨middle, value, asked ["top"]⟩ := failsAt_custom (.nil _ _) ⟨_, rfl⟩ _ []
  have hinner : FailsAt value (asked ["top", "middle"]) [arm (.custom bottom)] 0
      ⟨bottom, value, asked ["top", "middle"]⟩ := failsAt_custom (.nil _ _) ⟨_, rfl⟩ _ []
  have hnests := Nests.through htop houter (.through hmiddle hinner (.here _))
  exact hnests

end Nested

/-- A fault two selections down comes out of a third, where it is the second arm that fails;
    and a matcher whose own selection finds no arm is at fault itself. -/
theorem faults_surface_nested :
    (∃ τ, Gives [Nested.arm (.literal .null), Nested.arm (.custom Nested.top)] Nested.value .empty
      (.error ⟨.capabilityFault "bottom" "no entry", "custom matcher `bottom` failed: no entry",
        ["at the gate", "while evaluating arm 0", "while evaluating arm 0",
          "while evaluating arm 1"]⟩, τ)) ∧
      (⟨Nested.strict, Nested.value, .empty⟩ : Consultation).verdict =
        .failed (.ofCause (.nonExhaustive "boolean")) ∧
        (∃ m w e₀, FirstFault (visitsAt (.custom Nested.strict) none Nested.value {}) m w e₀ ∧
          e₀.Surfaces m.name (.ofCause (.capabilityFault "strict"
            "non-exhaustive match: no arm matched a value of type boolean"))) ∧
          ∃ i c e₀ e₁, FailsAt Nested.value .empty [Nested.arm (.custom Nested.strict)] i c ∧
            c.verdict = .failed e₀ ∧ e₀.Surfaces c.matcher.name e₁ ∧
              (finish [Nested.arm (.custom Nested.strict)] Nested.value .empty).1 =
                .error (e₁.withNote (armNote i)) := by
  obtain ⟨hmatch, -, hfinish, hnest, hstrict⟩ := faults_surface
  refine ⟨?_, ?_, ?_, ?_⟩
  · have hdeclines : Passes [Nested.arm (.literal .null)] Nested.value { store := .empty }
        { store := .empty } := .cons (.when rfl) (.nil _ _)
    have hfails := failsAt_custom hdeclines (m := Nested.top) ⟨_, rfl⟩ (fun _ σ => ((), σ)) []
    -- three arms failed on the way out, the one at the bottom first
    obtain ⟨e₁, τ, hsurfaces, hgives⟩ := hnest _ _ _ _ _ _ _ _ hfails Nested.nests rfl
    cases hsurfaces with
    | same fault => cases fault
    | named other => exact ⟨τ, hgives⟩
  · exact hstrict _ [Nested.arm (.literal .null)] Nested.value _ _
      (Consultation.scripted_relays "strict" none .always _ _ _ _ rfl) (.cons (.when rfl) (.nil _ _))
  · obtain ⟨m, w, e₀, hfault, -, hsurfaces, -⟩ :=
      hmatch (.custom Nested.strict) Nested.value {} _ _ rfl
    exact ⟨m, w, e₀, hfault, hsurfaces⟩
  · have hstandard : ∀ a ∈ [Nested.arm (.custom Nested.strict)], a.isStandard = true := by
      intro a ha
      rw [List.mem_singleton.1 ha]
      rfl
    rcases hfinish _ Nested.value .empty _ hstandard rfl with
      ⟨s, -, hexhausted⟩ | ⟨i, c, e₀, e₁, hfails, hc, hsurfaces, hnote⟩
    · cases hexhausted
    · exact ⟨i, c, e₀, e₁, hfails, hc, hsurfaces, congrArg Except.error hnote⟩

end StructuralMatch
