import StructuralMatch.Proofs.Closing

/-! # Selections close what they open

    A selection whose arms are tests and patterns is a session: every pattern that it
    tries is a call on its cache, and tests and handlers are other code.  So when it
    comes to an end, its cache is in charge of every iterator that was opened on the
    way, and closing them is the last that the selection does (`closed_once`).

    Programs that run in between may close any iterator themselves.  The balance of
    trace and cells says that even so each was closed once in all. -/

namespace StructuralMatch

open State

variable {ρ : Type}

/-! ## Arms -/

namespace Arm

/-- Whether the arm is a pattern, a test, or matches anything. -/
def isStandard : Arm ρ → Bool
  | .custom _ => false
  | _ => true

/-- The handler of the arm took one store to another and gave the result. -/
def Handles (r : ρ) (v : Value) (τ υ : Store) : Arm ρ → Prop
  | .when _ handler => ∃ b, handler b τ = (r, υ)
  | .whether _ handler | .otherwise handler => handler v τ = (r, υ)
  | .custom _ => False

/-- Trying an arm goes on with the session. -/
theorem evaluate_session {arm : Arm ρ} (hstandard : arm.isStandard = true) (harm : arm.Leads)
    {v : Value} {turns : List Turn} {s : State} (h : Session turns s)
    (held : s.store.holds v = true) : ∃ all, Session all (arm.evaluate v s).2 := by
  cases arm with
  | when p handler =>
      have hcall : Session _ (matchPattern p v s).2 := h.call (.pattern p v) held
      rw [evaluate]
      generalize matchPattern p v s = matched at hcall ⊢
      rcases matched with ⟨b | _ | e, t⟩
      · exact ⟨_, hcall.outside (harm b t.store)⟩
      · exact ⟨_, hcall⟩
      · exact ⟨_, hcall⟩
  | whether test handler =>
      have htest := harm.1 v s.store
      rw [evaluate]
      generalize test v s.store = tested at htest ⊢
      rcases tested with ⟨_ | _, σ⟩
      · exact ⟨_, h.outside htest⟩
      · exact ⟨_, h.outside (htest.trans (harm.2 v σ))⟩
  | otherwise handler => exact ⟨_, h.outside (harm v s.store)⟩
  | custom evaluate => cases hstandard

/-- When an arm matches, its handler has run last. -/
theorem evaluate_handles {arm : Arm ρ} (hstandard : arm.isStandard = true) {v : Value}
    {s t : State} {r : ρ} (hmatch : arm.evaluate v s = (.matched r, t)) :
    ∃ τ, arm.Handles r v τ t.store := by
  cases arm with
  | when p handler =>
      rw [evaluate] at hmatch
      generalize matchPattern p v s = matched at hmatch
      rcases matched with ⟨b | _ | e, u⟩
      · cases hmatch
        exact ⟨u.store, b, rfl⟩
      · cases hmatch
      · cases hmatch
  | whether test handler =>
      rw [evaluate] at hmatch
      generalize test v s.store = tested at hmatch
      rcases tested with ⟨_ | _, σ⟩
      · cases hmatch
      · cases hmatch
        exact ⟨σ, rfl⟩
  | otherwise handler =>
      cases hmatch
      exact ⟨s.store, rfl⟩
  | custom evaluate => cases hstandard

end Arm

namespace Selection

/-- Trying arms in order goes on with the session. -/
theorem select_session {v : Value} : ∀ (arms : List (Arm ρ)) (index : Nat) {turns : List Turn}
    {s : State}, (∀ arm ∈ arms, arm.isStandard = true ∧ arm.Leads) → Session turns s →
      s.store.holds v = true → ∃ all, Session all (select arms index v s).2
  | [], _, _, _, _, h, _ => ⟨_, h⟩
  | arm :: arms, index, turns, s, harms, h, held => by
      obtain ⟨hstandard, harm⟩ := harms arm (List.mem_cons_self ..)
      obtain ⟨all, hevaluate⟩ := arm.evaluate_session hstandard harm h held
      have held' := (Arm.evaluate_leads harm v s).keeps.holds held
      rw [select]
      generalize arm.evaluate v s = evaluated at hevaluate held' ⊢
      rcases evaluated with ⟨r | _ | e, t⟩
      · exact ⟨all, hevaluate⟩
      · exact select_session arms (index + 1)
          (fun a ha => harms a (List.mem_cons_of_mem _ ha)) hevaluate held'
      · exact ⟨all, hevaluate⟩

/-- When an arm is selected, its handler has run last. -/
theorem select_handles {v : Value} : ∀ (arms : List (Arm ρ)) (index : Nat) {s t : State} {r : ρ},
    (∀ arm ∈ arms, arm.isStandard = true) → select arms index v s = (.matched r, t) →
      ∃ arm ∈ arms, ∃ τ, arm.Handles r v τ t.store
  | [], _, _, _, _, _, hselect => nomatch hselect
  | arm :: arms, index, s, t, r, harms, hselect => by
      have hhandles := @Arm.evaluate_handles ρ arm (harms arm (List.mem_cons_self ..)) v s
      rw [select] at hselect
      generalize arm.evaluate v s = evaluated at hhandles hselect
      rcases evaluated with ⟨r' | _ | e, u⟩
      · cases hselect
        exact ⟨arm, List.mem_cons_self .., hhandles rfl⟩
      · obtain ⟨arm', harm', hlast⟩ := select_handles arms (index + 1)
          (fun a ha => harms a (List.mem_cons_of_mem _ ha)) hselect
        exact ⟨arm', List.mem_cons_of_mem _ harm', hlast⟩
      · cases hselect

/-! ## The end of a selection -/

/-- The state in which a selection begins to close: an arm was selected and its handler has
    run, or an arm failed, or none was selected and the fallback, if any, has run. -/
def last (fallback : Option (Value → Store → ρ × Store)) (arms : List (Arm ρ)) (v : Value)
    (σ : Store) : State :=
  match select arms 0 v { store := σ }, fallback with
  | (.unmatched, s), some fallback => { s with store := (fallback v s.store).2 }
  | (_, s), _ => s

/-- A handler of an arm, or the fallback, gave the result and left the store like this. -/
def Handled (fallback : Option (Value → Store → ρ × Store)) (arms : List (Arm ρ)) (v : Value)
    (r : ρ) (υ : Store) : Prop :=
  (∃ arm ∈ arms, ∃ τ, arm.Handles r v τ υ) ∨ ∃ f ∈ fallback, ∃ τ, f v τ = (r, υ)

/-- How a selection that began in one store ends, when `s` is the state in which it begins
    to close. -/
structure ClosesUp (fallback : Option (Value → Store → ρ × Store)) (arms : List (Arm ρ))
    (v : Value) (σ : Store) (s : State) (outcome : Except MatchError ρ × Store) : Prop where
  /-- The handler or the fallback has run before. -/
  handled : ∀ r, outcome.1 = .ok r → Handled fallback arms v r s.store
  /-- Then the selection closes what is still open, in the order in which it was opened, and
      does nothing else. -/
  closing : outcome.2 = s.close.2.store
  events : outcome.2.events = s.store.events ++ s.cache.opened.filterMap s.closing?
  /-- In the end all is closed that was opened. -/
  known : ∀ e ∈ s.cache.log, ∀ h ∈ e.access.handle?, h ∈ s.handedOut
  closed : ∀ h ∈ s.handedOut, s.close.2.isClosed h = true
  /-- Every iterator was closed once, and if it was open before the selection, since then. -/
  once : ∀ i, .cell i ∈ s.handedOut → outcome.2.closings i = 1
  since : ∀ i, .cell i ∈ s.handedOut → σ.isClosed i = false →
    (outcome.2.events.drop σ.events.length).count (.closed i) = 1

/-- A state of a session that goes on from a store closes up. -/
theorem closesUp_of_session {fallback : Option (Value → Store → ρ × Store)} {arms : List (Arm ρ)}
    {v : Value} {σ : Store} {s : State} {turns : List Turn} (h : Session turns s)
    (hσ : σ.Balanced) (hleads : σ.Leads s.store) {outcome : Except MatchError ρ × Store}
    (hclosing : outcome.2 = s.close.2.store)
    (hhandled : ∀ r, outcome.1 = .ok r → Handled fallback arms v r s.store) :
    ClosesUp fallback arms v σ s outcome := by
  have hcharged := h.charged
  have hbalanced : outcome.2.Balanced := by
    rw [hclosing]
    exact h.close.leads.balanced Store.balanced_empty
  have honce : ∀ i, .cell i ∈ s.handedOut → outcome.2.closings i = 1 := by
    intro i hi
    have hclosed : s.close.2.store.isClosed i = true := hcharged.isClosed_close (.cell i) hi
    -- however often programs close it, the trace shows it once
    rw [hbalanced i, hclosing, hclosed]
    rfl
  refine ⟨hhandled, hclosing, ?_, hcharged.known, hcharged.isClosed_close, honce, ?_⟩
  · rw [hclosing]
    exact hcharged.closesAll.events
  · intro i hi hopen
    obtain ⟨new, hnew, -⟩ := (hleads.trans s.close_leads).events
    have hall := honce i hi
    -- an iterator that was open has never been closed, so the one time was since
    have hbefore : σ.events.count (.closed i) = 0 := by
      have hcount := hσ i
      rwa [hopen] at hcount
    rw [Store.closings, hclosing, hnew, List.count_append, hbefore, Nat.zero_add] at hall
    rw [hclosing, hnew, List.drop_left, hall]

section Ends

variable {arms : List (Arm ρ)} {v : Value} {σ : Store} (made : Store.empty.Leads σ)
  (held : σ.holds v = true) (harms : ∀ arm ∈ arms, arm.isStandard = true ∧ arm.Leads)

include made held harms

/-- A selection without a fallback closes up. -/
theorem finish_closesUp : ClosesUp none arms v σ (last none arms v σ) (finish arms v σ) := by
  obtain ⟨turns, hsession⟩ := select_session arms 0 harms (.start made) held
  have hleads := select_leads v arms 0 { store := σ } fun arm harm => (harms arm harm).2
  have hhandles := @select_handles ρ v arms 0 { store := σ }
  have hσ := made.balanced Store.balanced_empty
  simp only [last, finish]
  generalize select arms 0 v { store := σ } = selected at hsession hleads hhandles ⊢
  rcases selected with ⟨r | _ | e, s⟩
  · refine closesUp_of_session hsession hσ hleads rfl ?_
    rintro r' hr
    cases hr
    exact .inl (hhandles (fun arm harm => (harms arm harm).1) rfl)
  · exact closesUp_of_session hsession hσ hleads rfl (by simp)
  · exact closesUp_of_session hsession hσ hleads rfl (by simp)

/-- A selection with a fallback closes up after the fallback. -/
theorem otherwise_closesUp {fallback : Value → Store → ρ × Store}
    (hfallback : ∀ (w : Value) (τ : Store), τ.Leads (fallback w τ).2) :
    ClosesUp (some fallback) arms v σ (last (some fallback) arms v σ)
      (otherwise arms fallback v σ) := by
  obtain ⟨turns, hsession⟩ := select_session arms 0 harms (.start made) held
  have hleads := select_leads v arms 0 { store := σ } fun arm harm => (harms arm harm).2
  have hhandles := @select_handles ρ v arms 0 { store := σ }
  have hσ := made.balanced Store.balanced_empty
  simp only [last, otherwise]
  generalize select arms 0 v { store := σ } = selected at hsession hleads hhandles ⊢
  rcases selected with ⟨r | _ | e, s⟩
  · refine closesUp_of_session hsession hσ hleads rfl ?_
    rintro r' hr
    cases hr
    exact .inl (hhandles (fun arm harm => (harms arm harm).1) rfl)
  · refine closesUp_of_session (hsession.outside (hfallback v s.store)) hσ
      (hleads.trans (hfallback v s.store)) rfl ?_
    rintro r hr
    cases hr
    exact .inr ⟨fallback, rfl, s.store, rfl⟩
  · exact closesUp_of_session hsession hσ hleads rfl (by simp)

end Ends

end Selection

/-- **Everything is closed once**: the cache of a session has each iterator that it was
    handed in its list once, or it is closed; closing closes that list and nothing else;
    and a selection ends by closing all that was opened on the way, once and after its
    handler or fallback has run, whatever programs close in between. -/
theorem closed_once :
    (∀ {turns : List Turn} {s : State}, Session turns s →
      (∀ h ∈ s.handedOut, s.cache.opened.count h = 1 ∨ s.isClosed h = true) ∧
        s.Charged ∧ (∀ t, Works s t → s.handedOut <+: t.handedOut) ∧
          ClosesAll s s.close.2 s.close.1) ∧
      ∀ {ρ : Type} (arms : List (Arm ρ)) (v : Value) (σ : Store), Store.empty.Leads σ →
        σ.holds v = true → (∀ arm ∈ arms, arm.isStandard = true ∧ arm.Leads) →
          Selection.ClosesUp none arms v σ (Selection.last none arms v σ)
              (Selection.finish arms v σ) ∧
            ∀ fallback : Value → Store → ρ × Store,
              (∀ (w : Value) (τ : Store), τ.Leads (fallback w τ).2) →
                Selection.ClosesUp (some fallback) arms v σ
                  (Selection.last (some fallback) arms v σ)
                  (Selection.otherwise arms fallback v σ) := by
  refine ⟨fun h => ⟨h.charged.count_opened, h.charged, fun t hworks => hworks.handedOut_extends,
    h.charged.closesAll⟩, ?_⟩
  intro ρ arms v σ made held harms
  exact ⟨Selection.finish_closesUp made held harms,
    fun fallback hfallback => Selection.otherwise_closesUp made held harms hfallback⟩

namespace Fickle

/-- Leave a message. -/
def leave (message : String) (σ : Store) : Unit × Store := ((), σ.record (.note message))

/-- The short pattern, which does not match, and then the long one, which does. -/
def arms : List (Arm Unit) :=
  [.when short.toPattern fun _ => leave "short", .when long.toPattern fun _ => leave "long"]

theorem leave_leads (message : String) (σ : Store) : σ.Leads (leave message σ).2 :=
  (Store.Change.remark σ (.note message) trivial trivial).reaches

theorem arms_standard : ∀ arm ∈ arms, arm.isStandard = true ∧ arm.Leads := by
  intro arm harm
  simp only [arms, List.mem_cons, List.not_mem_nil, or_false] at harm
  rcases harm with rfl | rfl
  · exact ⟨rfl, fun _ => leave_leads _⟩
  · exact ⟨rfl, fun _ => leave_leads _⟩

end Fickle

/-- The iterator that a getter made for the arms is closed once, when the handler has run,
    and so it is when the fallback has run. -/
theorem closed_once_fickle :
    Fickle.finish.isClosed (.cell 0) = false ∧ Fickle.finish.close.1 = 1 ∧
      ClosesAll Fickle.finish Fickle.finish.close.2 Fickle.finish.close.1 ∧
        Selection.ClosesUp none Fickle.arms (.ref (.object 0)) Fickle.start.store
          (Selection.last none Fickle.arms (.ref (.object 0)) Fickle.start.store)
          (Selection.finish Fickle.arms (.ref (.object 0)) Fickle.start.store) ∧
          (Selection.finish Fickle.arms (.ref (.object 0)) Fickle.start.store).2.events.drop 4 =
            [.note "long", .closed 0] ∧
            (Selection.otherwise (Fickle.arms.take 1) (fun _ => Fickle.leave "none")
              (.ref (.object 0)) Fickle.start.store).2.events.drop 3 =
                [.note "none", .closed 0] := by
  have hstart : Store.empty.Leads Fickle.start.store := Fickle.blueprint.build_reaches .empty
  exact ⟨by decide, by decide, (closed_once.1 Fickle.session).2.2.2,
    (closed_once.2 Fickle.arms (.ref (.object 0)) Fickle.start.store hstart (by decide)
      Fickle.arms_standard).1, by decide, by decide⟩

end StructuralMatch
