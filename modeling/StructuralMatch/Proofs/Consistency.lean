import StructuralMatch.Proofs.Session

/-! # One snapshot for all calls

    However stateful the getters, factories and sources behind its values are, a
    session looks as if all values had been frozen before its first call: there is
    one snapshot, made of what the cache recorded, and every call came out as the
    plain match on it (`Session.consistent`).

    The snapshot is that of the last state.  It covers all states before, so the
    induction along the session is for any snapshot that covers the last state. -/

namespace StructuralMatch

open State

/-! ## Plain matches without custom matchers -/

/-- A plain match that needs no verdicts. -/
def Plain.Tapeless {α : Type} (r : Plain α) : Prop :=
  ∃ verdict asked, ∀ tape, r tape = ⟨verdict, asked, tape⟩

namespace Plain

variable {α β : Type}

theorem tapeless_conclude (verdict : Verdict α) : (conclude verdict).Tapeless :=
  ⟨verdict, [], fun _ => rfl⟩

theorem Tapeless.ask {r : Plain α} (h : r.Tapeless) (asked : List Question) :
    (Plain.ask asked r).Tapeless := by
  obtain ⟨verdict, more, hr⟩ := h
  exact ⟨verdict, asked ++ more, fun tape => by rw [Plain.ask, hr]⟩

theorem Tapeless.andThen {r : Plain α} (h : r.Tapeless) {next : α → Plain β}
    (hnext : ∀ a, (next a).Tapeless) : (r.andThen next).Tapeless := by
  obtain ⟨verdict, asked, hr⟩ := h
  cases verdict with
  | matched a =>
      obtain ⟨verdict, more, hn⟩ := hnext a
      refine ⟨verdict, asked ++ more, ?_⟩
      intro tape
      rw [Plain.andThen, hr]
      dsimp only
      rw [Plain.ask, hn]
  | unmatched => exact ⟨.unmatched, asked, fun tape => by rw [Plain.andThen, hr]⟩
  | failed e => exact ⟨.failed e, asked, fun tape => by rw [Plain.andThen, hr]⟩

end Plain

namespace Snapshot

mutual

/-- Where no matcher is asked, no verdict is needed. -/
theorem readAt_tapeless (S : Snapshot) : ∀ (p : Pattern) (place : Option Key) (v : Value),
    p.customFree = true → (S.readAt p place v).Tapeless
  | .custom m, place, v, hfree => nomatch hfree
  | .identifier name, place, v, hfree => by
      rw [readAt]
      exact Plain.tapeless_conclude _
  | .rest name, place, v, hfree => by
      rw [readAt]
      exact Plain.tapeless_conclude _
  | .regex r, place, v, hfree => by
      rw [readAt]
      exact Plain.tapeless_conclude _
  | .literal q, place, v, hfree => by
      rw [readAt]
      split <;> exact Plain.tapeless_conclude _
  | .array elements, place, .prim q, hfree => by
      have hfree : Pattern.everyElement Pattern.asksNoMatcher elements = true := hfree
      cases q with
      | text text =>
          rw [readAt]
          exact readElements_tapeless S elements _ 0 [] hfree
      | _ =>
          rw [readAt]
          · exact Plain.tapeless_conclude _
          · intro text htext
            cases htext
  | .array elements, place, .ref r, hfree => by
      have hfree : Pattern.everyElement Pattern.asksNoMatcher elements = true := hfree
      rw [readAt]
      split
      · exact (readElements_tapeless S elements _ 0 [] hfree).ask _
      · exact Plain.tapeless_conclude _
  | .object entries marker, place, .prim q, hfree => by
      rw [readAt]
      exact Plain.tapeless_conclude _
  | .object entries marker, place, .ref r, hfree => by
      have hfree : Pattern.everyEntry Pattern.asksNoMatcher entries = true := hfree
      rw [readAt]
      exact readEntries_tapeless S entries r [] hfree

theorem readEntries_tapeless (S : Snapshot) : ∀ (entries : List (Key × Pattern)) (r : Ref)
    (c : Captures), Pattern.everyEntry Pattern.asksNoMatcher entries = true →
      (S.readEntries entries r c).Tapeless
  | [], r, c, hfree => by
      rw [readEntries]
      exact Plain.tapeless_conclude _
  | (k, p) :: entries, r, c, hfree => by
      obtain ⟨hfreep, hfree⟩ := Bool.and_eq_true_iff.1 hfree
      rw [readEntries]
      split
      · exact ((readAt_tapeless S p (some k) _ hfreep).andThen fun d =>
          readEntries_tapeless S entries r (c.insertAll d) hfree).ask _
      · exact Plain.tapeless_conclude _

theorem readElements_tapeless (S : Snapshot) : ∀ (elements : List (Option Pattern))
    (feed : Feed) (position : Nat) (c : Captures),
      Pattern.everyElement Pattern.asksNoMatcher elements = true →
        (S.readElements elements feed position c).Tapeless
  | [], feed, position, c, hfree => by
      rw [readElements]
      split <;> exact (Plain.tapeless_conclude _).ask _
  | none :: elements, feed, position, c, hfree => by
      rw [readElements]
      split
      · exact (readElements_tapeless S elements feed (position + 1) c hfree).ask _
      · exact (Plain.tapeless_conclude _).ask _
  | some p :: elements, feed, position, c, hfree => by
      obtain ⟨hfreep, hfree⟩ := Bool.and_eq_true_iff.1 hfree
      rw [readElements]
      split
      · exact (Plain.tapeless_conclude _).ask _
      · split
        · exact ((readAt_tapeless S p (some (.index position)) _ hfreep).andThen fun d =>
            readElements_tapeless S elements feed (position + 1) (c.insertAll d) hfree).ask _
        · exact (Plain.tapeless_conclude _).ask _

end

end Snapshot

/-- A call without custom matchers needs no verdicts. -/
theorem Call.plain_tapeless (S : Snapshot) (c : Call) (hfree : c.toPattern.customFree = true) :
    (c.plain S).Tapeless := by
  cases c with
  | pattern p v => exact S.readAt_tapeless p none v hfree
  | object o v => exact S.readAt_tapeless o.toPattern none v hfree
  | array a i => exact S.readElements_tapeless a.elements _ 0 [] hfree

/-! ## Along a session -/

namespace Session

variable {turns : List Turn} {s : State}

/-- Every call without named remainders came out as its plain match on any snapshot that
    covers the state in the end, given the verdicts that it got. -/
theorem agrees (h : Session turns s) {S : Snapshot} (hS : S.Covers s) :
    ∀ turn ∈ turns, turn.call.toPattern.remainderFree = true → ∀ tape,
      turn.outcome.Agrees s.store (turn.call.plain S (turn.verdicts ++ tape)).verdict ∧
        (turn.call.plain S (turn.verdicts ++ tape)).left = tape := by
  induction h with
  | start made =>
      intro turn hturn
      cases hturn
  | @call turns s before c held ih =>
      have hproceeds := c.perform_proceeds before.sound before.settled held
      have hold := ih (hS.before before.sound hproceeds.works)
      intro turn hturn hfree tape
      rcases List.mem_append.1 hturn with hturn | hturn
      · obtain ⟨hagrees, hleft⟩ := hold turn hturn hfree tape
        exact ⟨hagrees.keeps hproceeds.works.leads.keeps, hleft⟩
      · rw [List.mem_singleton.1 hturn] at hfree ⊢
        obtain ⟨-, new, hverdicts, hall⟩ :=
          c.perform_follows hfree before.sound before.settled held hS
        have hnew : (c.turn s).verdicts = new := List.append_cancel_left
          ((c.turn_verdicts before.sound before.settled held).symm.trans hverdicts)
        rw [hnew]
        exact ⟨(hall tape).1, (hall tape).2.1⟩
  | @close turns s before ih =>
      have hremembers := s.close_remembers
      have hcovers := hS.earlier before.sound (hremembers.sound before.sound) s.close_leads
        (hremembers.log ▸ List.prefix_refl _)
      intro turn hturn hfree tape
      obtain ⟨hagrees, hleft⟩ := ih hcovers turn hturn hfree tape
      exact ⟨hagrees.keeps s.close_leads.keeps, hleft⟩
  | @outside turns s before σ done ih =>
      have hcovers := hS.earlier before.sound (before.sound.outside done) done
        (List.prefix_refl _)
      intro turn hturn hfree tape
      obtain ⟨hagrees, hleft⟩ := ih hcovers turn hturn hfree tape
      exact ⟨hagrees.keeps done.keeps, hleft⟩

end Session

/-- A snapshot that is made of what a cache recorded: each property reads as the one value
    that was read of it, each value has the one iterator that was opened for it, and each
    iterator has the values that it yielded when it was advanced. -/
structure Snapshot.RecordedIn (S : Snapshot) (s : State) : Prop where
  property : ∀ (r : Ref) (k : Key),
    s.cache.readings r k = [] ∨ s.cache.readings r k = [S.property r k]
  iterator : ∀ r : Ref, s.cache.openings r = (S.iterator r).toList
  yields : ∀ i : Nat, S.yields i = (s.cache.advances i).filterMap (·.1.value?)
  present : ∀ (r : Ref) (k : Key), S.present r k = s.store.hasProperty (.ref r) k
  text : ∀ v : Value, S.text v = s.store.text v

/-- The snapshot of a sound state is made of what was recorded. -/
theorem State.Sound.snapshot_recordedIn {s : State} (hs : s.Sound) : s.snapshot.RecordedIn s where
  property := by
    intro r k
    show _ ∨ _ = [(s.cache.readings r k).headD .undefined]
    rw [hs.faithful.readings]
    cases s.cache.property? (.ref r) k with
    | none => exact .inl rfl
    | some x => exact .inr rfl
  iterator := by
    intro r
    show _ = (s.cache.openings r).head?.toList
    rw [hs.faithful.openings]
    cases s.cache.sources.get? r <;> rfl
  yields := fun _ => rfl
  present := fun _ _ => rfl
  text := fun _ => rfl

/-- **Snapshot consistency**: all calls of a session that use neither custom matchers nor
    named remainders came out as plain matches on one snapshot, made of what the cache
    recorded. -/
theorem Session.consistent {turns : List Turn} {s : State} (h : Session turns s) :
    ∃ S : Snapshot, S.RecordedIn s ∧ ∀ turn ∈ turns,
      turn.call.toPattern.remainderFree = true → turn.call.toPattern.customFree = true →
        turn.outcome.Agrees s.store (turn.call.plain S []).verdict := by
  refine ⟨s.snapshot, h.sound.snapshot_recordedIn, ?_⟩
  intro turn hturn hfree hcustom
  obtain ⟨verdict, asked, hplain⟩ := turn.call.plain_tapeless s.snapshot hcustom
  obtain ⟨hagrees, -⟩ := h.agrees h.sound.covers_snapshot turn hturn hfree []
  rw [hplain] at hagrees ⊢
  exact hagrees

/-- A match that failed and one that came after it saw the same object, though its getter
    would have made a new iterator for the second. -/
theorem Session.consistent_fickle :
    (∃ S : Snapshot, S.RecordedIn Fickle.finish ∧ ∀ turn ∈ Fickle.turns,
      turn.outcome.Agrees Fickle.finish.store (turn.call.plain S []).verdict) ∧
        Fickle.turns.map (·.outcome) =
          [.unmatched, .matched (.insert (.single ⟨"x"⟩ (.text "one")) ⟨"xs"⟩ (.ref (.array 0)))] := by
  refine ⟨?_, by decide⟩
  have hplain : ∀ turn ∈ Fickle.turns, turn.call.toPattern.remainderFree = true ∧
      turn.call.toPattern.customFree = true := by
    decide
  obtain ⟨S, hS, hall⟩ := Session.consistent Fickle.session
  exact ⟨S, hS, fun turn hturn => hall turn hturn (hplain turn hturn).1 (hplain turn hturn).2⟩

end StructuralMatch
