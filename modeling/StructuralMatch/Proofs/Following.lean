import StructuralMatch.Proofs.Outcome

/-! # Following a plain match

    A match follows a plain match when it comes out the same, given the verdicts that
    custom matchers gave on the way, and when the new questions that it asks are those
    that the plain match asks first.  This composes: a part that follows its plain
    part, and whatever follows for what the part captured. -/

namespace StructuralMatch

open State

/-- A match comes out as a plain match does, given the verdicts that custom matchers gave
    on the way; it asks what the plain match asks, and it copies nothing. -/
def Follows (s : State) (matched : Verdict Bindings × State) (plain : Plain Captures) : Prop :=
  matched.2.cache.copies = s.cache.copies ∧
    ∃ new, matched.2.cache.verdicts = s.cache.verdicts ++ new ∧ ∀ tape,
      matched.1.Agrees matched.2.store (plain (new ++ tape)).verdict ∧
        (plain (new ++ tape)).left = tape ∧
          matched.2.cache.questions =
            Question.noteAll s.cache.questions (plain (new ++ tape)).asked

section Combining

variable {s t : State} {matched : Verdict Bindings × State} {plain : Plain Captures}
  {next : Captures → Plain Captures}

/-- Coming to a verdict. -/
theorem follows_conclude {x : Verdict Bindings} {y : Verdict Captures}
    (h : x.Agrees s.store y) : Follows s (x, s) (.conclude y) :=
  ⟨rfl, [], (List.append_nil _).symm, fun _ => ⟨h, rfl, rfl⟩⟩

theorem follows_refuse (s : State) : Follows s (.unmatched, s) .refuse :=
  follows_conclude trivial

/-- Asking something first. -/
theorem Follows.ask {asked : List Question} (hleaves : Leaves s t asked)
    (h : Follows t matched plain) : Follows s matched (.ask asked plain) := by
  obtain ⟨hcopies, new, hverdicts, hall⟩ := h
  refine ⟨hcopies.trans hleaves.copies, new, hverdicts.trans (by rw [hleaves.verdicts]), ?_⟩
  intro tape
  obtain ⟨hagrees, hleft, hquestions⟩ := hall tape
  refine ⟨hagrees, hleft, ?_⟩
  rw [hquestions, hleaves.questions, ← Question.noteAll_append]
  rfl

/-- Doing something that asks nothing first. -/
theorem Follows.after (hleaves : Leaves s t []) (h : Follows t matched plain) :
    Follows s matched plain := Follows.ask hleaves h

/-- Going on after a part has matched. -/
theorem Follows.andThen_matched {b : Bindings} (h : Follows s (.matched b, t) plain)
    (hnext : ∀ c, b.Realise t.store c → Follows t matched (next c)) :
    Follows s matched (plain.andThen next) := by
  obtain ⟨hcopies, new, hverdicts, hall⟩ := h
  -- the part captures what was bound, whatever verdicts come after its own
  have hpart : ∀ tape, ∃ c asked, b.Realise t.store c ∧
      plain (new ++ tape) = ⟨.matched c, asked, tape⟩ ∧
        t.cache.questions = Question.noteAll s.cache.questions asked := by
    intro tape
    obtain ⟨hagrees, hleft, hquestions⟩ := hall tape
    generalize plain (new ++ tape) = reading at hagrees hleft hquestions ⊢
    obtain ⟨verdict, asked, left⟩ := reading
    cases verdict with
    | matched c => exact ⟨c, asked, hagrees, by rw [← hleft], hquestions⟩
    | unmatched => exact hagrees.elim
    | failed e => exact hagrees.elim
  -- which verdicts come later does not depend on what the part captured
  obtain ⟨c₀, -, hc₀, -⟩ := hpart []
  obtain ⟨hcopies', later, hlater, -⟩ := hnext c₀ hc₀
  refine ⟨hcopies'.trans hcopies, new ++ later, by rw [hlater, hverdicts, List.append_assoc], ?_⟩
  intro tape
  obtain ⟨c, asked, hc, hplain, hasked⟩ := hpart (later ++ tape)
  obtain ⟨-, later', hlater', hall'⟩ := hnext c hc
  have hsame : later' = later := List.append_cancel_left (hlater'.symm.trans hlater)
  subst hsame
  obtain ⟨hagrees, hleft, hquestions⟩ := hall' tape
  have hreading : plain.andThen next (new ++ later' ++ tape) =
      Plain.ask asked (next c) (later' ++ tape) := by
    rw [List.append_assoc, Plain.andThen, hplain]
  rw [hreading]
  refine ⟨hagrees, hleft, ?_⟩
  rw [hquestions, hasked, ← Question.noteAll_append]
  rfl

/-- A part that does not match, or that fails, ends the match. -/
theorem Follows.andThen_of_not_matched {x : Verdict Bindings} (h : Follows s (x, t) plain)
    (hx : ∀ b, x ≠ .matched b) : Follows s (x, t) (plain.andThen next) := by
  obtain ⟨hcopies, new, hverdicts, hall⟩ := h
  refine ⟨hcopies, new, hverdicts, ?_⟩
  intro tape
  obtain ⟨hagrees, hleft, hquestions⟩ := hall tape
  rw [Plain.andThen]
  generalize plain (new ++ tape) = reading at hagrees hleft hquestions ⊢
  obtain ⟨verdict, asked, left⟩ := reading
  cases verdict with
  | matched c =>
      -- what agrees with a verdict that captures something has matched
      cases x with
      | matched b => exact absurd rfl (hx b)
      | unmatched => exact hagrees.elim
      | failed e => exact hagrees.elim
  | _ => exact ⟨hagrees, hleft, hquestions⟩

end Combining

/-- Asking a custom matcher takes its verdict. -/
theorem follows_matchCustom {s : State} (hset : s.Settled) (m : Matcher) (v : Value) :
    Follows s (matchCustom m v s)
      ((Plain.judge.mapError (·.blame m.name)).andThen fun _ => .give []) := by
  have hconsults := consult_consults hset m v
  rw [matchCustom]
  generalize s.consult m v = consulted at hconsults ⊢
  obtain ⟨verdict, t⟩ := consulted
  refine ⟨hconsults.copies, [verdict], hconsults.verdicts, ?_⟩
  intro tape
  cases verdict with
  | matched _ => exact ⟨Bindings.realise_empty _, rfl, hconsults.questions⟩
  | unmatched => exact ⟨trivial, rfl, hconsults.questions⟩
  | failed e => exact ⟨rfl, rfl, hconsults.questions⟩

end StructuralMatch
