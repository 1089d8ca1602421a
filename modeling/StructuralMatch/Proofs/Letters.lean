import StructuralMatch.Proofs.Abreast
import StructuralMatch.Proofs.Footprint
import StructuralMatch.Proofs.Guarding

/-! # Matching letters

    A primitive has no cells behind it, so what becomes of it depends on the pattern
    and on nothing else (`Pattern.onPrimitive`).  The same goes for elements that are
    letters, wherever the letters come from: from a text that is being spelled, or
    from an iterator (`Pattern.onLetters`, `matchElements_letters`).

    For a primitive nothing happens to the iterators of the store
    (`State.Aloof`), so an iterator that has letters to give still has them after
    one of them was matched. -/

namespace StructuralMatch

namespace Pattern

mutual

/-- The outcome of matching a pattern against a primitive that stands at a place. -/
def onPrimitive : Pattern → (place : Option Key) → Primitive → Verdict Captures
  | .custom m, _, q => ((m.judge (.prim q) .empty).1.map fun _ => []).mapError (·.blame m.name)
  | .identifier name, place, q => .matched (Snapshot.captureOne name place (.prim q))
  | .rest _, _, _ => .matched []
  | .regex r, _, q => Snapshot.captureGroups r q.toText
  | .literal p, _, q => if (Value.prim p).same (.prim q) then .matched [] else .unmatched
  | .array elements, _, .text s => onLetters elements s.toList 0 []
  | .array _, _, _ => .unmatched
  | .object _ _, _, _ => .unmatched

/-- The outcome of matching elements against letters from a position on; `c` is captured
    already. -/
def onLetters : List (Option Pattern) → List Char → (position : Nat) → Captures →
    Verdict Captures
  | [], letters, _, c => if letters.isEmpty then .matched c else .unmatched
  | none :: elements, letters, position, c =>
      match letters with
      | [] => .unmatched
      | _ :: letters => onLetters elements letters (position + 1) c
  | some p :: elements, letters, position, c =>
      match p.trailing? elements with
      | some name => .matched (Snapshot.captureRest name (Spelling.letters letters) c)
      | none =>
          match letters with
          | [] => .unmatched
          | letter :: letters =>
              match onPrimitive p (some (.index position)) (.text (String.singleton letter)) with
              | .matched d => onLetters elements letters (position + 1) (c.insertAll d)
              | other => other

end

end Pattern

namespace State

variable {s t u : State} {g : Handle} {p : Nat}

/-! ## Leaving iterators alone -/

/-- Nothing has happened to the iterators of the store, nor to what is known of them. -/
structure Aloof (s t : State) : Prop where
  cells : ∀ i : Nat, t.cache.memos.get? (.cell i) = s.cache.memos.get? (.cell i)
  store : s.store.Reaches Event.IsRemark t.store

theorem Aloof.refl (s : State) : Aloof s s := ⟨fun _ => rfl, .refl _⟩

/-- One operation after another leaves them alone. -/
theorem Aloof.trans (h₁ : Aloof s t) (h₂ : Aloof t u) : Aloof s u :=
  ⟨fun i => (h₂.cells i).trans (h₁.cells i), h₁.store.trans h₂.store⟩

/-- Spelling begins under a handle of its own. -/
theorem spell_aloof (s : State) (text : String) : Aloof s (s.spell text).2 :=
  ⟨fun _ => Cache.get?_adopt_of_ne Handle.noConfusion _, .refl _⟩

/-- The cache takes charge of the text only. -/
theorem adopt_aloof (s : State) (n : Nat) : Aloof s (s.adopt (.text n)) :=
  ⟨fun _ => Cache.get?_adopt_of_ne Handle.noConfusion _, .refl _⟩

/-- A letter more is learned of the text only. -/
theorem pull_aloof (s : State) (add : Memo → Step → Memo) (n : Nat) :
    Aloof s (s.pull add (.text n)).2 :=
  ⟨fun _ => Cache.get?_learn_of_ne Handle.noConfusion _ _, .refl _⟩

theorem step_aloof (s : State) (n p : Nat) : Aloof s (s.step (.text n) p).2 :=
  step_preserves (s.adopt_aloof n) (fun t ht => ht.trans (t.pull_aloof _ n)) p

theorem drainFrom_aloof (s : State) (n p : Nat) : Aloof s (s.drainFrom (.text n) p).2 :=
  drainFrom_preserves (s.adopt_aloof n) (fun t ht => ht.trans (t.pull_aloof _ n)) p

/-- The array of the rest is no iterator. -/
theorem bindCollected_aloof (name : Option Key) (items : List Value) (b : Bindings) (s : State) :
    Aloof s (bindCollected name items b s).2 := by
  cases name with
  | none => exact .refl s
  | some name => exact ⟨fun _ => rfl, (Store.Change.array s.store items).reaches⟩

/-- Asking a matcher that acts on the value only about a primitive. -/
theorem consult_aloof {m : Matcher} (hm : m.ActsOnValue) (q : Primitive) (s : State) :
    Aloof s (s.consult m (.prim q)).2 :=
  ⟨fun _ => rfl, (Store.Change.remark s.store (.consulted m.name) trivial trivial).reaches.trans
    (hm.remarks q _)⟩

/-! ## Handles that give letters -/

/-- From a position on, a handle gives these letters and is done then. -/
inductive Deals (s : State) : Handle → (position : Nat) → List Char → Prop where
  | text {n p : Nat} {text : String} (spells : s.Spells n text) (reached : s.Reached (.text n) p) :
      Deals s (.text n) p (text.toList.drop p)
  | cell {i : Nat} {ys : List Value} {letters : List Char} (usable : s.Usable (.cell i))
      (memo : s.cache.memo (.cell i) = .reads ys false)
      (supplies : s.store.Supplies (· = i) i (Spelling.letters letters)) :
      Deals s (.cell i) ys.length letters

variable {letter : Char} {letters : List Char}

/-- A handle that gives letters can be used. -/
theorem Deals.usable (h : Deals s g p letters) : s.Usable g := by
  cases h with
  | text spells reached => exact spells.usable
  | cell usable memo supplies => exact usable

/-- Its position has been reached. -/
theorem Deals.reached (h : Deals s g p letters) : s.Reached g p := by
  cases h with
  | text spells reached => exact reached
  | @cell i ys letters usable memo supplies =>
      exact ⟨ys, false, memo ▸ Memo.stands_reads ys false, Nat.le_refl _⟩

/-- Where iterators are left alone, a handle goes on giving its letters. -/
theorem Deals.later (h : Deals s g p letters) (hw : Works s t) (haloof : Aloof s t) :
    Deals t g p letters := by
  cases h with
  | text spells reached => exact .text (spells.later hw) (hw.reached reached)
  | @cell i ys letters usable memo supplies =>
      refine .cell (hw.usable usable) ?_ (supplies.after (haloof.store.mono ?_))
      · rw [Cache.memo, haloof.cells, ← Cache.memo, memo]
      · rintro e he j -
        cases e <;> first | exact id | exact he.elim

/-- A handle has been asked for a value or for all of them; if it spells a text, iterators
    were left alone. -/
structure Dealt (g : Handle) (s t : State) : Prop where
  proceeds : Proceeds s t
  aloof : ∀ n, g = .text n → Aloof s t

/-- A read at the position leaves everything else as it should be. -/
theorem Deals.dealt (h : Deals s g p letters) (hs : s.Sound) (hset : s.Settled) :
    Dealt g s (s.step g p).2 where
  proceeds := (step_reached hs hset h.usable h.reached).1
  aloof := fun n hn => hn ▸ s.step_aloof n p

/-- Behind its letters a handle is done. -/
theorem Deals.done (h : Deals s g p []) (hs : s.Sound) (hset : s.Settled) :
    ∃ t, s.step g p = (.done, t) ∧ Dealt g s t := by
  suffices hdone : (s.step g p).1 = .done from ⟨_, Prod.ext hdone rfl, h.dealt hs hset⟩
  generalize hletters : ([] : List Char) = letters at h
  cases h with
  | @text n p text spells reached =>
      -- no letter is left from the position on, so the step there is the end
      have hnone : (Spelling.letters text.toList)[p]? = none := by
        rw [Spelling.letters, List.getElem?_map, ← List.head?_drop, ← hletters]
        rfl
      rw [step_text hs hset spells reached, hnone]
      rfl
  | cell usable memo supplies =>
      subst hletters
      obtain ⟨t, hstep, -⟩ := step_exhausted memo supplies
      rw [hstep]

/-- A handle gives its next letter, and the others are left. -/
theorem Deals.yielded (h : Deals s g p (letter :: letters)) (hs : s.Sound) (hset : s.Settled) :
    ∃ t, s.step g p = (.yielded (.text (String.singleton letter)), t) ∧ Dealt g s t ∧
      Deals t g (p + 1) letters := by
  have hdealt := h.dealt hs hset
  suffices hnext : (s.step g p).1 = .yielded (.text (String.singleton letter)) ∧
      Deals (s.step g p).2 g (p + 1) letters from ⟨_, Prod.ext hnext.1 rfl, hdealt, hnext.2⟩
  have hyielded := (step_reached hs hset h.usable h.reached).2
  generalize hall : letter :: letters = all at h
  cases h with
  | @text n p text spells reached =>
      -- the first of the letters that are left stands at the position
      have hsome : (Spelling.letters text.toList)[p]? = some (.text (String.singleton letter)) := by
        rw [Spelling.letters, List.getElem?_map, ← List.head?_drop, ← hall]
        rfl
      have hstep : (s.step (.text n) p).1 = .yielded (.text (String.singleton letter)) := by
        rw [step_text hs hset spells reached, hsome]
        rfl
      have hrest : letters = text.toList.drop (p + 1) := by
        rw [← List.tail_drop, ← hall]
        rfl
      rw [hrest]
      exact ⟨hstep, .text (spells.later hdealt.proceeds.works) (hyielded _ hstep).1⟩
  | @cell i ys all usable memo supplies =>
      subst hall
      obtain ⟨t, hstep, hadvances, hsupplies⟩ := step_supplied memo supplies
      have husable := hdealt.proceeds.works.usable usable
      rw [hstep] at husable ⊢
      -- the memo holds the letter now, so its length is the next position
      have hposition : ys.length + 1 = (ys ++ [Value.text (String.singleton letter)]).length := by
        simp
      rw [hposition]
      exact ⟨rfl, .cell husable hadvances.memo hsupplies⟩

/-- A drain gives all letters that are left. -/
theorem Deals.drained (h : Deals s g p letters) (hs : s.Sound) (hset : s.Settled) :
    ∃ t, s.drainFrom g p = (Spelling.letters letters, t) ∧ Dealt g s t := by
  have hproceeds := (drainFrom_proceeds hs hset h.usable h.reached).1
  refine ⟨_, Prod.ext ?_ rfl, hproceeds, fun n hn => hn ▸ s.drainFrom_aloof n p⟩
  cases h with
  | text spells reached =>
      rw [drainFrom_text hs hset spells reached, Spelling.letters, Spelling.letters, List.map_drop]
  | cell usable memo supplies => exact (drainFrom_advances usable memo supplies).1

end State

open State

/-! ## Going down -/

/-- The outcome of a match is this, and iterators were left alone. -/
structure Comes (s : State) (y : Verdict Captures) (run : Verdict Bindings × State) : Prop where
  agrees : run.1.Agrees run.2.store y
  aloof : Aloof s run.2

/-- The elements that are left are bound as they are captured. -/
theorem realise_bindCollected {s : State} (hset : s.Settled) (name : Option Key)
    {items : List Value} (held : ∀ v ∈ items, s.store.holds v = true) {b : Bindings}
    {c : Captures} (hb : b.Realise s.store c) :
    (bindCollected name items b s).1.Realise (bindCollected name items b s).2.store
      (Snapshot.captureRest name items c) := by
  obtain ⟨-, new, -, hall⟩ := follows_bindCollected hset name held hb
  exact (hall []).1

mutual

/-- What becomes of a primitive depends on the pattern alone. -/
theorem matchAt_primitive : ∀ (p : Pattern) (place : Option Key) (q : Primitive) (s : State),
    (∀ m ∈ p.matchers, m.ActsOnValue) → s.Sound → s.Settled →
      Comes s (p.onPrimitive place q) (matchAt p place (.prim q) s)
  | .custom m, place, q, s, hm, hs, hset => by
      have hacts := hm m (List.mem_singleton_self m)
      have haloof := consult_aloof hacts q s
      have hverdict : (s.consult m (.prim q)).1 = (m.judge (.prim q) .empty).1 :=
        hacts.verdict q _ _
      rw [matchAt, Pattern.onPrimitive, matchCustom, ← hverdict]
      generalize s.consult m (.prim q) = consulted at haloof ⊢
      obtain ⟨verdict, t⟩ := consulted
      cases verdict with
      | matched _ => exact ⟨Bindings.realise_empty _, haloof⟩
      | unmatched => exact ⟨trivial, haloof⟩
      | failed e => exact ⟨rfl, haloof⟩
  | .identifier name, place, q, s, hm, hs, hset => by
      rw [matchAt, Pattern.onPrimitive]
      exact ⟨realise_matchIdentifier _ name place _, .refl s⟩
  | .rest name, place, q, s, hm, hs, hset => by
      rw [matchAt, Pattern.onPrimitive]
      exact ⟨Bindings.realise_empty _, .refl s⟩
  | .regex r, place, q, s, hm, hs, hset => by
      have htext : s.store.text (.prim q) = q.toText := by
        rw [Store.text]
        cases s.store.arrays.size <;> rfl
      rw [matchAt, Pattern.onPrimitive, ← htext]
      exact ⟨agrees_matchRegex _ r (.prim q), .refl s⟩
  | .literal p, place, q, s, hm, hs, hset => by
      rw [matchAt, Pattern.onPrimitive]
      exact ⟨agrees_matchLiteral _ p _, .refl s⟩
  | .object entries marker, place, q, s, hm, hs, hset => by
      rw [matchAt, Pattern.onPrimitive]
      exact ⟨trivial, .refl s⟩
  | .array elements, place, q, s, hm, hs, hset => by
      cases q with
      | text text =>
          obtain ⟨n, hn, hleaves, hspells⟩ := iteratorFor_text hset text
          have hspell : Aloof s (s.iteratorFor (.text text)).2 := s.spell_aloof text
          have hs₁ := hleaves.works.sound hs
          rw [matchAt, Pattern.onPrimitive]
          generalize s.iteratorFor (.text text) = opened at hn hleaves hspells hspell hs₁ ⊢
          obtain ⟨opened, s₁⟩ := opened
          dsimp only at hn
          subst hn
          -- the text is spelled from its first letter on
          have hdeals : Deals s₁ (.text n) 0 text.toList :=
            .text hspells (hs₁.reached_zero hspells.usable)
          obtain ⟨hagrees, haloof⟩ := matchElements_letters elements (.text n) 0 text.toList .empty
            [] s₁ hm hs₁ hleaves.settled hdeals (Bindings.realise_empty _)
          exact ⟨hagrees, hspell.trans (haloof n rfl)⟩
      | _ =>
          rw [matchAt]
          exact ⟨trivial, .refl s⟩

/-- What becomes of letters depends on the elements alone, wherever they come from. -/
theorem matchElements_letters : ∀ (elements : List (Option Pattern)) (g : Handle) (position : Nat)
    (letters : List Char) (b : Bindings) (c : Captures) (s : State),
    (∀ m ∈ Pattern.elementMatchers elements, m.ActsOnValue) → s.Sound → s.Settled →
      Deals s g position letters → b.Realise s.store c →
        (matchElements elements g position b s).1.Agrees
            (matchElements elements g position b s).2.store
            (Pattern.onLetters elements letters position c) ∧
          ∀ n, g = .text n → Aloof s (matchElements elements g position b s).2
  | [], g, position, letters, b, c, s, hm, hs, hset, hdeals, hb => by
      rw [matchElements, Pattern.onLetters]
      cases letters with
      | nil =>
          obtain ⟨t, hstep, ht⟩ := hdeals.done hs hset
          rw [hstep]
          exact ⟨hb.keeps ht.proceeds.works.leads.keeps, ht.aloof⟩
      | cons letter letters =>
          obtain ⟨t, hstep, ht, -⟩ := hdeals.yielded hs hset
          rw [hstep]
          exact ⟨trivial, ht.aloof⟩
  | none :: elements, g, position, letters, b, c, s, hm, hs, hset, hdeals, hb => by
      rw [matchElements, Pattern.onLetters.eq_def]
      cases letters with
      | nil =>
          obtain ⟨t, hstep, ht⟩ := hdeals.done hs hset
          rw [hstep]
          exact ⟨trivial, ht.aloof⟩
      | cons letter letters =>
          obtain ⟨t, hstep, ht, hdeals'⟩ := hdeals.yielded hs hset
          obtain ⟨hagrees, hrest⟩ := matchElements_letters elements g (position + 1) letters b c t
            hm (ht.proceeds.works.sound hs) ht.proceeds.settled hdeals'
            (hb.keeps ht.proceeds.works.leads.keeps)
          rw [hstep]
          exact ⟨hagrees, fun n hn => (ht.aloof n hn).trans (hrest n hn)⟩
  | some p :: elements, g, position, letters, b, c, s, hm, hs, hset, hdeals, hb => by
      rw [matchElements, Pattern.onLetters.eq_def]
      dsimp only
      cases htrailing : p.trailing? elements with
      | some name =>
          have hheld := (drainFrom_proceeds hs hset hdeals.usable hdeals.reached).2
          obtain ⟨t, hdrain, ht⟩ := hdeals.drained hs hset
          rw [hdrain] at hheld ⊢
          exact ⟨realise_bindCollected ht.proceeds.settled name hheld
              (hb.keeps ht.proceeds.works.leads.keeps),
            fun n hn => (ht.aloof n hn).trans (bindCollected_aloof ..)⟩
      | none =>
          dsimp only
          cases letters with
          | nil =>
              obtain ⟨t, hstep, ht⟩ := hdeals.done hs hset
              rw [hstep]
              exact ⟨trivial, ht.aloof⟩
          | cons letter letters =>
              obtain ⟨t, hstep, ht, hdeals'⟩ := hdeals.yielded hs hset
              have hsound := ht.proceeds.works.sound hs
              have hpart := matchAt_proceeds p (some (.index position))
                (.text (String.singleton letter)) t hsound ht.proceeds.settled rfl
              obtain ⟨hagrees, hquiet⟩ := matchAt_primitive p (some (.index position))
                (.text (String.singleton letter)) t
                (fun m hmem => hm m (List.mem_append_left _ hmem)) hsound ht.proceeds.settled
              rw [hstep]
              dsimp only
              generalize matchAt p (some (.index position)) (.text (String.singleton letter)) t =
                matched at hpart hagrees hquiet ⊢
              generalize Pattern.onPrimitive p (some (.index position))
                (.text (String.singleton letter)) = y at hagrees ⊢
              obtain ⟨verdict, u⟩ := matched
              -- a letter is a primitive: matching it leaves iterators alone, wherever it came
              -- from
              have hall : ∀ n, g = .text n → Aloof s u := fun n hn => (ht.aloof n hn).trans hquiet
              cases verdict with
              | matched d =>
                  cases y with
                  | matched e =>
                      -- the letter was matched, and the handle still gives those behind it
                      have hkeeps := ht.proceeds.works.leads.keeps.trans hpart.works.leads.keeps
                      obtain ⟨hagrees', hrest⟩ := matchElements_letters elements g (position + 1)
                        letters (b.merge d) (c.insertAll e) u
                        (fun m hmem => hm m (List.mem_append_right _ hmem))
                        (hpart.works.sound hsound) hpart.settled
                        (hdeals'.later hpart.works hquiet) ((hb.keeps hkeeps).merge hagrees)
                      exact ⟨hagrees', fun n hn => (hall n hn).trans (hrest n hn)⟩
                  | unmatched => exact hagrees.elim
                  | failed e => exact hagrees.elim
              | unmatched =>
                  cases y with
                  | unmatched => exact ⟨trivial, hall⟩
                  | matched e => exact hagrees.elim
                  | failed e => exact hagrees.elim
              | failed e =>
                  cases y with
                  | failed e' => exact ⟨hagrees, hall⟩
                  | matched d => exact hagrees.elim
                  | unmatched => exact hagrees.elim

end

end StructuralMatch
