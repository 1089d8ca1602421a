import StructuralMatch.Proofs.Covering
import StructuralMatch.Proofs.Following

/-! # A match follows its snapshot

    A match that ends in a state covered by a snapshot follows the plain match on
    that snapshot (`matchAt_follows`).  Named rest markers of object patterns are
    left out, since they look at an object afresh and not through the memory. -/

namespace StructuralMatch

/-! ## Parts of patterns -/

namespace Pattern

mutual

/-- Whether a pattern and all its parts pass a test. -/
def every (test : Pattern → Bool) : Pattern → Bool
  | .object entries marker => test (.object entries marker) && everyEntry test entries
  | .array elements => test (.array elements) && everyElement test elements
  | p => test p

/-- Whether the patterns of all entries pass a test, with their parts. -/
def everyEntry (test : Pattern → Bool) : List (Key × Pattern) → Bool
  | [] => true
  | (_, p) :: entries => p.every test && everyEntry test entries

/-- Whether the patterns of all elements pass a test, with their parts. -/
def everyElement (test : Pattern → Bool) : List (Option Pattern) → Bool
  | [] => true
  | none :: elements => everyElement test elements
  | some p :: elements => p.every test && everyElement test elements

end

/-- Whether a pattern is not an object pattern with a named rest marker. -/
def namesNoRemainder : Pattern → Bool
  | .object _ marker => (marker.bind (·.name)).isNone
  | _ => true

/-- Whether a pattern is not a custom matcher. -/
def asksNoMatcher : Pattern → Bool
  | .custom _ => false
  | _ => true

/-- Whether no object pattern has a named rest marker. -/
def remainderFree (p : Pattern) : Bool := p.every namesNoRemainder

/-- Whether no custom matcher is asked. -/
def customFree (p : Pattern) : Bool := p.every asksNoMatcher

end Pattern

/-! ## Elements -/

open State

/-- The values that stand behind a handle. -/
inductive Snapshot.Feeds (S : Snapshot) (s : State) : Handle → Feed → Prop where
  | cell (i : Nat) : S.Feeds s (.cell i) ⟨some i, S.yields i⟩
  | text {n : Nat} {text : String} (spells : s.Spells n text) :
      S.Feeds s (.text n) ⟨none, Spelling.letters text.toList⟩

section Elements

variable {S : Snapshot} {s t : State} {h : Handle} {feed : Feed}

theorem Snapshot.Feeds.questions_eq (hf : S.Feeds s h feed) (p count : Nat) :
    h.questions p count = feed.questions p count := by
  cases hf <;> rfl

/-- The values behind a handle stay. -/
theorem Snapshot.Feeds.later (hf : S.Feeds s h feed) (hw : Works s t) : S.Feeds t h feed := by
  cases hf with
  | cell i => exact .cell i
  | text spells =>
      obtain ⟨l, hl, htext, hclosed⟩ := spells
      obtain ⟨l', hl', htext', hclosed'⟩ := hw.spellsOn _ l hl
      exact .text ⟨l', hl', htext'.trans htext, hclosed'.trans hclosed⟩

/-- What is known of a text being spelled are the first of its letters, or all. -/
theorem State.Spells.values {n : Nat} {text : String} (hspells : t.Spells n text) (ht : t.Sound)
    {vs : List Value} {ended : Bool} (hm : (t.cache.memo (.text n)).Stands vs ended) :
    vs <+: Spelling.letters text.toList ∧ (ended = true → vs = Spelling.letters text.toList) := by
  obtain ⟨l, hl, rfl, hclosed⟩ := hspells
  obtain ⟨-, ws, ended', hstands, htells⟩ := ht.faithful.texts _ l hl
  obtain ⟨rfl, rfl⟩ := hm.unique hstands
  obtain ⟨hletters, hall⟩ := htells.tells hclosed
  refine ⟨⟨_, hletters.symm⟩, ?_⟩
  intro hended
  rw [hletters, hall hended]
  exact (List.append_nil vs).symm

/-- What a memo stands for are the first of the values behind its handle, or all. -/
theorem Snapshot.Feeds.values (hf : S.Feeds t h feed) (hS : S.Covers t) (ht : t.Sound)
    {vs : List Value} {ended : Bool} (hm : (t.cache.memo h).Stands vs ended) :
    vs <+: feed.values ∧ (ended = true → vs = feed.values) := by
  cases hf with
  | cell i => exact hS.yields i vs ended hm
  | text spells => exact spells.values ht hm

/-- A step that yields stands for a value. -/
theorem getElem?_of_yielded {vs : List Value} {p : Nat} {x : Value}
    (h : Step.yielded x = .ofOption vs[p]?) : vs[p]? = some x := by
  rw [← Step.value?_ofOption vs[p]?, ← h]
  rfl

/-- A completion stands for no value. -/
theorem getElem?_of_done {vs : List Value} {p : Nat} (h : Step.done = .ofOption vs[p]?) :
    vs[p]? = none := by
  rw [← Step.value?_ofOption vs[p]?, ← h]
  rfl

/-- A positional read gives the value behind the handle. -/
theorem step_follows (hs : s.Sound) (hset : s.Settled) (hu : s.Usable h) {p : Nat}
    (hr : s.Reached h p) (hf : S.Feeds s h feed) (hS : S.Covers (s.step h p).2) :
    Leaves s (s.step h p).2 (feed.questions p 1) ∧
      (s.step h p).1 = .ofOption feed.values[p]? := by
  obtain ⟨vs, ended, hm, hp⟩ := hr
  obtain ⟨hleaves, ws, ended', hm', hfound⟩ := step_leaves hs hset hu hm hp
  have ht := hleaves.works.sound hs
  obtain ⟨hextends, hall⟩ := (hf.later hleaves.works).values hS ht hm'
  rw [hf.questions_eq] at hleaves
  exact ⟨hleaves, Step.eq_ofOption_of_run hfound hextends hall⟩

/-- A drain gives the values behind the handle that are left. -/
theorem drainFrom_follows (hs : s.Sound) (hset : s.Settled) (hu : s.Usable h) {p : Nat}
    (hr : s.Reached h p) (hf : S.Feeds s h feed) (hS : S.Covers (s.drainFrom h p).2) :
    Leaves s (s.drainFrom h p).2 (feed.questions p (feed.values.length + 1 - p)) ∧
      (s.drainFrom h p).1 = feed.values.drop p := by
  obtain ⟨vs, ended, hm, hp⟩ := hr
  obtain ⟨ws, hm', hitems, hleaves⟩ := drainFrom_leaves hs hset hu hm hp
  have ht := hleaves.works.sound hs
  obtain ⟨-, hall⟩ := (hf.later hleaves.works).values hS ht hm'
  rw [hf.questions_eq, hall rfl] at hleaves
  exact ⟨hleaves, by rw [hitems, hall rfl]⟩

end Elements

/-- The elements that are left are in the array that is made of them. -/
theorem collect_array {s : State} {items : List Value}
    (held : ∀ v ∈ items, s.store.holds v = true) :
    (s.collect items).2.store.arrays[s.store.arrays.size]? = some items := by
  -- the elements are there, so none of them is lost when the array is made
  have hvet : items.map s.store.vet = items :=
    (List.map_congr_left fun v hv => Store.vet_of_holds (held v hv)).trans (List.map_id items)
  show (s.store.arrays.push (items.map s.store.vet))[s.store.arrays.size]? = some items
  rw [hvet, Array.getElem?_push_size]

/-- Collecting the elements that are left. -/
theorem follows_bindCollected {s : State} (hset : s.Settled) (name : Option Key)
    {items : List Value} (held : ∀ v ∈ items, s.store.holds v = true) {b : Bindings}
    {c : Captures} (hb : b.Realise s.store c) :
    Follows s (.matched (bindCollected name items b s).1, (bindCollected name items b s).2)
      (.give (Snapshot.captureRest name items c)) := by
  cases name with
  | none => exact follows_conclude hb
  | some k =>
      have hcollect := collect_leaves hset items
      have hinsert := Assoc.Related.insert (hb.keeps hcollect.works.leads.keeps) k
        (Capture.Realised.array (collect_array held))
      exact .after hcollect (follows_conclude hinsert)

/-- Without a name the rest marker of an object pattern binds nothing, so only the entries
    count. -/
theorem matchAt_object {marker : Option RestMarker} (hmarker : (marker.bind (·.name)).isNone = true)
    (entries : List (Key × Pattern)) (place : Option Key) (r : Ref) (s : State) :
    matchAt (.object entries marker) place (.ref r) s =
      matchEntries entries (.ref r) .empty (s.register (.ref r)).2 := by
  have hbind : ∀ (b : Bindings) (u : State),
      bindRemainder marker (entries.map Prod.fst) (.ref r) b u = (b, u) := by
    intro b u
    rw [bindRemainder, Option.isNone_iff_eq_none.1 hmarker]
  rw [matchAt]
  simp only [State.register, Value.identity, hbind]
  split <;> simp_all

/-! ## Going down -/

mutual

/-- A match follows the plain match on any snapshot that covers the state it ends in. -/
theorem matchAt_follows (S : Snapshot) : ∀ (p : Pattern) (place : Option Key) (v : Value)
    (s : State), p.remainderFree = true → s.Sound → s.Settled → s.store.holds v = true →
      S.Covers (matchAt p place v s).2 →
        Follows s (matchAt p place v s) (S.readAt p place v)
  | .custom m, place, v, s, hfree, hs, hset, held, hS => by
      rw [matchAt, Snapshot.readAt]
      exact follows_matchCustom hset m v
  | .identifier name, place, v, s, hfree, hs, hset, held, hS => by
      rw [matchAt, Snapshot.readAt]
      exact follows_conclude (realise_matchIdentifier _ name place v)
  | .rest name, place, v, s, hfree, hs, hset, held, hS => by
      rw [matchAt, Snapshot.readAt]
      exact follows_conclude (Bindings.realise_empty _)
  | .regex r, place, v, s, hfree, hs, hset, held, hS => by
      rw [matchAt] at hS ⊢
      rw [Snapshot.readAt, hS.text v held]
      exact follows_conclude (agrees_matchRegex _ r v)
  | .literal q, place, v, s, hfree, hs, hset, held, hS => by
      have hagrees := agrees_matchLiteral s.store q v
      rw [matchAt, Snapshot.readAt]
      split at hagrees <;> rename_i hsame
      · rw [if_pos hsame]
        exact follows_conclude hagrees
      · rw [if_neg hsame]
        exact follows_conclude hagrees
  | .array elements, place, .prim q, s, hfree, hs, hset, held, hS => by
      have hfree : Pattern.everyElement Pattern.namesNoRemainder elements = true := hfree
      cases q with
      | text text =>
          obtain ⟨n, hn, hleaves, hspells⟩ := iteratorFor_text hset text
          rw [matchAt] at hS ⊢
          rw [Snapshot.readAt]
          generalize s.iteratorFor (.prim (.text text)) = opened at hn hleaves hspells hS ⊢
          obtain ⟨h, t⟩ := opened
          dsimp only at hn hS ⊢
          subst hn
          have ht := hleaves.works.sound hs
          have hu : t.Usable (.text n) := by
            obtain ⟨l, hl, -⟩ := hspells
            exact (Array.getElem?_eq_some_iff.1 hl).1
          -- a text is spelled in private, so getting its iterator asks nothing
          exact .after hleaves (matchElements_follows S elements _ _ 0 .empty [] t hfree ht
            hleaves.settled hu (ht.reached_zero hu) (.text hspells) (Bindings.realise_empty _) hS)
      | _ =>
          rw [matchAt, Snapshot.readAt]
          · exact follows_refuse s
          · intro text htext
            cases htext
  | .array elements, place, .ref r, s, hfree, hs, hset, held, hS => by
      have hfree : Pattern.everyElement Pattern.namesNoRemainder elements = true := hfree
      have hnone := @iteratorFor_none s hs r
      have hsome := @iteratorFor_some s hs hset r held
      rw [matchAt] at hS ⊢
      rw [Snapshot.readAt]
      generalize s.iteratorFor (.ref r) = opened at hnone hsome hS ⊢
      rcases opened with ⟨_ | h, t⟩
      · obtain ⟨hbarren, hsame⟩ := hnone rfl
        dsimp only at hsame hS ⊢
        subst hsame
        rw [hS.barren r held hbarren]
        exact follows_refuse t
      · obtain ⟨i, rfl, hleaves, hopenings, hu⟩ := hsome rfl
        dsimp only at hleaves hopenings hu hS ⊢
        have ht := hleaves.works.sound hs
        -- the snapshot covers the state in the end, so it covers the one after the opening
        have hwork := matchElements_proceeds elements (.cell i) 0 .empty t ht hleaves.settled hu
          (ht.reached_zero hu)
        have hiterator : S.iterator r = some i :=
          (hS.before ht hwork.works).iterator r i (hopenings ▸ List.mem_singleton_self i)
        rw [hiterator]
        exact .ask hleaves (matchElements_follows S elements _ _ 0 .empty [] t hfree ht
          hleaves.settled hu (ht.reached_zero hu) (.cell i) (Bindings.realise_empty _) hS)
  | .object entries marker, place, .prim q, s, hfree, hs, hset, held, hS => by
      rw [matchAt, Snapshot.readAt]
      exact follows_refuse s
  | .object entries marker, place, .ref r, s, hfree, hs, hset, held, hS => by
      have hregister := register_leaves hset (.ref r)
      have hfree : ((marker.bind (·.name)).isNone &&
          Pattern.everyEntry Pattern.namesNoRemainder entries) = true := hfree
      obtain ⟨hmarker, hfree⟩ := Bool.and_eq_true_iff.1 hfree
      rw [matchAt_object hmarker] at hS ⊢
      rw [Snapshot.readAt]
      exact .after hregister (matchEntries_follows S entries r .empty [] _ hfree
        (hregister.works.sound hs) hregister.settled (hregister.works.leads.keeps.holds held)
        (Bindings.realise_empty _) hS)

/-- Matching entries follows plain matching. -/
theorem matchEntries_follows (S : Snapshot) : ∀ (entries : List (Key × Pattern)) (r : Ref)
    (b : Bindings) (c : Captures) (s : State),
      Pattern.everyEntry Pattern.namesNoRemainder entries = true → s.Sound → s.Settled →
        s.store.holds (.ref r) = true → b.Realise s.store c →
          S.Covers (matchEntries entries (.ref r) b s).2 →
            Follows s (matchEntries entries (.ref r) b s) (S.readEntries entries r c)
  | [], r, b, c, s, hfree, hs, hset, held, hb, hS => by
      rw [matchEntries, Snapshot.readEntries]
      exact follows_conclude hb
  | (k, p) :: entries, r, b, c, s, hfree, hs, hset, held, hb, hS => by
      have hwork := matchEntries_proceeds ((k, p) :: entries) (.ref r) b s hs hset held
      have hpresent := (hS.before hs hwork.works).present r k held
      obtain ⟨hfreep, hfree⟩ := Bool.and_eq_true_iff.1 hfree
      rw [matchEntries] at hS ⊢
      rw [Snapshot.readEntries, hpresent]
      split
      · rename_i hhas
        rw [if_pos hhas] at hS
        obtain ⟨hleaves, hreadings⟩ := read_leaves hs hset held k
        have hx := (read_proceeds hs hset held k).2
        generalize s.read (.ref r) k = readed at hleaves hreadings hx hS ⊢
        obtain ⟨x, t⟩ := readed
        dsimp only at hleaves hreadings hx hS ⊢
        have ht := hleaves.works.sound hs
        have held' := hleaves.works.leads.keeps.holds held
        have hp := matchAt_proceeds p (some k) x t ht hleaves.settled hx
        have hfollows := matchAt_follows S p (some k) x t hfreep ht hleaves.settled hx
        -- what the snapshot reads is what was read
        have hproperty : S.Covers t → S.property r k = x :=
          fun h => h.property r k x (hreadings ▸ List.mem_singleton_self x)
        refine .ask hleaves ?_
        generalize matchAt p (some k) x t = matched at hp hfollows hS ⊢
        rcases matched with ⟨d | _ | e, u⟩
        · dsimp only at hp hfollows hS ⊢
          have hu := hp.works.sound ht
          have held'' := hp.works.leads.keeps.holds held'
          have hrest := matchEntries_proceeds entries (.ref r) (b.merge d) u hu hp.settled held''
          have hSu := hS.before hu hrest.works
          rw [hproperty (hSu.before ht hp.works)]
          refine (hfollows hSu).andThen_matched ?_
          intro e he
          -- cells are never changed, so the captures so far are still realised
          have hb' := hb.keeps (hleaves.works.trans hp.works).leads.keeps
          exact matchEntries_follows S entries r (b.merge d) (c.insertAll e) u hfree hu hp.settled
            held'' (hb'.merge he) hS
        · rw [hproperty (hS.before ht hp.works)]
          exact (hfollows hS).andThen_of_not_matched nofun
        · rw [hproperty (hS.before ht hp.works)]
          exact (hfollows hS).andThen_of_not_matched nofun
      · exact follows_refuse s

/-- Matching elements follows plain matching. -/
theorem matchElements_follows (S : Snapshot) : ∀ (elements : List (Option Pattern))
    (h : Handle) (feed : Feed) (position : Nat) (b : Bindings) (c : Captures) (s : State),
      Pattern.everyElement Pattern.namesNoRemainder elements = true → s.Sound → s.Settled →
        s.Usable h → s.Reached h position → S.Feeds s h feed → b.Realise s.store c →
          S.Covers (matchElements elements h position b s).2 →
            Follows s (matchElements elements h position b s)
              (S.readElements elements feed position c)
  | [], h, feed, position, b, c, s, hfree, hs, hset, hu, hr, hf, hb, hS => by
      have hfollows := step_follows hs hset hu hr hf
      rw [matchElements] at hS ⊢
      rw [Snapshot.readElements]
      generalize s.step h position = stepped at hfollows hS ⊢
      obtain ⟨step, t⟩ := stepped
      obtain ⟨hleaves, hstep⟩ := hfollows hS
      dsimp only at hleaves hstep ⊢
      refine .ask hleaves ?_
      -- behind the last element there must be no value in the snapshot either
      by_cases hlt : position < feed.values.length
      · rw [List.getElem?_eq_getElem hlt] at hstep
        rw [hstep, if_pos hlt]
        exact follows_refuse t
      · rw [List.getElem?_eq_none (Nat.le_of_not_lt hlt)] at hstep
        rw [hstep, if_neg hlt]
        exact follows_conclude (hb.keeps hleaves.works.leads.keeps)
  | none :: elements, h, feed, position, b, c, s, hfree, hs, hset, hu, hr, hf, hb, hS => by
      obtain ⟨hstep, hyielded⟩ := step_reached hs hset hu hr
      have hfollows := step_follows hs hset hu hr hf
      rw [matchElements] at hS ⊢
      rw [Snapshot.readElements]
      generalize s.step h position = stepped at hstep hyielded hfollows hS ⊢
      rcases stepped with ⟨x | _, t⟩
      · dsimp only at hstep hyielded hfollows hS ⊢
        have ht := hstep.works.sound hs
        have hu' := hstep.works.usable hu
        obtain ⟨hreached, -⟩ := hyielded x rfl
        have hrest := matchElements_proceeds elements h (position + 1) b t ht hstep.settled hu'
          hreached
        obtain ⟨hleaves, hget⟩ := hfollows (hS.before ht hrest.works)
        rw [if_pos (List.getElem?_eq_some_iff.1 (getElem?_of_yielded hget)).1]
        exact .ask hleaves (matchElements_follows S elements h feed (position + 1) b c t hfree ht
          hstep.settled hu' hreached (hf.later hstep.works)
          (hb.keeps hstep.works.leads.keeps) hS)
      · obtain ⟨hleaves, hget⟩ := hfollows hS
        rw [if_neg (Nat.not_lt_of_le (List.getElem?_eq_none_iff.1 (getElem?_of_done hget)))]
        exact .ask hleaves (follows_refuse t)
  | some p :: elements, h, feed, position, b, c, s, hfree, hs, hset, hu, hr, hf, hb, hS => by
      obtain ⟨hfreep, hfree⟩ := Bool.and_eq_true_iff.1 hfree
      rw [matchElements] at hS ⊢
      rw [Snapshot.readElements]
      cases htrailing : p.trailing? elements with
      | some name =>
          rw [htrailing] at hS
          obtain ⟨hdrain, hheld⟩ := drainFrom_proceeds hs hset hu hr
          have hfollows := drainFrom_follows hs hset hu hr hf
          dsimp only at hS ⊢
          generalize s.drainFrom h position = drained at hdrain hheld hfollows hS ⊢
          obtain ⟨items, t⟩ := drained
          have ht := hdrain.works.sound hs
          have hbind := bindCollected_proceeds hdrain.settled name items b
          -- what was drained are the values of the snapshot from the position on
          obtain ⟨hleaves, hitems⟩ := hfollows (hS.before ht hbind.works)
          dsimp only at hitems
          rw [← hitems]
          exact .ask hleaves (follows_bindCollected hdrain.settled name hheld
            (hb.keeps hdrain.works.leads.keeps))
      | none =>
          rw [htrailing] at hS
          obtain ⟨hstep, hyielded⟩ := step_reached hs hset hu hr
          have hfollows := step_follows hs hset hu hr hf
          dsimp only at hS ⊢
          generalize s.step h position = stepped at hstep hyielded hfollows hS ⊢
          rcases stepped with ⟨x | _, t⟩
          · dsimp only at hstep hyielded hfollows hS ⊢
            have ht := hstep.works.sound hs
            have hu' := hstep.works.usable hu
            obtain ⟨hreached, hx⟩ := hyielded x rfl
            have hp := matchAt_proceeds p (some (.index position)) x t ht hstep.settled hx
            have hfollowsp := matchAt_follows S p (some (.index position)) x t hfreep ht
              hstep.settled hx
            -- the value behind the handle is the one that was yielded
            have hvalue : S.Covers t → Leaves s t (feed.questions position 1) ∧
                feed.values[position]? = some x := by
              intro hSt
              obtain ⟨hleaves, hget⟩ := hfollows hSt
              exact ⟨hleaves, getElem?_of_yielded hget⟩
            generalize matchAt p (some (.index position)) x t = matched at hp hfollowsp hS ⊢
            rcases matched with ⟨d | _ | e, u⟩
            · dsimp only at hp hfollowsp hS ⊢
              have husound := hp.works.sound ht
              have hu'' := hp.works.usable hu'
              have hreached' := hp.works.reached hreached
              have hrest := matchElements_proceeds elements h (position + 1) (b.merge d) u
                husound hp.settled hu'' hreached'
              -- the snapshot covers the end, and so every state on the way there
              have hSu := hS.before husound hrest.works
              obtain ⟨hleaves, hget⟩ := hvalue (hSu.before ht hp.works)
              rw [hget]
              refine .ask hleaves ((hfollowsp hSu).andThen_matched ?_)
              intro e he
              have hworks := hstep.works.trans hp.works
              exact matchElements_follows S elements h feed (position + 1) (b.merge d)
                (c.insertAll e) u hfree husound hp.settled hu'' hreached' (hf.later hworks)
                ((hb.keeps hworks.leads.keeps).merge he) hS
            · obtain ⟨hleaves, hget⟩ := hvalue (hS.before ht hp.works)
              rw [hget]
              exact .ask hleaves ((hfollowsp hS).andThen_of_not_matched nofun)
            · obtain ⟨hleaves, hget⟩ := hvalue (hS.before ht hp.works)
              rw [hget]
              exact .ask hleaves ((hfollowsp hS).andThen_of_not_matched nofun)
          · obtain ⟨hleaves, hget⟩ := hfollows hS
            rw [getElem?_of_done hget]
            exact .ask hleaves (follows_refuse t)

end

end StructuralMatch
