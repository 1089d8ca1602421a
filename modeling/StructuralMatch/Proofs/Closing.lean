import StructuralMatch.Proofs.Session
import StructuralMatch.Proofs.Store.Closing

/-! # What is handed out is closed

    A cache keeps the iterators that it was handed in order, and with each of them its
    memo.  What was handed out since it last closed its iterators is still to be
    closed, and everything before that is closed (`Charged`): a new iterator joins both
    lists at once, and nothing ever opens again.

    Closing takes the iterators that are to be closed one by one.  Each was handed out
    once, so whether it is still open does not depend on those before it
    (`closeAll_closes`). -/

namespace StructuralMatch

/-- The iterator that was made or advanced. -/
def Access.handle? : Access → Option Handle
  | .opened _ i => some (.cell i)
  | .advanced i _ _ => some (.cell i)
  | _ => none

namespace State

/-- Whether the iterator behind a handle is closed. -/
def isClosed (s : State) : Handle → Bool
  | .cell i => s.store.isClosed i
  | .text n => s.cache.texts[n]?.any (·.closed)

/-- The iterators that the cache has been handed, in order. -/
def handedOut (s : State) : List Handle := s.cache.memos.keys

/-- What was handed out last is to be closed, and what was handed out before is closed. -/
structure Charged (s : State) : Prop where
  distinct : s.handedOut.Nodup
  usable : ∀ h ∈ s.handedOut, s.Usable h
  split : ∃ old, s.handedOut = old ++ s.cache.opened ∧ ∀ h ∈ old, s.isClosed h = true
  /-- What was made or advanced has been handed out. -/
  known : ∀ e ∈ s.cache.log, ∀ h ∈ e.access.handle?, h ∈ s.handedOut

variable {s t u : State}

/-! ## Handing out -/

theorem mem_handedOut_iff {h : Handle} : h ∈ s.handedOut ↔ s.cache.memos.contains h = true :=
  (Assoc.get?_isSome_iff _ _).symm

/-- What a move hands out: one more iterator, if any, which is also to be closed. -/
structure HandsOut (s t : State) : Prop where
  lists : (t.handedOut = s.handedOut ∧ t.cache.opened = s.cache.opened) ∨
    ∃ h, h ∉ s.handedOut ∧ t.Usable h ∧ t.handedOut = s.handedOut ++ [h] ∧
      t.cache.opened = s.cache.opened ++ [h]
  known : ∀ e ∈ t.cache.log, e ∈ s.cache.log ∨ ∀ h ∈ e.access.handle?, h ∈ t.handedOut

/-- Taking charge of an iterator adds it to both lists, if it is new. -/
theorem adopt_lists (c : Cache) (h : Handle) :
    (c.adopt h).memos.keys = c.memos.keys ∧ (c.adopt h).opened = c.opened ∨
      h ∉ c.memos.keys ∧ (c.adopt h).memos.keys = c.memos.keys ++ [h] ∧
        (c.adopt h).opened = c.opened ++ [h] := by
  rw [Cache.adopt]
  split
  · exact .inl ⟨rfl, rfl⟩
  · rename_i hnew
    have hnot : h ∉ c.memos.keys := fun hmem => hnew ((Assoc.get?_isSome_iff _ _).2 hmem)
    exact .inr ⟨hnot, Assoc.keys_insert_of_not_mem hnot _, rfl⟩

/-- Learning about an iterator that was handed out hands out nothing. -/
theorem keys_learn {c : Cache} {h : Handle} (hknown : c.memos.contains h = true) (m : Memo) :
    (c.learn h m).memos.keys = c.memos.keys :=
  Assoc.keys_insert_of_mem ((Assoc.get?_isSome_iff _ _).1 hknown) m

/-- A move hands out one more iterator, if any. -/
theorem Move.handsOut (h : Move s t) : HandsOut s t := by
  -- the log either stays, or ends with one entry that names an iterator in charge
  have hlog : t.cache.log = s.cache.log →
      ∀ e ∈ t.cache.log, e ∈ s.cache.log ∨ ∀ g ∈ e.access.handle?, g ∈ t.handedOut :=
    fun heq e he => .inl (heq ▸ he)
  have hadd : ∀ {a : Access} {m n : Nat}, t.cache.log = s.cache.log ++ [⟨a, m, n⟩] →
      (∀ g ∈ a.handle?, g ∈ t.handedOut) →
        ∀ e ∈ t.cache.log, e ∈ s.cache.log ∨ ∀ g ∈ e.access.handle?, g ∈ t.handedOut := by
    intro a m n heq ha e he
    rw [heq] at he
    rcases List.mem_append.1 he with he | he
    · exact .inl he
    · exact .inr (List.mem_singleton.1 he ▸ ha)
  -- taking charge puts a new iterator on both lists, and one that is known on neither
  have hlists : ∀ (c : Cache) (g : Handle), c.memos.keys = s.handedOut →
      c.opened = s.cache.opened → t.cache = c.adopt g → t.Usable g →
        (t.handedOut = s.handedOut ∧ t.cache.opened = s.cache.opened) ∨
          ∃ h, h ∉ s.handedOut ∧ t.Usable h ∧ t.handedOut = s.handedOut ++ [h] ∧
            t.cache.opened = s.cache.opened ++ [h] := by
    intro c g hkeys hopened hcache husable
    rw [← hkeys, ← hopened, handedOut, hcache]
    rcases adopt_lists c g with hsame | ⟨hnew, hmore⟩
    · exact .inl hsame
    · exact .inr ⟨g, hnew, husable, hmore⟩
  cases h with
  | visit r =>
      refine ⟨.inl ?_, hlog (Cache.log_visit _ _)⟩
      rw [handedOut, Cache.visit]
      split <;> exact ⟨rfl, rfl⟩
  | read held new effect =>
      refine ⟨.inl ⟨rfl, rfl⟩, hadd rfl ?_⟩
      intro g hg
      cases hg
  | @assign r i σ held new effect =>
      refine ⟨hlists ((s.cache.assign r i).record (.opened r i) s.store σ) (.cell i) rfl rfl rfl
        (Store.holds_of_iterate held effect), ?_⟩
      refine hadd (Cache.log_adopt _ _) ?_
      intro g hg
      cases hg
      exact mem_handedOut_iff.2 (Cache.contains_adopt_self _ _)
  | adopt held => exact ⟨hlists s.cache _ rfl rfl rfl held, hlog (Cache.log_adopt _ _)⟩
  | @advance i step σ vs m held known waits effect learned =>
      refine ⟨.inl ⟨keys_learn known m, rfl⟩, hadd rfl ?_⟩
      intro g hg
      cases hg
      exact mem_handedOut_iff.2 ((Cache.contains_learn ..).trans (by simp))
  | spell text =>
      have husable : (s.spell text).2.Usable (.text s.cache.texts.size) := by
        show _ < (s.spell text).2.cache.texts.size
        rw [State.spell, Cache.texts_adopt, Array.size_push]
        exact Nat.lt_succ_self _
      exact ⟨hlists { s.cache with texts := s.cache.texts.push (.begin text) } _ rfl rfl rfl
        husable, hlog (Cache.log_adopt _ _)⟩
  | letter there known waits learned => exact ⟨.inl ⟨keys_learn known _, rfl⟩, hlog rfl⟩
  | @unseen a σ kind held effect =>
      refine ⟨.inl ⟨rfl, rfl⟩, hadd rfl ?_⟩
      intro g hg
      cases a <;> first | exact kind.elim | cases hg

/-- Work hands out more iterators after those that were handed out before. -/
theorem Works.handedOut_extends (h : Works s t) : s.handedOut <+: t.handedOut := by
  induction h with
  | refl => exact List.prefix_refl _
  | tail _ last ih =>
      rcases last.handsOut.lists with ⟨hsame, -⟩ | ⟨g, -, -, hmore, -⟩
      · rwa [hsame]
      · exact ih.trans (hmore ▸ List.prefix_append _ _)

/-- An iterator that is closed stays closed while a match works. -/
theorem Works.isClosed (hw : Works s t) {h : Handle} (hclosed : s.isClosed h = true) :
    t.isClosed h = true := by
  cases h with
  | cell i => exact hw.leads.keeps.isClosed_of_isClosed hclosed
  | text n =>
      cases htext : s.cache.texts[n]? with
      | none => simp [State.isClosed, htext] at hclosed
      | some text =>
          obtain ⟨text', htext', -, hsame⟩ := hw.spellsOn n text htext
          simp only [State.isClosed, htext, Option.any_some] at hclosed
          simp only [State.isClosed, htext', Option.any_some, hsame, hclosed]

/-- A move keeps the cache in charge. -/
theorem Move.charged (h : Move s t) (hs : s.Charged) : t.Charged := by
  have hout := h.handsOut
  obtain ⟨old, hsplit, hold⟩ := hs.split
  have hclosed : ∀ g ∈ old, t.isClosed g = true := fun g hg => h.works.isClosed (hold g hg)
  -- entries of the log stay accounted for as the list grows
  have hknown : s.handedOut ⊆ t.handedOut → ∀ e ∈ t.cache.log,
      ∀ g ∈ e.access.handle?, g ∈ t.handedOut := by
    intro hsub e he g hg
    rcases hout.known e he with he | hnew
    · exact hsub (hs.known e he g hg)
    · exact hnew g hg
  rcases hout.lists with ⟨hlist, hopened⟩ | ⟨g, hnew, husable, hlist, hopened⟩
  · refine ⟨hlist ▸ hs.distinct, ?_, ⟨old, by rw [hlist, hopened, hsplit], hclosed⟩, ?_⟩
    · rw [hlist]
      intro k hk
      exact h.works.usable (hs.usable k hk)
    · exact hknown (by rw [hlist]; exact List.Subset.refl _)
  · refine ⟨?_, ?_, ⟨old, by rw [hlist, hopened, hsplit, List.append_assoc], hclosed⟩, ?_⟩
    · rw [hlist]
      exact List.nodup_append.2 ⟨hs.distinct, List.pairwise_singleton _ g, fun a ha b hb hab =>
        hnew (List.mem_singleton.1 hb ▸ hab ▸ ha)⟩
    · rw [hlist]
      intro k hk
      rcases List.mem_append.1 hk with hk | hk
      · exact h.works.usable (hs.usable k hk)
      · exact List.mem_singleton.1 hk ▸ husable
    · exact hknown (by rw [hlist]; exact List.subset_append_left _ _)

/-- Work keeps the cache in charge. -/
theorem Works.charged (h : Works s t) (hs : s.Charged) : t.Charged := by
  induction h with
  | refl => exact hs
  | tail _ last ih => exact last.charged ih

/-! ## Closing -/

/-- The event that closing an iterator leaves: texts leave none, and neither does what is
    closed already. -/
def closing? (s : State) : Handle → Option Event
  | .cell i => if s.store.isClosed i then none else some (.closed i)
  | .text _ => none

/-- What closing iterators leaves behind. -/
structure Closes (s t : State) (hs : List Handle) : Prop where
  events : t.store.events = s.store.events ++ hs.filterMap s.closing?
  closed : ∀ h ∈ hs, t.isClosed h = true
  iterators : ∀ i, .cell i ∉ hs → t.store.iterators[i]? = s.store.iterators[i]?
  texts : ∀ n, .text n ∉ hs → t.cache.texts[n]? = s.cache.texts[n]?
  opened : t.cache.opened = s.cache.opened

/-- Closing some iterators does not close others. -/
theorem Closes.isClosed_eq {hs : List Handle} (hc : Closes s t hs) {h : Handle} (hh : h ∉ hs) :
    t.isClosed h = s.isClosed h := by
  cases h with
  | cell i => rw [isClosed, Store.isClosed, hc.iterators i hh, isClosed, Store.isClosed]
  | text n => rw [isClosed, hc.texts n hh, isClosed]

theorem Closes.closing?_eq {hs : List Handle} (hc : Closes s t hs) {h : Handle} (hh : h ∉ hs) :
    t.closing? h = s.closing? h := by
  cases h with
  | cell i =>
      have hsame : t.store.isClosed i = s.store.isClosed i := hc.isClosed_eq hh
      rw [closing?, hsame, closing?]
  | text n => rfl

/-- Closing one iterator says whether it was open. -/
theorem closeHandle_closes {h : Handle} (hu : s.Usable h) :
    (s.closeHandle h).1 = !s.isClosed h ∧ Closes s (s.closeHandle h).2 [h] := by
  cases h with
  | cell i =>
      have hi : i < s.store.iterators.size := by simpa [Usable, Store.holds] using hu
      refine ⟨Store.close_fst hi, ?_, ?_, ?_, fun _ _ => rfl, rfl⟩
      · have hevents := Store.events_close hi
        cases hclosed : s.store.isClosed i <;>
          simpa [closing?, hclosed, closeHandle] using hevents
      · intro g hg
        rw [List.mem_singleton.1 hg]
        exact Store.isClosed_close hi
      · intro j hj
        -- iterators of other cells stay as they are
        refine Store.getElem?_close_of_ne ?_
        rintro rfl
        exact hj (List.mem_singleton_self _)
  | text n =>
      have hn : n < s.cache.texts.size := hu
      have hget := Cache.getElem?_texts hn
      refine ⟨?_, (List.append_nil _).symm, ?_, fun _ _ => rfl, ?_, rfl⟩
      · rw [isClosed, hget]
        rfl
      · intro g hg
        rw [List.mem_singleton.1 hg]
        simp [isClosed, closeHandle, Cache.setSpelling, hn, Spelling.close]
      · intro m hm
        have hne : n ≠ m := by
          rintro rfl
          exact hm (List.mem_singleton_self _)
        simp [closeHandle, Cache.setSpelling, hne]

/-- Closing one iterator leaves every handle usable. -/
theorem closeHandle_usable (h : Handle) {g : Handle} (hu : s.Usable g) :
    (s.closeHandle h).2.Usable g := by
  cases g with
  | cell i => exact (s.closeHandle_leads h).keeps.holds hu
  | text n =>
      cases h with
      | cell i => exact hu
      | text m =>
          have hn : n < s.cache.texts.size := hu
          simpa [Usable, closeHandle, Cache.setSpelling] using hn

/-- Closing one iterator and then others. -/
theorem Closes.cons {h : Handle} {hs : List Handle} (h₁ : Closes s t [h]) (h₂ : Closes t u hs)
    (hnew : h ∉ hs) : Closes s u (h :: hs) where
  events := by
    have hrest : hs.filterMap t.closing? = hs.filterMap s.closing? := by
      refine List.filterMap_congr ?_
      intro g hg
      exact h₁.closing?_eq fun hmem => hnew (List.mem_singleton.1 hmem ▸ hg)
    rw [h₂.events, h₁.events, hrest, List.append_assoc, ← List.filterMap_append]
    rfl
  closed := by
    intro g hg
    rcases List.mem_cons.1 hg with rfl | hg
    · rw [h₂.isClosed_eq hnew]
      exact h₁.closed g (List.mem_singleton_self g)
    · exact h₂.closed g hg
  iterators := fun i hi => (h₂.iterators i fun h => hi (List.mem_cons_of_mem _ h)).trans
    (h₁.iterators i fun h => hi (List.mem_singleton.1 h ▸ List.mem_cons_self ..))
  texts := fun n hn => (h₂.texts n fun h => hn (List.mem_cons_of_mem _ h)).trans
    (h₁.texts n fun h => hn (List.mem_singleton.1 h ▸ List.mem_cons_self ..))
  opened := h₂.opened.trans h₁.opened

/-- Closing iterators one after another closes them all, and counts those that were open. -/
theorem closeAll_closes : ∀ (hs : List Handle) (s : State), hs.Nodup → (∀ h ∈ hs, s.Usable h) →
    (closeAll hs s).1 = hs.countP (fun h => !s.isClosed h) ∧ Closes s (closeAll hs s).2 hs
  | [], s, _, _ => ⟨rfl, (List.append_nil _).symm, by simp, fun _ _ => rfl,
      fun _ _ => rfl, rfl⟩
  | h :: hs, s, hnodup, husable => by
      obtain ⟨hnew, hnodup⟩ := List.nodup_cons.1 hnodup
      obtain ⟨hcount, hcloses⟩ := closeHandle_closes (husable h (List.mem_cons_self ..))
      have husable' : ∀ g ∈ hs, (s.closeHandle h).2.Usable g :=
        fun g hg => closeHandle_usable h (husable g (List.mem_cons_of_mem _ hg))
      obtain ⟨hrest, hall⟩ := closeAll_closes hs (s.closeHandle h).2 hnodup husable'
      refine ⟨?_, hcloses.cons hall hnew⟩
      -- the rest is as open as it was, since the first is not among it
      have hsame : hs.countP (fun g => !(s.closeHandle h).2.isClosed g) =
          hs.countP fun g => !s.isClosed g := by
        refine List.countP_congr ?_
        intro g hg
        rw [hcloses.isClosed_eq fun hmem => hnew (List.mem_singleton.1 hmem ▸ hg)]
      rw [closeAll, List.countP_cons, ← hsame, ← hrest, ← hcount]
      exact Nat.add_comm _ _

/-- What is to be closed was handed out once. -/
theorem Charged.nodup_opened (hs : s.Charged) : s.cache.opened.Nodup := by
  obtain ⟨old, hsplit, -⟩ := hs.split
  exact (List.nodup_append.1 (hsplit ▸ hs.distinct)).2.1

/-- What was handed out is to be closed once, or it is closed. -/
theorem Charged.count_opened (hs : s.Charged) :
    ∀ h ∈ s.handedOut, s.cache.opened.count h = 1 ∨ s.isClosed h = true := by
  obtain ⟨old, hsplit, hold⟩ := hs.split
  intro h hh
  rw [hsplit] at hh
  rcases List.mem_append.1 hh with hh | hh
  · exact .inr (hold h hh)
  · exact .inl (hs.nodup_opened.count.trans (if_pos hh))

/-- What it means to close everything that was handed out since the last time. -/
structure ClosesAll (s t : State) (count : Nat) : Prop where
  /-- The number of those that were still open. -/
  count : count = s.cache.opened.countP fun h => !s.isClosed h
  emptied : t.cache.opened = []
  /-- They were closed one after another, in the order in which they were handed out. -/
  events : t.store.events = s.store.events ++ s.cache.opened.filterMap s.closing?
  closed : ∀ h ∈ s.cache.opened, t.isClosed h = true
  /-- Nothing else was closed. -/
  iterators : ∀ i, .cell i ∉ s.cache.opened → t.store.iterators[i]? = s.store.iterators[i]?
  texts : ∀ n, .text n ∉ s.cache.opened → t.cache.texts[n]? = s.cache.texts[n]?
  /-- What was handed out is still known. -/
  handedOut : t.handedOut = s.handedOut

/-- Closing closes what is to be closed. -/
theorem Charged.closesAll (hs : s.Charged) : ClosesAll s s.close.2 s.close.1 := by
  obtain ⟨old, hsplit, -⟩ := hs.split
  have husable : ∀ h ∈ s.cache.opened, s.Usable h :=
    fun h hh => hs.usable h (hsplit ▸ List.mem_append_right _ hh)
  obtain ⟨hcount, hcloses⟩ := closeAll_closes s.cache.opened
    { s with cache := { s.cache with opened := [] } } hs.nodup_opened husable
  exact ⟨hcount, hcloses.opened, hcloses.events, hcloses.closed, hcloses.iterators,
    hcloses.texts, congrArg Assoc.keys s.close_remembers.memos⟩

/-- After closing, all that was ever handed out is closed. -/
theorem Charged.isClosed_close (hs : s.Charged) : ∀ h ∈ s.handedOut, s.close.2.isClosed h = true := by
  obtain ⟨old, hsplit, hold⟩ := hs.split
  have hall := hs.closesAll
  intro h hh
  rw [hsplit] at hh
  rcases List.mem_append.1 hh with hh | hh
  · have hnot : h ∉ s.cache.opened := fun hmem =>
      (List.nodup_append.1 (hsplit ▸ hs.distinct)).2.2 h hh h hmem rfl
    have hclosed := hold h hh
    cases h with
    | cell i => rwa [isClosed, Store.isClosed, hall.iterators i hnot]
    | text n => rwa [isClosed, hall.texts n hnot]
  · exact hall.closed h hh

/-- Closing leaves every handle usable. -/
theorem closeAll_usable {g : Handle} : ∀ (hs : List Handle) (s : State), s.Usable g →
    (closeAll hs s).2.Usable g
  | [], _, hu => hu
  | h :: hs, _, hu => closeAll_usable hs _ (closeHandle_usable h hu)

/-- Closing keeps the cache in charge. -/
theorem Charged.close (hs : s.Charged) : s.close.2.Charged := by
  have hall := hs.closesAll
  refine ⟨hall.handedOut ▸ hs.distinct, ?_, ⟨s.handedOut, ?_, hs.isClosed_close⟩, ?_⟩
  · rw [hall.handedOut]
    intro h hh
    exact closeAll_usable _ _ (hs.usable h hh)
  · rw [hall.emptied, List.append_nil, hall.handedOut]
  · rw [s.close_remembers.log, hall.handedOut]
    exact hs.known

/-- What other code does keeps the cache in charge. -/
theorem Charged.outside (hs : s.Charged) {σ : Store} (done : s.store.Leads σ) :
    Charged { s with store := σ } := by
  obtain ⟨old, hsplit, hold⟩ := hs.split
  refine ⟨hs.distinct, ?_, ⟨old, hsplit, ?_⟩, hs.known⟩
  · intro h hh
    cases h with
    | cell i => exact done.keeps.holds (hs.usable _ hh)
    | text n => exact hs.usable _ hh
  · intro h hh
    cases h with
    | cell i => exact done.keeps.isClosed_of_isClosed (hold _ hh)
    | text n => exact hold _ hh

end State

/-- The cache of a session is in charge of all that it was handed. -/
theorem Session.charged {turns : List Turn} {s : State} (h : Session turns s) : s.Charged := by
  induction h with
  | start made =>
      exact ⟨List.nodup_nil, fun h hh => absurd hh List.not_mem_nil, ⟨[], rfl, by simp⟩,
        fun e he => absurd he List.not_mem_nil⟩
  | call before c held ih =>
      exact (c.perform_proceeds before.sound before.settled held).works.charged ih
  | close before ih => exact ih.close
  | outside before done ih => exact ih.outside done

end StructuralMatch
