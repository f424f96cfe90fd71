import StoryPlayer.Proofs.Checks
import StoryPlayer.Proofs.Restacking

/-!
# Numbers of frames

A frame gets the number of the counter, which is then moved on.  Numbers are of 64 bits, and a save
that is written by hand may use any of them.

- `Renumbered` says what a step or an answer does to the numbers: at most one frame is numbered, with
  the counter,
- `Story.Passage` are the states that follow each other, `pushes` counts the frames that are pushed
  on the way,
- `numbers_fresh_iff`: the numbers stay fresh exactly as long as there are numbers left above the
  greatest one of the save.
-/

namespace StoryPlayer

variable {story : Story} {p q : Player}

/-! ## Single steps -/

/-- What can become of the numbers of frames. -/
inductive Renumbered (p q : Player) : Prop
  /-- No frame is pushed; some may disappear. -/
  | kept : q.counter = p.counter →
      (q.frames.map Frame.id).Sublist (p.frames.map Frame.id) → Renumbered p q
  /-- A frame is pushed above frames that were there before. -/
  | pushed {f : Frame} {below : List Frame} : q.counter = p.counter + 1 →
      q.frames = f :: below → f.id = p.counter →
      (below.map Frame.id).Sublist (p.frames.map Frame.id) → Renumbered p q

/-- Frames that were there before, up to their variables. -/
theorem sublist_ids {fs gs hs : List Frame} (hfs : Frames.SameShape p.frames fs)
    (hgs : gs.Sublist fs) (hhs : Frames.SameShape gs hs) :
    (hs.map Frame.id).Sublist (p.frames.map Frame.id) := by
  rw [hhs.ids, ← hfs.ids]
  exact hgs.map Frame.id

/-- Whatever becomes of a stack, at most one frame is new, and it takes the number of the counter.
-/
theorem Restacked.renumbered (h : Restacked story p q) : Renumbered p q := by
  cases h with
  | dropped hfs hsuffix hcounter =>
      exact Renumbered.kept hcounter (sublist_ids hfs hsuffix.sublist (Frames.SameShape.refl _))
  | @advanced fs below f _ hfs hsuffix _ hq hcounter =>
      have hids : (f.advanced :: below).map Frame.id = (f :: below).map Frame.id := rfl
      refine Renumbered.kept hcounter ?_
      rw [hq.ids, hids]
      exact sublist_ids hfs hsuffix.sublist (.refl (f :: below))
  | ended hremoved hq hcounter =>
      exact Renumbered.kept hcounter (sublist_ids (.refl _) hremoved.sublist hq)
  | returned hremoved _ _ hafter hq hcounter =>
      refine Renumbered.kept hcounter ?_
      rw [hq, Frames.moveTo_ids]
      exact sublist_ids (.refl _) hremoved.sublist hafter
  | @entered fs below f f' _ _ _ _ hfs hsuffix _ hf _ hq hcounter =>
      refine Renumbered.pushed hcounter hq rfl ?_
      have hid : (f' :: below).map Frame.id = (f :: below).map Frame.id := by
        rcases hf with rfl | rfl <;> rfl
      rw [hid]
      exact sublist_ids hfs hsuffix.sublist (.refl _)
  | called hfs _ _ hq hcounter =>
      exact Renumbered.pushed hcounter hq rfl (hfs.ids ▸ List.Sublist.refl _)
  | @replaced fs below _ root _ _ _ _ hfs hsuffix _ hafter _ _ hq hcounter =>
      refine Renumbered.pushed hcounter hq rfl ?_
      exact sublist_ids hfs ((List.suffix_cons root below).trans hsuffix).sublist hafter

/-- The numbers of frames increase towards the innermost one, and all of them are below the
counter. -/
structure Player.Ordered (p : Player) : Prop where
  increasing : p.frames.Pairwise fun upper lower => lower.id < upper.id
  numbered : ∀ f ∈ p.frames, f.id < p.counter

theorem pairwise_ids {fs : List Frame} : (fs.Pairwise fun upper lower => lower.id < upper.id) ↔
    (fs.map Frame.id).Pairwise fun upper lower => lower < upper := by
  rw [List.pairwise_map]

/-- Numbers that increase are distinct. -/
theorem Player.Ordered.nodup (h : p.Ordered) : (p.frames.map Frame.id).Nodup :=
  (pairwise_ids.1 h.increasing).imp fun hlt heq => by
    rw [heq] at hlt
    exact UInt64.lt_irrefl _ hlt

/-- The order of the numbers is kept as long as the counter does not run over. -/
theorem Renumbered.ordered (h : Renumbered p q) (hp : p.Ordered) (hcounter : p.counter ≤ q.counter) :
    q.Ordered := by
  -- Frames that stay have numbers below the counter, which is the number of a new one.
  have hids : ∀ id ∈ p.frames.map Frame.id, id < p.counter := by
    intro id hid
    rcases List.mem_map.1 hid with ⟨f, hf, rfl⟩
    exact hp.numbered f hf
  cases h with
  | kept hq hsub =>
      refine ⟨pairwise_ids.2 ((pairwise_ids.1 hp.increasing).sublist hsub), fun f hf => ?_⟩
      rw [hq]
      exact hids _ (hsub.subset (List.mem_map_of_mem hf))
  | @pushed f below hq hframes hid hsub =>
      have hlt : p.counter < p.counter + 1 := Frames.counter_lt (hq ▸ hcounter)
      have hbelow : ∀ g ∈ below, g.id < p.counter :=
        fun g hg => hids _ (hsub.subset (List.mem_map_of_mem hg))
      constructor
      · rw [hframes]
        refine List.pairwise_cons.2 ⟨fun g hg => hid ▸ hbelow g hg, ?_⟩
        exact pairwise_ids.2 ((pairwise_ids.1 hp.increasing).sublist hsub)
      · intro g hg
        rw [hframes] at hg
        rw [hq]
        rcases List.mem_cons.1 hg with rfl | hg
        · exact hid ▸ hlt
        · exact UInt64.lt_trans (hbelow g hg) hlt

/-! ## Passages -/

/-- The state `q` follows on `p`, with the states `past` before it, the latest first: steps are taken
while nothing waits, and choices are answered. -/
inductive Story.Passage (story : Story) (p : Player) : Player → List Player → Prop
  | start : Passage story p p []
  | step {q r : Player} {progress : Progress} {past : List Player} :
      Passage story p q past → q.pending = none → q.dispatch story = (progress, r) →
      Passage story p r (q :: past)
  | answer {q r : Player} {index : Nat} {past : List Player} :
      Passage story p q past → Answer story q index r → Passage story p r (q :: past)

/-- A call is made of steps. -/
theorem Story.Passage.next {past : List Player} (h : story.Passage p q past) :
    ∃ past, story.Passage p (q.next story).2 past := by
  have hcounted := @next_counted story q (fun _ r => ∃ past, story.Passage p r past) ⟨past, h⟩
    fun _ r progress s ⟨past, hr⟩ hpending hdispatch => ⟨_, hr.step hpending hdispatch⟩
  rcases hcounted with ⟨_, -, hnext⟩
  exact hnext

/-- An answer prolongs a passage. -/
theorem Story.Passage.choose {past : List Player} (h : story.Passage p q past) (index : Nat) :
    ∃ past, story.Passage p (q.choose story index).2 past := by
  rcases @choose_cases story q index with hsame | hanswer
  · exact ⟨past, hsame.symm ▸ h⟩
  · exact ⟨_, h.answer hanswer⟩

/-- Whatever is asked of a story takes it along a passage. -/
theorem Story.Passage.play {past : List Player} (h : story.Passage p q past)
    (requests : List Request) : ∃ past, story.Passage p (q.play story requests) past := by
  induction requests generalizing q past with
  | nil => exact ⟨past, h⟩
  | cons request rest ih =>
      cases request with
      | next =>
          rcases h.next with ⟨past, hnext⟩
          exact ih hnext
      | choose index =>
          rcases h.choose index with ⟨past, hchosen⟩
          exact ih hchosen

/-- Every state of a passage comes from the one before it by a step or an answer. -/
theorem Story.Passage.isChain {past : List Player} (h : story.Passage p q past) :
    (q :: past).IsChain fun later earlier => Renumbered earlier later := by
  induction h with
  | start => exact List.IsChain.singleton _
  | step _ _ hdispatch ih =>
      exact List.isChain_cons_cons.2 ⟨(step_of_dispatch hdispatch).restacked.renumbered, ih⟩
  | answer _ hanswer ih => exact List.isChain_cons_cons.2 ⟨hanswer.restacked.renumbered, ih⟩

/-- The number of frames that are pushed along states that follow each other. -/
def pushes : List Player → Nat
  | later :: earlier :: past =>
    (if later.counter = earlier.counter then 0 else 1) + pushes (earlier :: past)
  | _ => 0

/-- If a frame is pushed, the counter can be moved on, and the frame gets a number that is greater
than those of all other frames. -/
def Player.PushesFresh (p q : Player) : Prop :=
  q.counter ≠ p.counter →
    p.counter.toNat + 1 < 2 ^ 64 ∧
      ∃ f below, q.frames = f :: below ∧ ∀ g ∈ below, g.id < f.id

/-- A frame that is pushed gets a fresh number as long as there is one. -/
theorem Renumbered.pushesFresh (h : Renumbered p q) (hp : p.Ordered)
    (hlasts : p.counter.toNat + 1 < 2 ^ 64) : p.PushesFresh q := by
  intro hne
  refine ⟨hlasts, ?_⟩
  cases h with
  | kept hsame _ => exact absurd hsame hne
  | @pushed f below _ hframes hid hsub =>
      refine ⟨f, below, hframes, fun g hg => ?_⟩
      rcases List.mem_map.1 (hsub.subset (List.mem_map_of_mem hg)) with ⟨old, hold, heq⟩
      rw [hid, ← heq]
      exact hp.numbered old hold

/-- The numbers that are used from the counter `first` on up to the state `q`: pushes are fresh
exactly if there are enough numbers left, and as long as there are, the counter counts them. -/
structure Counted (first : Nat) (q : Player) (past : List Player) : Prop where
  fresh_iff : (q :: past).IsChain (fun later earlier => earlier.PushesFresh later) ↔
    first + pushes (q :: past) < 2 ^ 64
  ordered : first + pushes (q :: past) < 2 ^ 64 → q.Ordered
  counter : first + pushes (q :: past) < 2 ^ 64 → q.counter.toNat = first + pushes (q :: past)

/-- One more state follows: it pushes a frame or it does not. -/
theorem Counted.cons {first : Nat} {past : List Player} (h : Counted first p past)
    (hq : Renumbered p q) : Counted first q (p :: past) := by
  by_cases hsame : q.counter = p.counter
  · -- No frame was pushed.
    have hpushes : pushes (q :: p :: past) = pushes (p :: past) := by simp [pushes, hsame]
    have hfresh : p.PushesFresh q := fun hne => absurd hsame hne
    refine ⟨?_, ?_, ?_⟩
    · rw [List.isChain_cons_cons, hpushes, h.fresh_iff]
      exact ⟨And.right, fun hlt => ⟨hfresh, hlt⟩⟩
    · rw [hpushes]
      exact fun hlt => hq.ordered (h.ordered hlt) (hsame ▸ UInt64.le_refl _)
    · rw [hpushes, hsame]
      exact h.counter
  · -- A frame was pushed, and its number is new unless the counter has run over.
    have hpushes : pushes (q :: p :: past) = pushes (p :: past) + 1 := by
      simp [pushes, hsame, Nat.add_comm]
    have hnext : q.counter.toNat = (p.counter.toNat + 1) % 2 ^ 64 := by
      cases hq with
      | kept hkept _ => exact absurd hkept hsame
      | pushed hnext _ _ _ => rw [hnext, UInt64.toNat_add]; rfl
    have hbefore : first + pushes (q :: p :: past) < 2 ^ 64 →
        first + pushes (p :: past) < 2 ^ 64 := by omega
    refine ⟨?_, fun hlt => ?_, fun hlt => ?_⟩
    · rw [List.isChain_cons_cons, h.fresh_iff]
      constructor
      · rintro ⟨hfresh, hlt⟩
        have hroom := (hfresh hsame).1
        rw [h.counter hlt] at hroom
        omega
      · intro hlt
        have hcounter := h.counter (hbefore hlt)
        exact ⟨hq.pushesFresh (h.ordered (hbefore hlt)) (by omega), hbefore hlt⟩
    · have hcounter := h.counter (hbefore hlt)
      refine hq.ordered (h.ordered (hbefore hlt)) ?_
      rw [UInt64.le_iff_toNat_le]
      omega
    · have hcounter := h.counter (hbefore hlt)
      omega

/-- By induction on the passage: the counter counts the frames that were pushed. -/
theorem Story.Passage.counted {past : List Player} (h : story.Passage p q past)
    (hp : p.Ordered) : Counted p.counter.toNat q past := by
  induction h with
  | start =>
      have hbound := p.counter.toNat_lt
      exact ⟨⟨fun _ => hbound, fun _ => List.IsChain.singleton _⟩, fun _ => hp, fun _ => rfl⟩
  | step _ _ hdispatch ih => exact ih.cons (step_of_dispatch hdispatch).restacked.renumbered
  | answer _ hanswer ih => exact ih.cons hanswer.restacked.renumbered

/-! ## Saves -/

/-- No frame has a greater number than the greatest one. -/
theorem le_greatestFrame {frames : List Frame} :
    ∀ f ∈ frames, f.id ≤ Snapshot.greatestFrame frames := by
  induction frames using List.reverseRecOn with
  | nil => simp
  | append_singleton lower top ih =>
      intro f hf
      rw [greatestFrame_append]
      rcases List.mem_append.1 hf with hlower | htop
      · have hle := ih f hlower
        split
        · next htop => exact UInt64.le_trans hle htop
        · exact hle
      · obtain rfl := List.mem_singleton.1 htop
        split
        · exact UInt64.le_refl _
        · next hless => exact UInt64.le_of_lt (UInt64.not_le.1 hless)

/-- A restored state is in order if there is a number above the greatest one of the save. -/
theorem ordered_restored {s : Snapshot} (h : s.Accepted story)
    (hlasts : (Snapshot.greatestFrame s.frames).toNat + 1 < 2 ^ 64) :
    s.restored.Ordered ∧
      s.restored.counter.toNat = (Snapshot.greatestFrame s.frames).toNat + 1 := by
  have hone : (1 : UInt64).toNat = 1 := rfl
  have hcounter : s.restored.counter.toNat = (Snapshot.greatestFrame s.frames).toNat + 1 := by
    simp only [Snapshot.restored, UInt64.toNat_add]
    omega
  refine ⟨⟨h.increasing, fun f hf => ?_⟩, hcounter⟩
  have hle := le_greatestFrame f (List.mem_reverse.1 hf)
  rw [UInt64.le_iff_toNat_le] at hle
  rw [UInt64.lt_iff_toNat_lt]
  omega

/-- Whatever is asked of a story that goes on from a save, it takes single steps and answers, each of
which pushes one frame at most, with the number of the counter.  The counter can be set, can be moved
on whenever a frame is pushed, and numbers every such frame above all others, exactly if the numbers
above the greatest one of the save are enough for the frames that are pushed. -/
theorem numbers_fresh_iff {s : Snapshot} (hcheck : s.check story = .ok ()) :
    (∀ requests, ∃ past,
      story.Passage s.restored (s.restored.play story requests) past) ∧
    ∀ q past, story.Passage s.restored q past →
      (q :: past).IsChain (fun later earlier => Renumbered earlier later) ∧
      ((Snapshot.greatestFrame s.frames).toNat + 1 < 2 ^ 64 ∧
          (q :: past).IsChain (fun later earlier => earlier.PushesFresh later) ↔
        (Snapshot.greatestFrame s.frames).toNat + 1 + pushes (q :: past) < 2 ^ 64) := by
  refine ⟨fun requests => Story.Passage.start.play requests, fun q past h => ⟨h.isChain, ?_⟩⟩
  by_cases hlasts : (Snapshot.greatestFrame s.frames).toNat + 1 < 2 ^ 64
  · rcases ordered_restored (Snapshot.check_iff.1 hcheck) hlasts with ⟨hordered, hcounter⟩
    rw [← hcounter, (h.counted hordered).fresh_iff]
    exact ⟨And.right, fun hlt => ⟨by omega, hlt⟩⟩
  · exact ⟨fun hfresh => absurd hfresh.1 hlasts, fun hlt => by omega⟩

/-! ## An example -/

/-- A choice inside of a branch, and a text after the branch. -/
def wrapTale : Story :=
  .ofScripts [
    ("main", .ofGroups "main" [] [
      ("main", [.branch "b" "true" "main.yes" none, .text "t" "after" false]),
      ("main.o", [.text "u" "inside" false]),
      ("main.yes", [.choice "c" none [⟨"o", "go on", none, false, false, "main.o"⟩]])])]

def wrapTale.saveWith (lower upper : UInt64) : Snapshot where
  schema := Snapshot.currentSchema
  version := wrapTale.version
  cursor := ⟨["main", "main.yes"], 0⟩
  frames := [
    { id := lower, group := "main", node := 1, scope := [], types := [], completion := .none,
      root := true, continuation := none },
    { id := upper, group := "main.yes", node := 0, scope := [], types := [],
      completion := .resumeAfterChild, root := false, continuation := none }]
  scopes := []
  continuations := []
  rng := 1
  waiting := true
  choice := "c"
  items := [⟨0, "o", "go on"⟩]
  prompt := none
  once := []

/-- With one number left the answer gets a fresh one. -/
theorem numbers_fresh_iff_wrapTale :
    let s := wrapTale.saveWith 0 18446744073709551613
    ∃ q, s.restored.choose wrapTale 0 = (.ok (), q) ∧ q.frames.map Frame.id =
        [18446744073709551614, 18446744073709551613, 0] ∧
      (((Snapshot.greatestFrame s.frames).toNat + 1 < 2 ^ 64 ∧
          [q, s.restored].IsChain (fun later earlier => earlier.PushesFresh later)) ↔
        (Snapshot.greatestFrame s.frames).toNat + 1 + pushes [q, s.restored] < 2 ^ 64) ∧
      (Snapshot.greatestFrame s.frames).toNat + 1 + pushes [q, s.restored] < 2 ^ 64 := by
  intro s
  have hcheck : s.check wrapTale = .ok () := by decide +kernel
  have hchoose : s.restored.choose wrapTale 0 = (.ok (), (s.restored.choose wrapTale 0).2) :=
    Prod.ext (by decide +kernel) rfl
  have hanswer := answer_of_choose (choose_eq_ok hchoose)
  refine ⟨_, hchoose, by decide +kernel, ?_, by decide +kernel⟩
  exact ((numbers_fresh_iff hcheck).2 _ _ (Story.Passage.start.answer hanswer)).2

/-- The save with the greatest number of all is accepted.  The next frame gets the number of the lowest
one, and when it ends, the lowest frame ends in its place: the text after the branch is not shown. -/
theorem wrapTale_ends_early :
    let s := wrapTale.saveWith 0 18446744073709551615
    s.check wrapTale = .ok () ∧
      (s.restored.choose wrapTale 0).1 = .ok () ∧
      ¬ s.restored.PushesFresh (s.restored.choose wrapTale 0).2 ∧
      (s.restored.play wrapTale [.choose 0]).frames.map Frame.id = [0, 18446744073709551615, 0] ∧
      ((s.restored.play wrapTale [.choose 0]).next wrapTale).1 = .ok (.text "inside") ∧
      ((s.restored.play wrapTale [.choose 0, .next]).next wrapTale).1 = .ok .ended ∧
      (((wrapTale.saveWith 0 1).restored.play wrapTale [.choose 0, .next]).next wrapTale).1 =
        .ok (.text "after") := by
  intro s
  refine ⟨by decide +kernel, by decide +kernel, fun hfresh => ?_, by decide +kernel,
    by decide +kernel, by decide +kernel, by decide +kernel⟩
  rcases hfresh (by decide +kernel) with ⟨-, f, below, hframes, hless⟩
  have hids := congrArg (List.map Frame.id) hframes
  have hlist : (s.restored.choose wrapTale 0).2.frames.map Frame.id =
      [0, 18446744073709551615, 0] := by
    decide +kernel
  rw [hlist] at hids
  obtain ⟨hid, hbelow⟩ := List.cons.inj hids
  obtain ⟨g, hg, heq⟩ : ∃ g ∈ below, g.id = 18446744073709551615 := by
    have hmem : (18446744073709551615 : UInt64) ∈ below.map Frame.id := hbelow ▸ List.mem_cons_self
    exact List.mem_map.1 hmem
  have hlt := hless g hg
  rw [← hid, heq] at hlt
  exact absurd hlt (by decide)

end StoryPlayer
