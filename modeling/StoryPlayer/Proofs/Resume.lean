import StoryPlayer.Player.Save
import StoryPlayer.Proofs.Lockstep
import StoryPlayer.Proofs.Reading

/-!
# Going on from a save

- `Player.Sound` gathers what is known of a state that a story reaches,
- `check_saveOf` shows that a save of such a state passes every check, and `restored_saveOf` that it
  describes the state itself, but for the counter: the next frame is numbered from the innermost
  frame on,
- `resume_invisible` concludes that nobody sees whether a story was saved and restored while a choice
  waited for an answer.
-/

namespace StoryPlayer

variable {story : Story} {script : String} {p q : Player}

/-! ## States that a story reaches -/

/-- What is known of the frames, of their variables and of the names that have been used. -/
structure Player.Sound (story : Story) (p : Player) : Prop where
  wellFormed : p.WellFormed story
  typed : p.Typed
  once : p.once.Proper story

/-- Every state that is reached from the start is sound. -/
theorem play_sound {arguments : Dict Value} {requests : List Request} (hproper : story.Proper)
    (hbegin : Player.begin story script arguments = .ok p)
    (hlasts : CounterLasts story p requests) : (p.play story requests).Sound story := by
  refine play_lasting requests ?_ hlasts ?_ ?_
  · refine ⟨begin_wellFormed hbegin, begin_typed hproper hbegin, ?_⟩
    rcases begin_eq_ok hbegin with ⟨callee, root, locals, -, -, -, rfl⟩
    exact Once.Proper.nil
  · intro p progress q hp hpending hdispatch hcounter
    have hstep := step_of_dispatch hdispatch
    exact ⟨hstep.wellFormed hp.wellFormed hpending hcounter, hstep.typed hproper hp.typed,
      hstep.once hp.once⟩
  · intro p index q hp hanswer hcounter
    exact ⟨hanswer.wellFormed hp.wellFormed hcounter, hanswer.typed hp.typed, hanswer.once hp.once⟩

/-! ## Checks -/

namespace Snapshot

/-- Items that are numbered and distinct are accepted. -/
theorem checkItems_ok {items : List ChoiceItem} {seen : List String} {position : Nat}
    (hnumbered : items.map ChoiceItem.index = List.range' position items.length)
    (hdistinct : (items.map ChoiceItem.id).Nodup) (hnew : ∀ item ∈ items, item.id ∉ seen) :
    checkItems seen position items = .ok () := by
  induction items generalizing seen position with
  | nil => rfl
  | cons item rest ih =>
      rcases List.cons.inj hnumbered with ⟨hindex, hrest⟩
      rcases List.nodup_cons.1 hdistinct with ⟨hother, hdistinct⟩
      have hfresh : seen.contains item.id = false := by simpa using hnew item List.mem_cons_self
      have hlater : ∀ later ∈ rest, later.id ∉ item.id :: seen := by
        intro later hlater hseen
        rcases List.mem_cons.1 hseen with hsame | hseen
        · exact hother (List.mem_map.2 ⟨later, hlater, hsame⟩)
        · exact hnew later (List.mem_cons_of_mem _ hlater) hseen
      simp only [checkItems, hindex, hfresh]
      simpa using ih hrest hdistinct hlater

theorem checkScope_ok {f : Frame} {scope : Dict Value}
    (h : ∀ entry ∈ scope, ∃ type, Dict.get? f.types entry.1 = some type ∧
      Value.fits type entry.2 = true) : checkScope f scope = .ok () := by
  induction scope with
  | nil => rfl
  | cons entry rest ih =>
      rcases h entry List.mem_cons_self with ⟨type, htype, hfits⟩
      simp only [checkScope, htype, hfits, if_true]
      exact ih fun later hlater => h later (List.mem_cons_of_mem _ hlater)

theorem checkOptions_ok {choice : String} {options : List ChoiceOption} {items : List ChoiceItem}
    (h : ∀ item ∈ items, ∃ option ∈ options, option.id = item.id) :
    checkOptions choice options items = .ok () := by
  induction items with
  | nil => rfl
  | cons item rest ih =>
      have hfirst : (options.any fun option => option.id == item.id) = true := by
        simpa using h item List.mem_cons_self
      simp only [checkOptions, hfirst, if_true]
      exact ih fun later hlater => h later (List.mem_cons_of_mem _ hlater)

theorem checkOnce_ok {once : Once}
    (h : ∀ entry ∈ once, Dict.contains story.scripts entry.1 = true) :
    checkOnce story once = .ok () := by
  induction once with
  | nil => rfl
  | cons entry rest ih =>
      simp only [checkOnce, h entry List.mem_cons_self, if_true]
      exact ih fun later hlater => h later (List.mem_cons_of_mem _ hlater)

/-! ## Checks of frames -/

variable {counter : UInt64} {f : Frame} {frames below : List Frame}

/-- A script continues into the frame below it. -/
theorem checkContinuation_ok (h : Frames.Stacked story counter (f :: below)) :
    checkContinuation (below.map Frame.id) f = .ok () := by
  unfold checkContinuation
  cases hc : f.continuation with
  | none => rfl
  | some c =>
      rcases h.below_of_continuation hc with ⟨lower, under, rfl⟩
      rcases h.caller hc with ⟨hid, -, -⟩
      have hroot : f.root = true := by
        cases (List.isChain_cons_cons.1 h.linked).1 with
        | called hroot _ _ _ _ => exact hroot
        | looping _ hnone _ _ => simp [hc] at hnone
        | nested _ hnone _ _ _ _ => simp [hc] at hnone
      simp [hroot, hid]

/-- A frame of an orderly, typed stack is accepted. -/
theorem checkFrame_ok (h : Frames.Stacked story counter (f :: below)) (htyped : f.Typed) :
    checkFrame story (below.map Frame.id) f = .ok () := by
  rcases h.placed f List.mem_cons_self with ⟨owner, group, hgroup, hplace⟩
  unfold checkFrame
  rw [hgroup]
  simp only [Nat.not_lt.2 hplace, if_false, checkScope_ok htyped]
  exact checkContinuation_ok h

/-- The frames above are checked after those below them. -/
theorem checkFrames_append {ids : List UInt64} {lower upper : List Frame}
    (h : checkFrames story ids lower = .ok ()) :
    checkFrames story ids (lower ++ upper) =
      checkFrames story ((lower.map Frame.id).reverse ++ ids) upper := by
  induction lower generalizing ids with
  | nil => rfl
  | cons f rest ih =>
      simp only [checkFrames] at h
      split at h
      · cases h
      · next horder =>
        cases hframe : checkFrame story ids f with
        | error fault => simp [hframe] at h
        | ok _ =>
            simp only [hframe] at h
            simp only [List.cons_append, checkFrames, horder, hframe, ih h]
            simp

/-- Every stack as it is while a story is played passes the checks, from the lowest frame on. -/
theorem checkFrames_ok (h : Frames.Stacked story counter frames) (htyped : ∀ f ∈ frames, f.Typed) :
    checkFrames story [] frames.reverse = .ok () := by
  induction frames with
  | nil => rfl
  | cons f below ih =>
      have hbelow := ih h.tail fun g hg => htyped g (List.mem_cons_of_mem _ hg)
      have hids : (below.reverse.map Frame.id).reverse ++ [] = below.map Frame.id := by simp
      have horder : ((below.map Frame.id).head?.any fun last => f.id ≤ last) = false := by
        cases below with
        | nil => rfl
        | cons lower under =>
            have hlt := (List.pairwise_cons.1 h.increasing).1 lower List.mem_cons_self
            simpa using hlt
      -- The frames below have passed; what is known of them from then on are their numbers.
      rw [List.reverse_cons, checkFrames_append hbelow, hids]
      simp only [checkFrames, horder, checkFrame_ok h (htyped f List.mem_cons_self)]
      rfl

/-- An orderly, typed stack is accepted. -/
theorem checkStack_ok (h : Frames.Stacked story counter (f :: below))
    (htyped : ∀ g ∈ f :: below, g.Typed) : checkStack story (f :: below).reverse = .ok () := by
  have hframes := checkFrames_ok h htyped
  cases hreverse : (f :: below).reverse with
  | nil => simp at hreverse
  | cons first rest =>
      have hlast : (f :: below).getLast? = some first := by
        rw [List.getLast?_eq_head?_reverse, hreverse]
        rfl
      rw [hreverse] at hframes
      simp only [checkStack, (h.bottom first hlast).1, if_true, hframes]

end Snapshot

/-! ## The save of a state -/

/-- The save of a state in which the choice waits for an answer. -/
def Player.saveOf (story : Story) (p : Player) (c : Pending) : Snapshot where
  schema := Snapshot.currentSchema
  version := story.version
  cursor := Snapshot.cursorOf p.frames.reverse
  frames := p.frames.reverse
  scopes := Snapshot.scopesOf p.frames.reverse
  continuations := Snapshot.continuationsOf p.frames.reverse
  rng := p.generator
  waiting := true
  choice := c.node
  items := c.items
  prompt := c.prompt
  once := p.once.saved

/-- While a choice waits the state can be saved. -/
theorem snapshot_pending {c : Pending} (h : p.pending = some c) :
    p.snapshot story = .ok (p.saveOf story c) := by
  unfold Player.snapshot
  rw [h]
  rfl

/-- What has been used is saved as it is if it is in order already. -/
theorem saved_eq {once : Once} (h : once.Proper story) : once.saved = once := by
  unfold Once.saved
  refine List.filter_eq_self.2 fun entry hentry => ?_
  simpa using h.names entry hentry

/-- Nothing that has been used is left out of a save, and all of it is in order already. -/
theorem ordered_saved {once : Once} (h : once.Proper story) :
    once.saved.map (fun entry => (entry.1, Once.orderKeys entry.2)) = once := by
  rw [saved_eq h]
  refine (List.map_congr_left fun entry hentry => ?_).trans (List.map_id _)
  rw [Once.orderKeys_eq (h.ordered entry hentry)]
  rfl

/-- The save of a waiting choice stands at this choice. -/
theorem checkChoice_saveOf {c : Pending} {f : Frame} {below : List Frame}
    (hframes : p.frames = f :: below) (h : c.OfferedAt story f) :
    Snapshot.checkChoice story (p.saveOf story c) = .ok () := by
  rcases h.node with ⟨prompt, options, hnode, hitems⟩
  unfold Frame.current? Story.nodeAt? at hnode
  have hlast : (p.saveOf story c).frames.getLast? = some f := by
    simp [Player.saveOf, hframes]
  unfold Snapshot.checkChoice
  rw [hlast]
  cases hgroup : story.group f.group with
  | error fault => simp [hgroup] at hnode
  | ok found =>
      simp only [hgroup] at hnode
      simp only [hgroup, hnode]
      simpa [Player.saveOf] using Snapshot.checkOptions_ok hitems

/-- A save passes every check, provided that the items of the choice have different names. -/
theorem check_saveOf {c : Pending} (hp : p.Sound story) (hpending : p.pending = some c)
    (hdistinct : (c.items.map ChoiceItem.id).Nodup) :
    (p.saveOf story c).check story = .ok () := by
  rcases hp.wellFormed.pending c hpending with ⟨-, f, below, hframes, hoffered⟩
  have hitems : Snapshot.checkItems [] 0 c.items = .ok () := by
    refine Snapshot.checkItems_ok ?_ hdistinct (by simp)
    rw [hoffered.numbered, List.range_eq_range']
  have hstack : Snapshot.checkStack story p.frames.reverse = .ok () := by
    have hstacked := hp.wellFormed.stacked
    have htyped := hp.typed
    unfold Player.Typed at htyped
    rw [hframes] at hstacked htyped ⊢
    exact Snapshot.checkStack_ok hstacked htyped
  have honce : Snapshot.checkOnce story p.once.saved = .ok () := by
    rw [saved_eq hp.once]
    exact Snapshot.checkOnce_ok hp.once.scripts
  have hchoice := checkChoice_saveOf hframes hoffered
  have hsome : c.items.isEmpty = false := by simpa using hoffered.items
  simp only [Snapshot.check, hchoice]
  simp only [Player.saveOf, hitems, hstack, honce, hsome, ne_eq, not_true_eq_false, Bool.not_true]
  rfl

/-! ## The state that a save describes -/

/-- The greatest number of frames, the innermost last. -/
theorem greatestFrame_append (frames : List Frame) (f : Frame) :
    Snapshot.greatestFrame (frames ++ [f]) =
      if Snapshot.greatestFrame frames ≤ f.id then f.id else Snapshot.greatestFrame frames := by
  unfold Snapshot.greatestFrame
  rw [List.foldl_append]
  rfl

theorem greatestFrame_le {id : UInt64} {frames : List Frame} (h : ∀ f ∈ frames, f.id ≤ id) :
    Snapshot.greatestFrame frames.reverse ≤ id := by
  induction frames with
  | nil => exact UInt64.zero_le
  | cons f rest ih =>
      rw [List.reverse_cons, greatestFrame_append]
      split
      · exact h f List.mem_cons_self
      · exact ih fun later hlater => h later (List.mem_cons_of_mem _ hlater)

/-- If numbers grow towards the innermost frame, it has the greatest one. -/
theorem greatestFrame_increasing {f : Frame} {below : List Frame}
    (h : (f :: below).Pairwise fun upper lower => lower.id < upper.id) :
    Snapshot.greatestFrame (f :: below).reverse = f.id := by
  have hbelow : Snapshot.greatestFrame below.reverse ≤ f.id := by
    refine greatestFrame_le fun lower hlower => ?_
    exact UInt64.le_of_lt ((List.pairwise_cons.1 h).1 lower hlower)
  rw [List.reverse_cons, greatestFrame_append, if_pos hbelow]

/-- A save describes the state itself, with the counter just behind the innermost frame. -/
theorem restored_saveOf {c : Pending} {f : Frame} {below : List Frame} (hp : p.Sound story)
    (hpending : p.pending = some c) (hframes : p.frames = f :: below) :
    (p.saveOf story c).restored = { p with counter := f.id + 1 } := by
  rcases hp.wellFormed.pending c hpending with ⟨hended, g, under, hframes', hoffered⟩
  rcases List.cons.inj (hframes.symm.trans hframes') with ⟨rfl, rfl⟩
  have hcounter : Snapshot.greatestFrame p.frames.reverse = f.id := by
    have hincreasing := hp.wellFormed.stacked.increasing
    rw [hframes] at hincreasing ⊢
    exact greatestFrame_increasing hincreasing
  -- The choice is given to the innermost frame, to which it belonged before.
  have hframe : (p.frames.reverse.getLast?.map Frame.id).getD 0 = c.frame := by
    simp [hframes, hoffered.frame]
  have honce := ordered_saved hp.once
  unfold Snapshot.restored
  simp only [Player.saveOf, List.reverse_reverse, hcounter, hframe, honce, ← hended, ← hpending]

/-- The state with the smallest counter for its frames is as good as the state itself. -/
theorem twins_restored {f : Frame} {below : List Frame} (hp : p.WellFormed story)
    (hframes : p.frames = f :: below) :
    Player.Twins story p.counter (f.id + 1) p { p with counter := f.id + 1 } := by
  have hstacked := hp.stacked
  rw [hframes] at hstacked
  have hlt : f.id < p.counter := hstacked.numbered f List.mem_cons_self
  -- The number after that of the innermost frame exists, as the counter is above it.
  have hnext : f.id < f.id + 1 ∧ f.id + 1 ≤ p.counter := by
    have hone : (1 : UInt64).toNat = 1 := rfl
    have hbound := p.counter.toNat_lt
    simp only [UInt64.lt_iff_toNat_lt, UInt64.le_iff_toNat_le, UInt64.toNat_add] at hlt ⊢
    omega
  refine ⟨⟨rfl, rfl, rfl, ?_, rfl, rfl⟩, hp, ⟨?_, hp.ended, hp.pending⟩, hnext.2, UInt64.le_refl _⟩
  · simp
  · rw [hframes]
    refine ⟨hstacked.increasing, ?_, hstacked.bottom, hstacked.linked, hstacked.placed⟩
    intro g hg
    rcases List.mem_cons.1 hg with rfl | hbelow
    · exact hnext.1
    · exact UInt64.lt_trans ((List.pairwise_cons.1 hstacked.increasing).1 g hbelow) hnext.1

/-- The seed plays no part in what is sound. -/
theorem sound_reseed (seed : UInt32) (hp : p.Sound story) : p.Sound (story.reseed seed) :=
  ⟨(wellFormed_reseed seed).2 hp.wellFormed, hp.typed, hp.once.names, hp.once.ordered,
    hp.once.scripts⟩

/-- A story that is saved while a choice with items of different names waits for an answer can be
restored by whoever plays the same story, with whatever seed and after whatever was played before.
From then on both show the same, whatever is asked of them.

Stories that are read are proper (`load_proper`), and numbers of frames do not run out in less than
`2 ^ 64 / guardLimit` requests (`counterLasts_of_length`). -/
theorem resume_invisible {arguments : Dict Value} {requests : List Request} {c : Pending}
    (hproper : story.Proper) (hbegin : Player.begin story script arguments = .ok p)
    (hlasts : CounterLasts story p requests)
    (hpending : (p.play story requests).pending = some c)
    (hdistinct : (c.items.map ChoiceItem.id).Nodup) (seed : UInt32) (before : Player) :
    ∃ save restored, (p.play story requests).snapshot story = .ok save ∧
      before.resume (story.reseed seed) save = (.ok (), restored) ∧
      restored.waiting = true ∧ restored.ended = (p.play story requests).ended ∧
      restored.generator = (p.play story requests).generator ∧
      ∀ more, CounterLasts story (p.play story requests) more →
        (p.play story requests).observe story more =
          restored.observe (story.reseed seed) more := by
  have hsound := play_sound hproper hbegin hlasts
  generalize p.play story requests = saved at *
  rcases hsound.wellFormed.pending c hpending with ⟨-, f, below, hframes, -⟩
  -- What was saved at a choice passes every check.
  have hcheck : (saved.saveOf story c).check (story.reseed seed) = .ok () :=
    check_saveOf (sound_reseed seed hsound) hpending hdistinct
  -- The restored player differs in its counter only.
  refine ⟨saved.saveOf story c, { saved with counter := f.id + 1 }, snapshot_pending hpending, ?_, ?_,
    rfl, rfl, fun more hmore => ?_⟩
  · unfold Player.resume
    rw [hcheck, restored_saveOf hsound hpending hframes]
  · simp [Player.waiting, hpending]
  · exact (twins_restored hsound.wellFormed hframes).observe seed hmore

/-- A script is called, in which a branch is taken and left before a choice is offered. -/
def detourTale : Story :=
  .ofScripts [
    ("inner", .ofGroups "inner" [] [
      ("inner", [.branch "b" "true" "inner.yes" none,
        .choice "c" none [⟨"o", "go on", none, false, false, "inner.o"⟩]]),
      ("inner.yes", [.text "t" "hello" false]),
      ("inner.o", [.text "u" "good bye" false])]),
    ("main", .ofGroups "main" [] [("main", [.call "k" "inner" []])])]

/-- The frame that was left has used up a number; the story that is restored uses this number
again. -/
theorem resume_invisible_detourTale :
    (detourTale.opening.play detourTale [.next, .next]).frames.map Frame.id = [2, 1] ∧
    (detourTale.opening.play detourTale [.next, .next]).counter = 4 ∧
    ∃ save restored,
      (detourTale.opening.play detourTale [.next, .next]).snapshot detourTale = .ok save ∧
      (Player.fresh 5).resume (detourTale.reseed 5) save = (.ok (), restored) ∧
      restored.waiting = true ∧
      restored.ended = (detourTale.opening.play detourTale [.next, .next]).ended ∧
      restored.generator = (detourTale.opening.play detourTale [.next, .next]).generator ∧
      ∀ more, CounterLasts detourTale (detourTale.opening.play detourTale [.next, .next]) more →
        (detourTale.opening.play detourTale [.next, .next]).observe detourTale more =
          restored.observe (detourTale.reseed 5) more := by
  have hproper : detourTale.Proper := by
    intro entry hentry param hparam
    have hnone : entry.2.params = [] := by
      rcases List.mem_pair.1 hentry with rfl | rfl <;> rfl
    rw [hnone] at hparam
    cases hparam
  have hbegin : Player.begin detourTale "main" [] = .ok detourTale.opening := rfl
  have hpending : (detourTale.opening.play detourTale [.next, .next]).pending =
      some ⟨2, "c", [⟨0, "o", "go on"⟩], none⟩ := by decide +kernel
  refine ⟨by decide +kernel, by decide +kernel, ?_⟩
  exact resume_invisible hproper hbegin (counterLasts_of_length _ (by decide)) hpending (by simp) 5
    (Player.fresh 5)

end StoryPlayer
