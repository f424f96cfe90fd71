import StoryPlayer.Proofs.Resume
import StoryPlayer.Proofs.TypeSafety

/-!
# What the check of a save tests

`Snapshot.Accepted` says what a save must look like to be restored; `check_iff` shows that the check
tests exactly this.  Of a continuation it tests which frame it names, but neither whether this is the
frame directly below nor the node with which that one is to go on.
-/

namespace StoryPlayer

variable {story : Story}

/-- A frame that returns to somewhere is that of a script, and returns to a frame below it. -/
def Frame.Returns (f : Frame) (below : List Frame) : Prop :=
  ∀ c, f.continuation = some c → f.root = true ∧ Frames.has below c.frame = true

/-- The frame stands at the choice, and every item is one of its options. -/
def Frame.Offers (story : Story) (f : Frame) (choice : String) (items : List ChoiceItem) : Prop :=
  ∃ prompt options, f.current? story = some (.choice choice prompt options) ∧
    ∀ item ∈ items, ∃ option ∈ options, option.id = item.id

/-- A save that may be restored. -/
structure Snapshot.Accepted (story : Story) (s : Snapshot) : Prop where
  schema : s.schema = currentSchema
  version : s.version = story.version
  waiting : s.waiting = true
  items : s.items ≠ []
  numbered : s.items.map ChoiceItem.index = List.range s.items.length
  distinct : (s.items.map ChoiceItem.id).Nodup
  /-- The frames are listed from the lowest on. -/
  bottom : ∃ f ∈ s.frames.head?, f.root = true
  increasing : s.frames.reverse.Pairwise fun upper lower => lower.id < upper.id
  placed : ∀ f ∈ s.frames, f.Placed story
  typed : ∀ f ∈ s.frames, f.Typed
  returns : ∀ f below, f :: below <:+ s.frames.reverse → f.Returns below
  choice : ∃ f ∈ s.frames.getLast?, f.Offers story s.choice s.items
  once : ∀ entry ∈ s.once, Dict.contains story.scripts entry.1 = true

namespace Snapshot

/-! ## Single frames -/

/-- The check of continuations accepts exactly those that return to a frame below, and only of
frames in which a script has started. -/
theorem checkContinuation_iff {f : Frame} {below : List Frame} :
    checkContinuation (below.map Frame.id) f = .ok () ↔ f.Returns below := by
  unfold checkContinuation Frame.Returns
  cases hc : f.continuation with
  | none => simp
  | some c => simp [Frames.has]

/-- The check of variables accepts exactly values of the declared types. -/
theorem checkScope_iff {f : Frame} : checkScope f f.scope = .ok () ↔ f.Typed :=
  ⟨typed_of_checkScope, checkScope_ok⟩

/-- A frame is accepted exactly if it stands in its group, is typed, and returns to a frame below
it. -/
theorem checkFrame_iff {f : Frame} {below : List Frame} :
    checkFrame story (below.map Frame.id) f = .ok () ↔
      f.Placed story ∧ f.Typed ∧ f.Returns below := by
  rw [← checkScope_iff, ← checkContinuation_iff]
  unfold checkFrame Frame.Placed
  cases hgroup : story.group f.group with
  | error fault => simp
  | ok found =>
      rcases found with ⟨script, group⟩
      by_cases hplace : group.nodes.length < f.node
      · have hout : ¬ f.node ≤ group.nodes.length := Nat.not_le.2 hplace
        simp [hplace, hout]
      · have hin : f.node ≤ group.nodes.length := Nat.not_lt.1 hplace
        cases hscope : checkScope f f.scope <;> simp [hplace, hin]

/-! ## Stacks -/

/-- The lower frames of an accepted stack are accepted themselves. -/
theorem checkFrames_of_append {ids : List UInt64} {lower upper : List Frame}
    (h : checkFrames story ids (lower ++ upper) = .ok ()) :
    checkFrames story ids lower = .ok () := by
  induction lower generalizing ids with
  | nil => rfl
  | cons f rest ih =>
      simp only [List.cons_append, checkFrames] at h ⊢
      split at h
      · cases h
      · next horder =>
        rw [if_neg horder]
        cases hframe : checkFrame story ids f with
        | error fault => simp [hframe] at h
        | ok _ =>
            simp only [hframe] at h
            exact ih h

/-- One more frame is put on a stack that has passed the checks. -/
theorem checkFrames_cons_iff {f : Frame} {below : List Frame} :
    checkFrames story [] (f :: below).reverse = .ok () ↔
      checkFrames story [] below.reverse = .ok () ∧
        (∀ lower ∈ below.head?, lower.id < f.id) ∧
        checkFrame story (below.map Frame.id) f = .ok () := by
  have hids : (below.reverse.map Frame.id).reverse ++ [] = below.map Frame.id := by simp
  have horder : ((below.map Frame.id).head?.any fun last => f.id ≤ last) = false ↔
      ∀ lower ∈ below.head?, lower.id < f.id := by
    cases below <;> simp
  -- Frames are checked from the bottom up, so the innermost one comes last.
  rw [List.reverse_cons]
  constructor
  · intro h
    have hbelow := checkFrames_of_append h
    rw [checkFrames_append hbelow, hids] at h
    simp only [checkFrames] at h
    split at h
    · cases h
    · next hlast =>
      refine ⟨hbelow, horder.1 (by simpa using hlast), ?_⟩
      split at h
      · cases h
      · next hframe => exact hframe
  · rintro ⟨hbelow, hlast, hframe⟩
    rw [checkFrames_append hbelow, hids]
    simp only [checkFrames, horder.2 hlast, hframe]
    rfl

/-- Numbers that increase from each frame to the next increase throughout. -/
theorem increasing_cons_iff {f : Frame} {below : List Frame} :
    (f :: below).Pairwise (fun upper lower => lower.id < upper.id) ↔
      below.Pairwise (fun upper lower => lower.id < upper.id) ∧
        ∀ lower ∈ below.head?, lower.id < f.id := by
  rw [List.pairwise_cons]
  constructor
  · rintro ⟨hfirst, hbelow⟩
    refine ⟨hbelow, fun lower hlower => ?_⟩
    exact hfirst lower (List.mem_of_mem_head? hlower)
  · rintro ⟨hbelow, hfirst⟩
    refine ⟨fun lower hlower => ?_, hbelow⟩
    cases below with
    | nil => cases hlower
    | cons next under =>
        have hnext := hfirst next rfl
        rcases List.mem_cons.1 hlower with rfl | hunder
        · exact hnext
        · exact UInt64.lt_trans ((List.pairwise_cons.1 hbelow).1 lower hunder) hnext

/-- A stack is accepted exactly if its numbers increase and each frame is right above those below
it. -/
theorem checkFrames_iff {frames : List Frame} :
    checkFrames story [] frames.reverse = .ok () ↔
      frames.Pairwise (fun upper lower => lower.id < upper.id) ∧
        (∀ f ∈ frames, f.Placed story) ∧ (∀ f ∈ frames, f.Typed) ∧
        ∀ f below, f :: below <:+ frames → f.Returns below := by
  induction frames with
  | nil => simp [checkFrames]
  | cons f below ih =>
      rw [checkFrames_cons_iff, ih, checkFrame_iff, increasing_cons_iff, List.forall_mem_cons,
        List.forall_mem_cons]
      constructor
      · rintro ⟨⟨hincreasing, hplaced, htyped, hreturns⟩, hlast, hplace, htype, hreturn⟩
        refine ⟨⟨hincreasing, hlast⟩, ⟨hplace, hplaced⟩, ⟨htype, htyped⟩, fun g under hg => ?_⟩
        rcases List.suffix_cons_iff.1 hg with heq | hg
        · cases heq
          exact hreturn
        · exact hreturns g under hg
      · rintro ⟨⟨hincreasing, hlast⟩, ⟨hplace, hplaced⟩, ⟨htype, htyped⟩, hreturns⟩
        refine ⟨⟨hincreasing, hplaced, htyped, fun g under hg => ?_⟩, hlast, hplace, htype,
          hreturns f below (List.suffix_refl _)⟩
        exact hreturns g under (hg.trans (List.suffix_cons f below))

/-- On top of that the lowest frame must be that of a script. -/
theorem checkStack_iff {frames : List Frame} :
    checkStack story frames = .ok () ↔
      (∃ f ∈ frames.head?, f.root = true) ∧ checkFrames story [] frames = .ok () := by
  cases frames with
  | nil => simp [checkStack]
  | cons f rest =>
      unfold checkStack
      by_cases hroot : f.root = true <;> simp [hroot]

/-! ## Choices and names -/

/-- Items are accepted exactly if they are numbered in order and no name occurs twice. -/
theorem checkItems_iff {seen : List String} {position : Nat} {items : List ChoiceItem} :
    checkItems seen position items = .ok () ↔
      items.map ChoiceItem.index = List.range' position items.length ∧
        (items.map ChoiceItem.id).Nodup ∧ ∀ item ∈ items, item.id ∉ seen := by
  refine ⟨fun h => ?_, fun ⟨hnumbered, hdistinct, hnew⟩ => checkItems_ok hnumbered hdistinct hnew⟩
  induction items generalizing seen position with
  | nil => simp
  | cons item rest ih =>
      simp only [checkItems] at h
      split at h
      · cases h
      · next hitem =>
        obtain ⟨hindex, hseen⟩ : item.index = position ∧ item.id ∉ seen := by simpa using hitem
        rcases ih h with ⟨hnumbered, hdistinct, hnew⟩
        refine ⟨?_, ?_, ?_⟩
        · rw [List.map_cons, List.length_cons, List.range'_succ, hindex, hnumbered]
        · refine List.nodup_cons.2 ⟨fun hmem => ?_, hdistinct⟩
          rcases List.mem_map.1 hmem with ⟨later, hlater, hsame⟩
          exact hnew later hlater (hsame ▸ List.mem_cons_self)
        · intro other hother
          rcases List.mem_cons.1 hother with rfl | hlater
          · exact hseen
          · exact fun hmem => hnew other hlater (List.mem_cons_of_mem _ hmem)

/-- Every item must be one of the options; options may be missing among the items. -/
theorem checkOptions_iff {choice : String} {options : List ChoiceOption}
    {items : List ChoiceItem} :
    checkOptions choice options items = .ok () ↔
      ∀ item ∈ items, ∃ option ∈ options, option.id = item.id := by
  refine ⟨fun h => ?_, checkOptions_ok⟩
  induction items with
  | nil => simp
  | cons item rest ih =>
      simp only [checkOptions] at h
      split at h
      · next hfound =>
        exact List.forall_mem_cons.2 ⟨by simpa using hfound, ih h⟩
      · cases h

/-- The innermost frame must stand at the choice that was saved. -/
theorem checkChoice_iff {s : Snapshot} :
    checkChoice story s = .ok () ↔
      ∃ f ∈ s.frames.getLast?, f.Offers story s.choice s.items := by
  unfold checkChoice Frame.Offers Frame.current? Story.nodeAt?
  cases hlast : s.frames.getLast? with
  | none => simp
  | some f =>
      cases hgroup : story.group f.group with
      | error fault => simp [hgroup]
      | ok found =>
          cases hnode : found.2.nodes[f.node]? with
          | none => simp [hgroup, hnode]
          | some node =>
              cases node with
              | choice id prompt options =>
                  by_cases hid : id = s.choice
                  · simp [hgroup, hnode, hid, checkOptions_iff]
                  · simp [hgroup, hnode, hid]
              | _ => simp [hgroup, hnode]

/-- What has been used must be of scripts of the story; the names below them are not looked at. -/
theorem checkOnce_iff {once : Once} :
    checkOnce story once = .ok () ↔
      ∀ entry ∈ once, Dict.contains story.scripts entry.1 = true := by
  refine ⟨fun h => ?_, checkOnce_ok⟩
  induction once with
  | nil => simp
  | cons entry rest ih =>
      simp only [checkOnce] at h
      split at h
      · next hscript => exact List.forall_mem_cons.2 ⟨hscript, ih h⟩
      · cases h

/-! ## Saves -/

/-- A computation succeeds if both of its parts do. -/
theorem andThen_eq_ok {e rest : Except Fault Unit} :
    (e >>= fun _ => rest) = .ok () ↔ e = .ok () ∧ rest = .ok () := by
  cases e with
  | error fault => simp [bind, Except.bind]
  | ok _ => simp [bind, Except.bind]

/-- A test is passed if it does not refuse the save. -/
theorem unless_eq_ok {refused : Prop} [Decidable refused] {fault : Fault}
    {rest : Except Fault Unit} :
    (if refused then throw fault >>= fun _ : PUnit => rest else rest) = .ok () ↔
      ¬ refused ∧ rest = .ok () := by
  by_cases h : refused
  · simp [h, throw, throwThe, MonadExceptOf.throw, bind, Except.bind]
  · simp [h]

/-- The check tests exactly what is required of a save. -/
theorem check_iff {s : Snapshot} : s.check story = .ok () ↔ s.Accepted story := by
  have hcheck : s.check story = .ok () ↔
      s.schema = currentSchema ∧ s.version = story.version ∧ s.waiting = true ∧ s.items ≠ [] ∧
        checkItems [] 0 s.items = .ok () ∧ checkStack story s.frames = .ok () ∧
        checkChoice story s = .ok () ∧ checkOnce story s.once = .ok () := by
    unfold check
    rw [unless_eq_ok, unless_eq_ok, unless_eq_ok, unless_eq_ok, andThen_eq_ok, andThen_eq_ok,
      andThen_eq_ok]
    simp
  have hframes := @checkFrames_iff story s.frames.reverse
  simp only [List.reverse_reverse, List.mem_reverse] at hframes
  rw [hcheck, checkItems_iff, checkStack_iff, checkChoice_iff, checkOnce_iff, hframes,
    ← List.range_eq_range']
  constructor
  · rintro ⟨hschema, hversion, hwaiting, hitems, ⟨hnumbered, hdistinct, -⟩,
      ⟨hbottom, hincreasing, hplaced, htyped, hreturns⟩, hchoice, honce⟩
    exact ⟨hschema, hversion, hwaiting, hitems, hnumbered, hdistinct, hbottom, hincreasing,
      hplaced, htyped, hreturns, hchoice, honce⟩
  · intro h
    exact ⟨h.schema, h.version, h.waiting, h.items, ⟨h.numbered, h.distinct, by simp⟩,
      ⟨h.bottom, h.increasing, h.placed, h.typed, h.returns⟩, h.choice, h.once⟩

end Snapshot
end StoryPlayer
