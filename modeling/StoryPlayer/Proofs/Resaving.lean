import Mathlib.Data.List.Nodup
import StoryPlayer.Proofs.Numbering

/-!
# Saving again

A story that goes on from a save can be saved again.  The save may have been written by hand, so less
is known of its frames than of those of a story that was started:

- `Frames.Standing` is what every accepted save says of its stack and what steps keep,
- `Frame.ReturnsNearby` is what the check leaves out: a script returns to the frame directly below, or
  to a node of the group of the frame that it names,
- `resave_iff`: the next save is accepted exactly if no frame stands outside of its group, and this is
  certain if every script of the first save returned nearby.
-/

namespace StoryPlayer

variable {story : Story} {p q : Player}

/-! ## Stems -/

def Frame.stem (f : Frame) : Frame :=
  { f with node := 0, scope := [], types := [] }

/-- What frames of the same stem have in common. -/
structure Frame.Akin (f g : Frame) : Prop where
  id : g.id = f.id
  group : g.group = f.group
  root : g.root = f.root
  continuation : g.continuation = f.continuation

/-- Frames of one stem have the same number, group and way back. -/
theorem Frame.akin_of_stem {f g : Frame} (h : g.stem = f.stem) : f.Akin g := by
  simp only [Frame.stem, Frame.mk.injEq] at h
  rcases h with ⟨hid, hgroup, -, -, -, -, hroot, hcontinuation⟩
  exact ⟨hid, hgroup, hroot, hcontinuation⟩

theorem Frame.stem_of_outline {f g : Frame} (h : g.outline = f.outline) : g.stem = f.stem := by
  have hstem : g.outline.stem = f.outline.stem := by rw [h]
  exact hstem

namespace Frames

variable {fs gs : List Frame} {f g : Frame} {below : List Frame}

/-- The stacks differ in variables and cursors only. -/
def SameStems (fs gs : List Frame) : Prop :=
  gs.map Frame.stem = fs.map Frame.stem

namespace SameStems

theorem refl (fs : List Frame) : SameStems fs fs := rfl

theorem symm (h : SameStems fs gs) : SameStems gs fs := Eq.symm h

theorem trans {hs : List Frame} (hfg : SameStems fs gs) (hgh : SameStems gs hs) : SameStems fs hs :=
  Eq.trans hgh hfg

theorem cons (hf : g.stem = f.stem) (h : SameStems fs gs) : SameStems (f :: fs) (g :: gs) := by
  unfold SameStems at *
  rw [List.map_cons, List.map_cons, hf, h]

theorem of_shape (h : SameShape fs gs) : SameStems fs gs := by
  have hstems : (gs.map Frame.outline).map Frame.stem = (fs.map Frame.outline).map Frame.stem := by
    rw [h]
  rwa [List.map_map, List.map_map] at hstems

/-- Moving a frame changes no stem. -/
theorem moveTo (id : UInt64) (node : Nat) (fs : List Frame) :
    SameStems fs (Frames.moveTo id node fs) := by
  induction fs with
  | nil => rfl
  | cons f below ih =>
      simp only [Frames.moveTo]
      split
      · exact cons rfl ih
      · split
        · exact cons rfl (refl below)
        · exact refl (f :: below)

theorem has (h : SameStems fs gs) (id : UInt64) : has gs id = has fs id := by
  have hany : ∀ frames : List Frame, Frames.has frames id =
      (frames.map Frame.stem).any fun frame => frame.id == id := by
    intro frames
    rw [List.any_map]
    rfl
  rw [hany, hany, h]

/-- Every frame has its counterpart, above the counterparts of the frames below it. -/
theorem suffix (h : SameStems fs gs) (hg : g :: below <:+ gs) :
    ∃ f under, f :: under <:+ fs ∧ g.stem = f.stem ∧ SameStems under below := by
  induction gs generalizing fs with
  | nil => simp at hg
  | cons first rest ih =>
      cases fs with
      | nil => simp [SameStems] at h
      | cons f under =>
          rcases List.cons.inj h with ⟨hhead, htail⟩
          rcases List.suffix_cons_iff.1 hg with heq | hg
          · cases heq
            exact ⟨f, under, List.suffix_refl _, hhead, htail⟩
          · rcases ih htail hg with ⟨f', under', hsuffix, hstem, hbelow⟩
            exact ⟨f', under', hsuffix.trans (List.suffix_cons f under), hstem, hbelow⟩

/-- Every frame has one of its stem in the other stack. -/
theorem mem (h : SameStems fs gs) (hg : g ∈ gs) : ∃ f ∈ fs, g.stem = f.stem := by
  have hmem : g.stem ∈ fs.map Frame.stem := h ▸ List.mem_map_of_mem hg
  rcases List.mem_map.1 hmem with ⟨f, hf, heq⟩
  exact ⟨f, hf, heq.symm⟩

end SameStems
end Frames

/-! ## Stacks of accepted saves -/

/-- The lowest frame is that of a script, and every frame that returns to somewhere is that of a
script and returns to a frame below it. -/
structure Frames.Standing (frames : List Frame) : Prop where
  bottom : ∀ f ∈ frames.getLast?, f.root = true
  returns : ∀ f below, f :: below <:+ frames → f.Returns below

namespace Frames.Standing

variable {fs gs : List Frame} {f g : Frame} {below : List Frame}

theorem congr (h : Standing fs) (hgs : SameStems fs gs) : Standing gs := by
  constructor
  · intro g hg
    have hlast : (gs.map Frame.stem).getLast? = (fs.map Frame.stem).getLast? := by rw [hgs]
    rw [List.getLast?_map, List.getLast?_map, Option.mem_def.1 hg, Option.map_some] at hlast
    rcases Option.map_eq_some_iff.1 hlast.symm with ⟨f, hf, hstem⟩
    exact (Frame.akin_of_stem hstem.symm).root.trans (h.bottom f hf)
  · intro g below hg c hc
    rcases hgs.suffix hg with ⟨f, under, hsuffix, hstem, hbelow⟩
    have hakin := Frame.akin_of_stem hstem
    rw [hakin.root, hbelow.has]
    exact h.returns f under hsuffix c (hakin.continuation.symm.trans hc)

/-- The lower end of a standing stack is standing. -/
theorem suffix (h : Standing fs) (hgs : gs <:+ fs) : Standing gs := by
  refine ⟨fun f hf => h.bottom f ?_, fun f below hf => h.returns f below (hf.trans hgs)⟩
  rcases hgs with ⟨above, rfl⟩
  rw [Option.mem_def] at hf ⊢
  simp [List.getLast?_append, hf]

/-- A frame may be pushed if it returns to a frame below it; the lowest one is that of a script. -/
theorem push (h : Standing fs) (hroot : fs = [] → g.root = true) (hreturns : g.Returns fs) :
    Standing (g :: fs) := by
  constructor
  · intro f hf
    cases fs with
    | nil =>
        obtain rfl : g = f := Option.some.inj hf
        exact hroot rfl
    | cons first rest => exact h.bottom f (by simpa using hf)
  · intro f below hf
    rcases List.suffix_cons_iff.1 hf with heq | hf
    · cases heq
      exact hreturns
    · exact h.returns f below hf

end Frames.Standing

/-- A script that takes the place of another one returns to a frame below it, as that one did. -/
theorem Frame.Returns.replaced {root g : Frame} {below after : List Frame}
    (h : root.Returns below) (hafter : Frames.SameShape below after) (hroot : g.root = true)
    (hplace : g.continuation.map Continuation.place = root.continuation.map Continuation.place) :
    g.Returns after := by
  intro c hc
  rw [hc, Option.map_some] at hplace
  rcases Option.map_eq_some_iff.1 hplace.symm with ⟨d, hd, heq⟩
  have hframe : d.frame = c.frame := congrArg Prod.fst heq
  rw [hafter.has, ← hframe]
  exact ⟨hroot, (h d hd).2⟩

/-- A step keeps a stack standing, whatever it does to it. -/
theorem Restacked.standing (h : Restacked story p q) (hp : p.Ordered)
    (hs : Frames.Standing p.frames) : Frames.Standing q.frames := by
  cases h with
  | dropped hfs hsuffix _ => exact (hs.congr (.of_shape hfs)).suffix hsuffix
  | @advanced fs below f _ hfs hsuffix _ hq _ =>
      have hstems : Frames.SameStems (f :: below) (f.advanced :: below) := rfl
      exact ((hs.congr (.of_shape hfs)).suffix hsuffix).congr (hstems.trans (.of_shape hq))
  | ended hremoved hq _ =>
      have hothers := (List.suffix_cons _ _).trans (hremoved.suffix hp.nodup)
      exact (hs.suffix hothers).congr (.of_shape hq)
  | returned hremoved _ _ hafter hq _ =>
      have hothers := (List.suffix_cons _ _).trans (hremoved.suffix hp.nodup)
      rw [hq]
      exact (hs.suffix hothers).congr ((Frames.SameStems.of_shape hafter).trans (.moveTo _ _ _))
  | @entered fs below f f' _ _ _ _ hfs hsuffix _ hf _ hq _ =>
      rw [hq]
      refine Frames.Standing.push ?_ (fun hnil => nomatch hnil) (fun c hc => nomatch hc)
      refine ((hs.congr (.of_shape hfs)).suffix hsuffix).congr (.cons ?_ (.refl below))
      rcases hf with rfl | rfl <;> rfl
  | @called f below _ _ _ _ _ hfs _ _ hq _ =>
      rw [hq]
      refine (hs.congr (.of_shape hfs)).push (fun hnil => nomatch hnil) fun c hc => ?_
      obtain rfl := Option.some.inj hc
      exact ⟨rfl, by simp [Frames.has]⟩
  | @replaced fs below after root _ _ _ _ hfs hsuffix _ hafter hplace _ hq _ =>
      have hstack := (hs.congr (.of_shape hfs)).suffix hsuffix
      have hbelow := (hstack.suffix (List.suffix_cons root below)).congr (.of_shape hafter)
      rw [hq]
      refine hbelow.push (fun _ => rfl) ?_
      exact (hstack.returns root below (List.suffix_refl _)).replaced hafter rfl hplace

/-! ## Cursors -/

/-- A script returns to the frame directly below it, or to a node of the group of the frame that it
names. -/
def Frame.ReturnsNearby (story : Story) (f : Frame) (below : List Frame) : Prop :=
  ∀ c, f.continuation = some c →
    (∃ lower ∈ below.head?, lower.id = c.frame) ∨
      ∃ g ∈ below, g.id = c.frame ∧ Frame.Placed story { g with node := c.node }

/-- No frame below the innermost one stands outside of its group, and no script will move one
there. -/
structure Frames.Orderly (story : Story) (frames : List Frame) : Prop where
  placed : ∀ f ∈ frames.tail, f.Placed story
  nearby : ∀ f below, f :: below <:+ frames → f.ReturnsNearby story below

/-- Variables do not matter for where a frame stands. -/
theorem placed_of_outline {f g : Frame} (h : g.outline = f.outline) (hf : f.Placed story) :
    g.Placed story := by
  have hnode : g.outline.node = f.outline.node := by rw [h]
  have hsame : g.node = f.node := hnode
  unfold Frame.Placed at *
  rw [(Frame.akin_of_stem (Frame.stem_of_outline h)).group, hsame]
  exact hf

/-- A frame that stands at a node stands in its group. -/
theorem Frame.Placed.at_current {f : Frame} {node : Node} (h : f.current? story = some node) :
    f.Placed story := by
  rcases Frame.current?_eq_some h with ⟨found, hgroup, hnode⟩
  have hlt : f.node < found.2.nodes.length := (List.getElem?_eq_some_iff.1 hnode).1
  exact ⟨found.1, found.2, hgroup, Nat.le_of_lt hlt⟩

/-- Which frames a script may return to does not depend on variables and cursors. -/
theorem Frame.ReturnsNearby.congr {f g : Frame} {below under : List Frame}
    (h : f.ReturnsNearby story below)
    (hplace : g.continuation.map Continuation.place = f.continuation.map Continuation.place)
    (hunder : Frames.SameStems below under) : g.ReturnsNearby story under := by
  intro c hc
  rw [hc, Option.map_some] at hplace
  rcases Option.map_eq_some_iff.1 hplace.symm with ⟨d, hd, heq⟩
  have hframe : d.frame = c.frame := congrArg Prod.fst heq
  have hnode : d.node = c.node := congrArg Prod.snd heq
  rcases h d hd with ⟨lower, hlower, hid⟩ | ⟨named, hnamed, hid, hplaced⟩
  · refine Or.inl ?_
    have hheads : (under.map Frame.stem).head? = (below.map Frame.stem).head? := by rw [hunder]
    rw [List.head?_map, List.head?_map, Option.mem_def.1 hlower] at hheads
    rcases Option.map_eq_some_iff.1 hheads with ⟨first, hfirst, hstem⟩
    exact ⟨first, hfirst, (Frame.akin_of_stem hstem).id.trans (hid.trans hframe)⟩
  · refine Or.inr ?_
    rcases hunder.symm.mem hnamed with ⟨other, hother, hstem⟩
    have hakin := Frame.akin_of_stem hstem.symm
    refine ⟨other, hother, hakin.id.trans (hid.trans hframe), ?_⟩
    simpa only [Frame.Placed, hakin.group, ← hnode] using hplaced

namespace Frames

variable {fs gs : List Frame} {f g : Frame} {below : List Frame}

/-- Every frame but the innermost has one of its outline in the other stack. -/
theorem SameShape.mem_tail (h : SameShape fs gs) (hg : g ∈ gs.tail) :
    ∃ f ∈ fs.tail, g.outline = f.outline := by
  have htails : gs.tail.map Frame.outline = fs.tail.map Frame.outline := by
    rw [List.map_tail, List.map_tail, h]
  have hmem : g.outline ∈ fs.tail.map Frame.outline := htails ▸ List.mem_map_of_mem hg
  rcases List.mem_map.1 hmem with ⟨f, hf, heq⟩
  exact ⟨f, hf, heq.symm⟩

theorem tail_subset_of_suffix (h : gs <:+ fs) : gs.tail ⊆ fs.tail := by
  cases fs with
  | nil => simp [List.suffix_nil.1 h]
  | cons f below =>
      rcases List.suffix_cons_iff.1 h with rfl | h
      · exact List.Subset.refl _
      · exact List.Subset.trans (List.tail_sublist gs).subset h.subset

namespace Orderly

theorem congr (h : Orderly story fs) (hgs : SameShape fs gs) : Orderly story gs := by
  constructor
  · intro g hg
    rcases hgs.mem_tail hg with ⟨f, hf, houtline⟩
    exact placed_of_outline houtline (h.placed f hf)
  · intro g below hg
    rcases (SameStems.of_shape hgs).suffix hg with ⟨f, under, hsuffix, hstem, hbelow⟩
    have hcontinuation := (Frame.akin_of_stem hstem).continuation
    exact (h.nearby f under hsuffix).congr (by rw [hcontinuation]) hbelow

theorem suffix (h : Orderly story fs) (hgs : gs <:+ fs) : Orderly story gs :=
  ⟨fun f hf => h.placed f (tail_subset_of_suffix hgs hf),
    fun f below hf => h.nearby f below (hf.trans hgs)⟩

/-- The frames below a frame are placed. -/
theorem under (h : Orderly story fs) (hf : f :: below <:+ fs) :
    Orderly story below ∧ ∀ g ∈ below, g.Placed story :=
  ⟨h.suffix ((List.suffix_cons f below).trans hf), fun g hg => h.placed g
    (tail_subset_of_suffix hf hg)⟩

/-- A frame may be pushed on an orderly stack whose frames are placed, if it returns nearby. -/
theorem push (h : Orderly story fs) (hfs : ∀ f ∈ fs, f.Placed story)
    (hnearby : g.ReturnsNearby story fs) : Orderly story (g :: fs) := by
  refine ⟨hfs, fun f below hf => ?_⟩
  rcases List.suffix_cons_iff.1 hf with heq | hf
  · cases heq
    exact hnearby
  · exact h.nearby f below hf

/-- The innermost frame may move on. -/
theorem moved (h : Orderly story (f :: below)) (hg : g.stem = f.stem) :
    Orderly story (g :: below) := by
  have hcontinuation := (Frame.akin_of_stem hg).continuation
  refine (h.suffix (List.suffix_cons f below)).push h.placed ?_
  exact (h.nearby f below (List.suffix_refl _)).congr (by rw [hcontinuation]) (.refl below)

end Orderly

/-- A frame that is moved by its number, if no number is used twice. -/
theorem moveTo_eq_map {id : UInt64} {node : Nat} (h : (fs.map Frame.id).Nodup) :
    moveTo id node fs = fs.map fun f => if f.id = id then { f with node } else f := by
  induction fs with
  | nil => rfl
  | cons f below ih =>
      rcases List.nodup_cons.1 h with ⟨hnot, hbelow⟩
      have hrest := ih hbelow
      simp only [moveTo, List.map_cons]
      by_cases hhas : has below id = true
      · -- The number belongs to a frame below, so it is not that of the first one.
        rcases List.any_eq_true.1 hhas with ⟨g, hg, hid⟩
        have hne : f.id ≠ id := by
          rintro rfl
          exact hnot (List.mem_map.2 ⟨g, hg, by simpa using hid⟩)
        rw [if_pos hhas, if_neg hne, hrest]
      · have hnone : below.map (fun f => if f.id = id then { f with node } else f) = below := by
          refine (List.map_congr_left fun g hg => ?_).trans (List.map_id below)
          have hne : g.id ≠ id := by
            rintro rfl
            exact hhas (List.any_eq_true.2 ⟨g, hg, by simp⟩)
          rw [if_neg hne]
          rfl
        rw [if_neg hhas, hnone]
        split <;> rfl

/-- When a script returns nearby, no frame below the innermost one leaves its group. -/
theorem Orderly.returned {c : Continuation} {after : List Frame} (h : Orderly story (g :: fs))
    (hdistinct : (fs.map Frame.id).Nodup) (hc : g.continuation = some c)
    (hafter : SameShape fs after) : Orderly story (moveTo c.frame c.node after) := by
  rcases h.under (List.suffix_refl _) with ⟨horderly, hplaced⟩
  constructor
  · intro f hf
    have hafterDistinct : (after.map Frame.id).Nodup := hafter.ids ▸ hdistinct
    rw [moveTo_eq_map hafterDistinct, ← List.map_tail] at hf
    rcases List.mem_map.1 hf with ⟨old, hold, rfl⟩
    rcases hafter.mem_tail hold with ⟨first, hfirst, houtline⟩
    have hakin := Frame.akin_of_stem (Frame.stem_of_outline houtline)
    by_cases hmoved : old.id = c.frame
    · rw [if_pos hmoved]
      -- The frame that is moved is not the innermost one, so the node is one of its group.
      rcases h.nearby g fs (List.suffix_refl _) c hc with ⟨lower, hlower, hlowerId⟩ |
        ⟨named, hnamed, hnamedId, hnamedPlaced⟩
      · exfalso
        cases fs with
        | nil => cases hlower
        | cons top under =>
            obtain rfl : top = lower := Option.some.inj hlower
            refine (List.nodup_cons.1 hdistinct).1 (List.mem_map.2 ⟨first, hfirst, ?_⟩)
            rw [← hakin.id, hmoved, hlowerId]
      · obtain rfl : named = first := by
          refine List.inj_on_of_nodup_map hdistinct hnamed (List.mem_of_mem_tail hfirst) ?_
          rw [hnamedId, ← hakin.id, hmoved]
        simpa only [Frame.Placed, hakin.group] using hnamedPlaced
    · rw [if_neg hmoved]
      exact placed_of_outline houtline (hplaced first (List.mem_of_mem_tail hfirst))
  · intro f below hf
    have hstems := (SameStems.of_shape hafter).trans (.moveTo c.frame c.node after)
    rcases hstems.suffix hf with ⟨first, under, hsuffix, hstem, hbelow⟩
    have hcontinuation := (Frame.akin_of_stem hstem).continuation
    exact (horderly.nearby first under hsuffix).congr (by rw [hcontinuation]) hbelow

end Frames

/-- A step keeps a stack orderly, whatever it does to it. -/
theorem Restacked.orderly (h : Restacked story p q) (hp : p.Ordered)
    (ho : Frames.Orderly story p.frames) : Frames.Orderly story q.frames := by
  cases h with
  | dropped hfs hsuffix _ => exact (ho.congr hfs).suffix hsuffix
  | @advanced fs below f _ hfs hsuffix _ hq _ =>
      have hstem : f.advanced.stem = f.stem := rfl
      exact (((ho.congr hfs).suffix hsuffix).moved hstem).congr hq
  | ended hremoved hq _ => exact (ho.under (hremoved.suffix hp.nodup)).1.congr hq
  | @returned g others _ _ hremoved _ hc hafter hq _ =>
      have hsuffix := hremoved.suffix hp.nodup
      have hdistinct : (others.map Frame.id).Nodup :=
        hp.nodup.sublist (((List.suffix_cons g others).trans hsuffix).sublist.map Frame.id)
      rw [hq]
      exact (ho.suffix hsuffix).returned hdistinct hc hafter
  | @entered fs below f f' _ _ _ _ hfs hsuffix hnode hf _ hq _ =>
      have hstack := (ho.congr hfs).suffix hsuffix
      have hplaced : f'.Placed story := by
        rcases hf with rfl | rfl
        · exact Frame.Placed.at_current hnode
        · exact Frame.Placed.of_current hnode
      have hstem : f'.stem = f.stem := by rcases hf with rfl | rfl <;> rfl
      rw [hq]
      refine (hstack.moved hstem).push ?_ (fun c hc => nomatch hc)
      exact List.forall_mem_cons.2 ⟨hplaced, hstack.placed⟩
  | @called f below _ _ _ _ _ hfs hnode _ hq _ =>
      have hstack := ho.congr hfs
      rw [hq]
      refine hstack.push (List.forall_mem_cons.2 ⟨Frame.Placed.at_current hnode, hstack.placed⟩) ?_
      intro c hc
      obtain rfl := Option.some.inj hc
      exact Or.inl ⟨f, rfl, rfl⟩
  | @replaced fs below after root _ _ _ _ hfs hsuffix _ hafter hplace _ hq _ =>
      rcases (ho.congr hfs).under hsuffix with ⟨hbelow, hplaced⟩
      have hnearby := (ho.congr hfs).nearby root below hsuffix
      rw [hq]
      refine (hbelow.congr hafter).push (fun g hg => ?_)
        (hnearby.congr hplace (.of_shape hafter))
      -- Writing back changes values only, so the frames below are placed as they were.
      have hmem : g.outline ∈ below.map Frame.outline := hafter ▸ List.mem_map_of_mem hg
      rcases List.mem_map.1 hmem with ⟨f, hf, heq⟩
      exact placed_of_outline heq.symm (hplaced f hf)

/-! ## Runs -/

/-- What is known of a state of a story that goes on from a save. -/
structure Player.Resumed (story : Story) (p : Player) : Prop where
  ordered : p.Ordered
  standing : Frames.Standing p.frames
  pending : ∀ c ∈ p.pending, ∃ f below, p.frames = f :: below ∧ c.OfferedAt story f
  typed : p.Typed
  once : ∀ entry ∈ p.once, Dict.contains story.scripts entry.1 = true

/-- Marking only adds scripts of the story. -/
theorem Once.Marked.scripts {once once' : Once} (h : once.Marked story once')
    (hscripts : ∀ entry ∈ once, Dict.contains story.scripts entry.1 = true) :
    ∀ entry ∈ once', Dict.contains story.scripts entry.1 = true := by
  rcases h with rfl | ⟨script, key, hscript, rfl⟩
  · exact hscripts
  · intro entry hentry
    rcases Dict.mem_of_mem_insert hentry with rfl | hold
    · exact hscript
    · exact hscripts entry hold

/-- What is known of a resumed story is kept by a step, provided that the numbers last. -/
theorem Step.resumed {progress : Progress} (h : Step story p progress q) (hproper : story.Proper)
    (hp : p.Resumed story) (hpending : p.pending = none) (hcounter : p.counter ≤ q.counter) :
    q.Resumed story where
  ordered := h.restacked.renumbered.ordered hp.ordered hcounter
  standing := h.restacked.standing hp.ordered hp.standing
  pending := fun _ hc => h.offeredAt hpending hc
  typed := h.typed hproper hp.typed
  once := h.marked.scripts hp.once

/-- It is kept by an answer. -/
theorem Answer.resumed {index : Nat} (h : Answer story p index q) (hp : p.Resumed story)
    (hcounter : p.counter ≤ q.counter) : q.Resumed story where
  ordered := h.restacked.renumbered.ordered hp.ordered hcounter
  standing := h.restacked.standing hp.ordered hp.standing
  pending := by
    intro c hc
    cases h
    cases hc
  typed := h.typed hp.typed
  once := h.marked.scripts hp.once

def Snapshot.ReturnsNearby (story : Story) (s : Snapshot) : Prop :=
  ∀ f below, f :: below <:+ s.frames.reverse → f.ReturnsNearby story below

/-- It is known of every accepted save whose greatest number is not the last one. -/
theorem Snapshot.Accepted.resumed {s : Snapshot} (h : s.Accepted story)
    (hfirst : (Snapshot.greatestFrame s.frames).toNat + 1 < 2 ^ 64) :
    s.restored.Resumed story := by
  refine ⟨(ordered_restored h hfirst).1, ⟨fun f hf => ?_, h.returns⟩, fun c hc => ?_, fun f hf => ?_,
    fun entry hentry => ?_⟩
  · rcases h.bottom with ⟨first, hhead, hroot⟩
    rw [show s.restored.frames = s.frames.reverse from rfl, List.getLast?_reverse] at hf
    obtain rfl : first = f := Option.some.inj (hhead.symm.trans hf)
    exact hroot
  · rcases h.choice with ⟨f, hlast, hoffers⟩
    obtain rfl := Option.some.inj hc
    cases hframes : s.frames.reverse with
    | nil => simp [List.reverse_eq_nil_iff.1 hframes] at hlast
    | cons top below =>
        rw [← List.head?_reverse, hframes] at hlast
        obtain rfl : top = f := Option.some.inj hlast
        have htop : s.frames.getLast? = some top := by rw [← List.head?_reverse, hframes]; rfl
        refine ⟨top, below, hframes, ?_, hoffers, h.items, h.numbered⟩
        simp [htop]
  · exact h.typed f (List.mem_reverse.1 hf)
  · rcases List.mem_map.1 hentry with ⟨first, hfirst, rfl⟩
    exact h.once first hfirst

/-- If its scripts return nearby, the stack of an accepted save is orderly. -/
theorem Snapshot.Accepted.orderly {s : Snapshot} (h : s.Accepted story)
    (hnearby : s.ReturnsNearby story) : Frames.Orderly story s.restored.frames :=
  ⟨fun f hf => h.placed f (List.mem_reverse.1 (List.mem_of_mem_tail hf)), hnearby⟩

/-- The next save can be restored exactly if no frame stands outside of its group. -/
theorem accepted_saveOf_iff {other : Story} {c : Pending} (hp : p.Resumed story)
    (hpending : p.pending = some c) (hdistinct : (c.items.map ChoiceItem.id).Nodup)
    (hscripts : other.scripts = story.scripts) (hversion : other.version = story.version) :
    (p.saveOf story c).Accepted other ↔ ∀ f ∈ p.frames, f.Placed story := by
  rcases story with ⟨scripts, globals, version, seed, host⟩
  rcases other with ⟨_, globals', _, seed', host'⟩
  cases hscripts
  cases hversion
  constructor
  · exact fun h f hf => h.placed f (List.mem_reverse.2 hf)
  · intro hplaced
    rcases hp.pending c hpending with ⟨f, below, hframes, hoffered⟩
    have hreverse : p.frames.reverse.reverse = p.frames := List.reverse_reverse _
    have hbottom : ∃ first ∈ p.frames.reverse.head?, first.root = true := by
      cases hlast : p.frames.getLast? with
      | none => simp [hframes] at hlast
      | some first =>
          exact ⟨first, by rw [List.head?_reverse]; exact hlast, hp.standing.bottom first hlast⟩
    have hchoice : p.frames.reverse.getLast? = some f := by rw [List.getLast?_reverse, hframes]; rfl
    refine ⟨rfl, rfl, rfl, hoffered.items, hoffered.numbered, hdistinct, hbottom,
      hreverse.symm ▸ hp.ordered.increasing, fun g hg => hplaced g (List.mem_reverse.1 hg),
      fun g hg => hp.typed g (List.mem_reverse.1 hg), hreverse.symm ▸ hp.standing.returns,
      ⟨f, hchoice, hoffered.node⟩, fun entry hentry => ?_⟩
    exact hp.once entry (List.mem_of_mem_filter hentry)

/-- A story that goes on from any save that is accepted can be saved whenever a choice waits.  Whoever
plays the same scripts accepts the new save exactly if no frame stands outside of its group.  This is
so if every script of the first save returns to the frame directly below it, or to a node of the group
of the frame that it names; the check tests neither. -/
theorem resave_iff {s : Snapshot} {requests : List Request} {c : Pending} (hproper : story.Proper)
    (hcheck : s.check story = .ok ())
    (hfirst : (Snapshot.greatestFrame s.frames).toNat + 1 < 2 ^ 64)
    (hlasts : CounterLasts story s.restored requests)
    (hpending : (s.restored.play story requests).pending = some c)
    (hdistinct : (c.items.map ChoiceItem.id).Nodup) :
    ∃ save, (s.restored.play story requests).snapshot story = .ok save ∧
      (∀ (other : Story) (before : Player), other.scripts = story.scripts →
        other.version = story.version →
        ((before.resume other save).1 = .ok () ↔
          ∀ f ∈ (s.restored.play story requests).frames, f.Placed story)) ∧
      (s.ReturnsNearby story →
        ∀ f ∈ (s.restored.play story requests).frames, f.Placed story) := by
  have haccepted := Snapshot.check_iff.1 hcheck
  -- Everything but the places of the frames holds in each state that is reached.
  have hrun : (s.restored.play story requests).Resumed story ∧
      (s.ReturnsNearby story →
        Frames.Orderly story (s.restored.play story requests).frames) := by
    refine play_lasting (I := fun q => q.Resumed story ∧
      (s.ReturnsNearby story → Frames.Orderly story q.frames)) requests
      ⟨haccepted.resumed hfirst, haccepted.orderly⟩ hlasts ?_ ?_
    · rintro p progress q ⟨hp, horderly⟩ hnone hdispatch hcounter
      have hstep := step_of_dispatch hdispatch
      exact ⟨hstep.resumed hproper hp hnone hcounter,
        fun hnearby => hstep.restacked.orderly hp.ordered (horderly hnearby)⟩
    · rintro p index q ⟨hp, horderly⟩ hanswer hcounter
      exact ⟨hanswer.resumed hp hcounter,
        fun hnearby => hanswer.restacked.orderly hp.ordered (horderly hnearby)⟩
  rcases hrun with ⟨hp, horderly⟩
  refine ⟨_, snapshot_pending hpending, ?_, fun hnearby => ?_⟩
  · intro other before hscripts hversion
    rw [← accepted_saveOf_iff hp hpending hdistinct hscripts hversion, ← Snapshot.check_iff]
    unfold Player.resume
    cases hsave : ((s.restored.play story requests).saveOf story c).check other with
    | ok _ => simp
    | error fault => simp
  · -- The innermost frame stands at the choice.
    rcases hp.pending c hpending with ⟨f, below, hframes, hoffered⟩
    rcases hoffered.node with ⟨_, _, hnode, -⟩
    have hplaced := (horderly hnearby).placed
    rw [hframes] at hplaced ⊢
    exact List.forall_mem_cons.2 ⟨Frame.Placed.at_current hnode, hplaced⟩

/-! ## An example -/

/-- A choice whose only option leads nowhere. -/
def crossTale : Story :=
  .ofScripts [
    ("main", .ofGroups "main" [] [
      ("main", [.choice "c" none [⟨"o", "go on", none, false, false, "main.o"⟩]]),
      ("main.o", [])])]

def crossTale.frame (id : UInt64) (continuation : Option Continuation) : Frame where
  id := id
  group := "main"
  node := 0
  scope := []
  types := []
  completion := .none
  root := true
  continuation := continuation

/-- Three calls of the script; the last one returns past the second one to the first one. -/
def crossTale.saveTo (node : Nat) : Snapshot where
  schema := Snapshot.currentSchema
  version := crossTale.version
  cursor := ⟨["main", "main", "main"], 0⟩
  frames := [crossTale.frame 1 none, crossTale.frame 2 (some ⟨1, 1, []⟩),
    crossTale.frame 3 (some ⟨1, node, []⟩)]
  scopes := []
  continuations := []
  rng := 1
  waiting := true
  choice := "c"
  items := [⟨0, "o", "go on"⟩]
  prompt := none
  once := []

/-- If it returns to a place of its group, the story is saved and restored again. -/
theorem resave_iff_crossTale :
    let s := crossTale.saveTo 1
    (s.restored.play crossTale [.choose 0, .next]).frames.map (fun f => (f.id, f.node)) =
        [(2, 0), (1, 1)] ∧
      ∃ save, (s.restored.play crossTale [.choose 0, .next]).snapshot crossTale = .ok save ∧
        ((Player.fresh 5).resume crossTale save).1 = .ok () := by
  intro s
  have hproper : crossTale.Proper := by
    intro entry hentry param hparam
    rcases List.mem_singleton.1 hentry with rfl
    cases hparam
  have hcheck : s.check crossTale = .ok () := by decide +kernel
  have hlasts : CounterLasts crossTale s.restored [.choose 0, .next] :=
    counterLasts_of_length _ (by decide +kernel)
  have hpending : (s.restored.play crossTale [.choose 0, .next]).pending =
      some ⟨2, "c", [⟨0, "o", "go on"⟩], none⟩ := by decide +kernel
  have hplaces : (s.restored.play crossTale [.choose 0, .next]).frames.map
      (fun f => (f.group, f.node)) = [("main", 0), ("main", 1)] := by decide +kernel
  rcases resave_iff hproper hcheck (by decide +kernel) hlasts hpending (by simp) with
    ⟨save, hsave, hiff, -⟩
  refine ⟨by decide +kernel, save, hsave, (hiff crossTale _ rfl rfl).2 fun f hf => ?_⟩
  have hplace : (f.group, f.node) ∈ [("main", 0), ("main", 1)] := hplaces ▸ List.mem_map_of_mem hf
  obtain ⟨hgroup, hnode⟩ : f.group = "main" ∧ f.node ≤ 1 := by
    rcases List.mem_pair.1 hplace with h | h
    · exact ⟨congrArg Prod.fst h, by rw [show f.node = 0 from congrArg Prod.snd h]; decide⟩
    · exact ⟨congrArg Prod.fst h, by rw [show f.node = 1 from congrArg Prod.snd h]⟩
  exact ⟨"main", ⟨"main", none, [.choice "c" none
    [⟨"o", "go on", none, false, false, "main.o"⟩]]⟩, by rw [hgroup]; rfl, hnode⟩

/-- If it returns to a place that its group does not have, the save is accepted; the next save, which
the story makes itself, is not. -/
theorem crossTale_locked_out :
    let s := crossTale.saveTo 999
    ((Player.fresh 5).resume crossTale s).1 = .ok () ∧
      (s.restored.play crossTale [.choose 0, .next]).pending =
        some ⟨2, "c", [⟨0, "o", "go on"⟩], none⟩ ∧
      ∃ save, (s.restored.play crossTale [.choose 0, .next]).snapshot crossTale = .ok save ∧
        ((Player.fresh 5).resume crossTale save).1 = .error (.snapshotCursor 1 999 "main") := by
  intro s
  have hpending : (s.restored.play crossTale [.choose 0, .next]).pending =
      some ⟨2, "c", [⟨0, "o", "go on"⟩], none⟩ := by decide +kernel
  exact ⟨by decide +kernel, hpending, _, snapshot_pending hpending, by decide +kernel⟩

end StoryPlayer
