import Mathlib.Data.List.Chain
import StoryPlayer.Proofs.Effect

/-!
# The shape of the stack

- `Story.nodeAt?` is the node at a place of a group,
- `Above` says how a frame came to stand above another one: a script was called from there, the body
  of a loop was entered, or a branch or a chosen option,
- `Frames.Stacked` says what a stack of frames always looks like.

The lemmas about `Frames.Stacked` are those for the operations on stacks: values of variables
change, frames are dropped from the top, the innermost frame moves on, a frame is pushed.
-/

namespace StoryPlayer

/-! ## Places -/

def Story.nodeAt? (story : Story) (group : String) (index : Nat) : Option Node :=
  match story.group group with
  | .ok (_, found) => found.nodes[index]?
  | .error _ => none

def Frame.current? (story : Story) (f : Frame) : Option Node :=
  story.nodeAt? f.group f.node

def Node.branches : Node → List String
  | .branch _ _ yes no => yes :: no.toList
  | .choice _ _ options => options.map ChoiceOption.group
  | _ => []

/-- The frame stands at a node of its group, or after the last one. -/
def Frame.Placed (story : Story) (f : Frame) : Prop :=
  ∃ script group, story.group f.group = .ok (script, group) ∧ f.node ≤ group.nodes.length

/-- How the frame `upper` came to stand above the frame `lower`. -/
inductive Above (story : Story) (upper lower : Frame) : Prop
  /-- A script was called; it returns behind the call. -/
  | called {c : Continuation} {id target : String} {arguments : List Argument} :
      upper.root = true → upper.continuation = some c → c.frame = lower.id →
      c.node = lower.node + 1 → lower.current? story = some (.call id target arguments) →
      Above story upper lower
  /-- The body of a loop was entered; the loop is tested again after it. -/
  | looping {id source : String} :
      upper.root = false → upper.continuation = none → upper.completion = .whileBody →
      lower.current? story = some (.loop id source upper.group) →
      Above story upper lower
  /-- A branch was entered; the frame below has moved on already. -/
  | nested {index : Nat} {node : Node} :
      upper.root = false → upper.continuation = none → upper.completion = .resumeAfterChild →
      lower.node = index + 1 → story.nodeAt? lower.group index = some node →
      upper.group ∈ node.branches →
      Above story upper lower

/-- A stack of frames, the innermost first, as it is while a story is played. -/
structure Frames.Stacked (story : Story) (counter : UInt64) (frames : List Frame) : Prop where
  /-- Numbers increase towards the innermost frame. -/
  increasing : frames.Pairwise fun upper lower => lower.id < upper.id
  numbered : ∀ f ∈ frames, f.id < counter
  /-- The lowest frame is that of a script without a caller. -/
  bottom : ∀ f ∈ frames.getLast?, f.root = true ∧ f.continuation = none
  linked : frames.IsChain (Above story)
  placed : ∀ f ∈ frames, f.Placed story

section Places

variable {story : Story} {f g upper lower : Frame}

/-- The node at a place of a group that is there. -/
theorem nodeAt?_of_group {group : String} {index : Nat} {found : String × Group}
    (h : story.group group = .ok found) : story.nodeAt? group index = found.2.nodes[index]? := by
  simp only [Story.nodeAt?, h]

/-- A frame stands at a node only if its group is there and has one at this place. -/
theorem Frame.current?_eq_some {node : Node} (h : f.current? story = some node) :
    ∃ found, story.group f.group = .ok found ∧ found.2.nodes[f.node]? = some node := by
  unfold Frame.current? Story.nodeAt? at h
  split at h
  · next script group hgroup => exact ⟨(script, group), hgroup, h⟩
  · cases h

/-- Behind a node there is a place to stand. -/
theorem Frame.Placed.of_current {node : Node} (h : f.current? story = some node) :
    f.advanced.Placed story := by
  rcases Frame.current?_eq_some h with ⟨found, hgroup, hnode⟩
  have hlt : f.node < found.2.nodes.length := (List.getElem?_eq_some_iff.1 hnode).1
  exact ⟨found.1, found.2, hgroup, hlt⟩

/-- Every group that exists can be entered at its first node. -/
theorem Frame.placed_at_start {found : String × Group} (hgroup : story.group f.group = .ok found)
    (hnode : f.node = 0) : f.Placed story :=
  ⟨found.1, found.2, hgroup, by omega⟩

/-- The script of the frame above may be replaced by another one that returns to the same place. -/
theorem Above.replaced {c d : Continuation} (h : Above story upper lower)
    (hc : upper.continuation = some c) (hroot : g.root = true) (hd : g.continuation = some d)
    (hframe : d.frame = c.frame) (hnode : d.node = c.node) : Above story g lower := by
  cases h with
  | called _ hc' hid hat hcall =>
      obtain rfl : _ = c := Option.some.inj (hc'.symm.trans hc)
      exact Above.called hroot hd (hframe.trans hid) (hnode.trans hat) hcall
  | looping _ hnone _ _ => simp [hc] at hnone
  | nested _ hnone _ _ _ _ => simp [hc] at hnone

end Places

/-! ## Outlines -/

def Frame.outline (f : Frame) : Frame :=
  { f with scope := [], types := [] }

theorem Frame.Revalued.outline {f g : Frame} (h : f.Revalued g) : g.outline = f.outline := by
  rw [h.same]
  rfl

/-- New values keep the outlines. -/
theorem Frames.Revalued.outlines {fs gs : List Frame} (h : Revalued fs gs) :
    gs.map Frame.outline = fs.map Frame.outline := by
  unfold Revalued at h
  induction h with
  | nil => rfl
  | cons hhead _ ih => rw [List.map_cons, List.map_cons, hhead.outline, ih]

/-- How frames stand above each other does not depend on variables. -/
theorem above_outline {story : Story} {upper lower : Frame} :
    Above story upper.outline lower.outline ↔ Above story upper lower := by
  constructor
  · intro h
    cases h with
    | called hroot hc hid hat hcall => exact Above.called hroot hc hid hat hcall
    | looping hroot hc hbody hloop => exact Above.looping hroot hc hbody hloop
    | nested hroot hc hchild hat hnode hin => exact Above.nested hroot hc hchild hat hnode hin
  · intro h
    cases h with
    | called hroot hc hid hat hcall => exact Above.called hroot hc hid hat hcall
    | looping hroot hc hbody hloop => exact Above.looping hroot hc hbody hloop
    | nested hroot hc hchild hat hnode hin => exact Above.nested hroot hc hchild hat hnode hin

namespace Frames

variable {story : Story} {counter : UInt64} {fs gs : List Frame}

/-- The shape of a stack does not depend on variables. -/
theorem stacked_outlines :
    Stacked story counter (fs.map Frame.outline) ↔ Stacked story counter fs := by
  -- None of the clauses looks at a value, and only values are missing from outlines.
  have hincreasing : (fs.map Frame.outline).Pairwise (fun upper lower => lower.id < upper.id) ↔
      fs.Pairwise fun upper lower => lower.id < upper.id := List.pairwise_map
  have hlinked : (fs.map Frame.outline).IsChain (Above story) ↔ fs.IsChain (Above story) := by
    rw [List.isChain_map]
    simp only [above_outline]
  constructor
  · intro h
    refine ⟨hincreasing.1 h.increasing, ?_, ?_, hlinked.1 h.linked, ?_⟩
    · exact fun f hf => h.numbered f.outline (List.mem_map_of_mem hf)
    · intro f hf
      exact h.bottom f.outline (by simp [List.getLast?_map, Option.mem_def.1 hf])
    · exact fun f hf => h.placed f.outline (List.mem_map_of_mem hf)
  · intro h
    refine ⟨hincreasing.2 h.increasing, ?_, ?_, hlinked.2 h.linked, ?_⟩
    · intro f hf
      rcases List.mem_map.1 hf with ⟨g, hg, rfl⟩
      exact h.numbered g hg
    · intro f hf
      rw [List.getLast?_map] at hf
      rcases Option.map_eq_some_iff.1 hf with ⟨g, hg, rfl⟩
      exact h.bottom g hg
    · intro f hf
      rcases List.mem_map.1 hf with ⟨g, hg, rfl⟩
      exact h.placed g hg

/-- A number that does not run out increases. -/
theorem counter_lt (h : counter ≤ counter + 1) : counter < counter + 1 := by
  rw [UInt64.le_iff_toNat_le, UInt64.toNat_add] at h
  rw [UInt64.lt_iff_toNat_lt, UInt64.toNat_add]
  have hone : (1 : UInt64).toNat = 1 := rfl
  have hbound := counter.toNat_lt
  omega

/-! ## Looking for frames by number -/

/-- No frame is found under a number that none has. -/
theorem upTo?_eq_none {id : UInt64} (h : has fs id = false) : upTo? id fs = none := by
  induction fs with
  | nil => rfl
  | cons f below ih =>
      obtain ⟨hf, hbelow⟩ : f.id ≠ id ∧ has below id = false := by simpa [has] using h
      simp only [upTo?, ih hbelow, hf, if_false]

theorem takeOut?_eq_none {id : UInt64} (h : has fs id = false) : takeOut? id fs = none := by
  induction fs with
  | nil => rfl
  | cons f below ih =>
      obtain ⟨hf, hbelow⟩ : f.id ≠ id ∧ has below id = false := by simpa [has] using h
      simp only [takeOut?, ih hbelow, hf, if_false]

/-- Taking a frame out splits the stack into it and the others. -/
theorem takeOut?_perm {id : UInt64} {found : Frame} {others : List Frame}
    (h : takeOut? id fs = some (found, others)) : (found :: others).Perm fs := by
  induction fs generalizing found others with
  | nil => cases h
  | cons f below ih =>
      simp only [takeOut?] at h
      split at h
      · next hbelow =>
        cases h
        exact (List.Perm.swap _ _ _).trans ((ih hbelow).cons f)
      · split at h
        · cases h
          exact List.Perm.refl _
        · cases h

theorem takeOut?_mem {id : UInt64} {found : Frame} {others : List Frame}
    (h : takeOut? id fs = some (found, others)) : found ∈ fs :=
  (takeOut?_perm h).subset List.mem_cons_self

theorem takeOut?_subset {id : UInt64} {found : Frame} {others : List Frame}
    (h : takeOut? id fs = some (found, others)) : others ⊆ fs :=
  fun _ hg => (takeOut?_perm h).subset (List.mem_cons_of_mem found hg)

/-- The running script and what lies below it are the lower end of the stack. -/
theorem currentRoot?_suffix {root : Frame} {below : List Frame}
    (h : currentRoot? fs = some (root, below)) : root.root = true ∧ root :: below <:+ fs := by
  induction fs with
  | nil => cases h
  | cons f rest ih =>
      by_cases hroot : f.root = true
      · simp only [currentRoot?, hroot, if_true] at h
        cases h
        exact ⟨hroot, List.suffix_refl _⟩
      · simp only [currentRoot?, hroot] at h
        rcases ih h with ⟨his, hsuffix⟩
        exact ⟨his, hsuffix.trans (List.suffix_cons f rest)⟩

/-- What lies below the body of a loop is the lower end of the stack. -/
theorem belowLoop?_suffix {below : List Frame} (h : Act.belowLoop? fs = some below) :
    below <:+ fs := by
  induction fs with
  | nil => cases h
  | cons f rest ih =>
      simp only [Act.belowLoop?] at h
      split at h
      · cases h
        exact List.suffix_cons f _
      · split at h
        · cases h
        · exact (ih h).trans (List.suffix_cons f rest)

namespace Stacked

variable {f g : Frame} {below : List Frame}

/-- Variables do not matter for the order of a stack. -/
theorem congr (h : Stacked story counter fs) (hgs : gs.map Frame.outline = fs.map Frame.outline) :
    Stacked story counter gs :=
  stacked_outlines.1 (hgs ▸ stacked_outlines.2 h)

theorem revalued (h : Stacked story counter fs) (hgs : Revalued fs gs) :
    Stacked story counter gs :=
  h.congr hgs.outlines

/-! ## Operations on stacks -/

theorem nil : Stacked story counter [] :=
  ⟨List.Pairwise.nil, by simp, by simp, List.IsChain.nil, by simp⟩

/-- The lower end of a stack is a stack. -/
theorem suffix (h : Stacked story counter fs) (hgs : gs <:+ fs) : Stacked story counter gs := by
  refine ⟨h.increasing.sublist hgs.sublist, fun f hf => h.numbered f (hgs.subset hf), ?_,
    h.linked.suffix hgs, fun f hf => h.placed f (hgs.subset hf)⟩
  -- The lowest frame of a part that reaches to the bottom is the lowest frame of the whole.
  intro f hf
  rcases hgs with ⟨above, rfl⟩
  refine h.bottom f ?_
  rw [Option.mem_def] at hf ⊢
  simp [List.getLast?_append, hf]

theorem tail (h : Stacked story counter (f :: below)) : Stacked story counter below :=
  h.suffix (List.suffix_cons f below)

/-- Where the innermost frame stands does not matter to the frames below. -/
theorem moved (h : Stacked story counter (f :: below)) {node : Nat}
    (hplaced : Frame.Placed story { f with node }) :
    Stacked story counter ({ f with node } :: below) := by
  refine ⟨?_, ?_, ?_, ?_, ?_⟩
  · have hincreasing := List.pairwise_cons.1 h.increasing
    exact List.pairwise_cons.2 hincreasing
  · intro g hg
    rcases List.mem_cons.1 hg with rfl | hg
    · exact h.numbered f List.mem_cons_self
    · exact h.numbered g (List.mem_cons_of_mem _ hg)
  · intro g hg
    cases below with
    | nil =>
        obtain rfl : _ = g := Option.some.inj hg
        exact h.bottom f rfl
    | cons lower under => exact h.bottom g (by simpa using hg)
  · rw [List.isChain_cons]
    rcases List.isChain_cons.1 h.linked with ⟨hfirst, hrest⟩
    -- How the innermost frame came to stand there does not depend on its own cursor.
    refine ⟨fun lower hlower => ?_, hrest⟩
    cases hfirst lower hlower with
    | called hroot hc hid hat hcall => exact Above.called hroot hc hid hat hcall
    | looping hroot hc hbody hloop => exact Above.looping hroot hc hbody hloop
    | nested hroot hc hchild hat hnode hin => exact Above.nested hroot hc hchild hat hnode hin
  · intro g hg
    rcases List.mem_cons.1 hg with rfl | hg
    · exact hplaced
    · exact h.placed g (List.mem_cons_of_mem _ hg)

/-- The innermost frame may move on from its node. -/
theorem advanced (h : Stacked story counter (f :: below)) {node : Node}
    (hnode : f.current? story = some node) : Stacked story counter (f.advanced :: below) :=
  h.moved (Frame.Placed.of_current hnode)

/-- A frame may be pushed if it stands in the right way above the frame that was innermost. -/
theorem push (h : Stacked story counter fs) (hcounter : counter ≤ counter + 1)
    (hid : g.id = counter) (hplaced : g.Placed story)
    (hbottom : fs = [] → g.root = true ∧ g.continuation = none)
    (habove : ∀ f ∈ fs.head?, Above story g f) : Stacked story (counter + 1) (g :: fs) := by
  have hlt : counter < counter + 1 := counter_lt hcounter
  refine ⟨?_, ?_, ?_, ?_, ?_⟩
  · -- All numbers in use are below the counter, which is the new one.
    refine List.pairwise_cons.2 ⟨fun f hf => ?_, h.increasing⟩
    rw [hid]
    exact h.numbered f hf
  · intro f hf
    rcases List.mem_cons.1 hf with rfl | hf
    · rw [hid]
      exact hlt
    · exact UInt64.lt_trans (h.numbered f hf) hlt
  · intro f hf
    cases fs with
    | nil =>
        obtain rfl : g = f := Option.some.inj hf
        exact hbottom rfl
    | cons first rest => exact h.bottom f (by simpa using hf)
  · exact List.isChain_cons.2 ⟨habove, h.linked⟩
  · intro f hf
    rcases List.mem_cons.1 hf with rfl | hf
    · exact hplaced
    · exact h.placed f hf

/-- The lowest frame has no caller, and a script that has a caller is not the lowest frame. -/
theorem below_of_continuation {c : Continuation} (h : Stacked story counter (f :: below))
    (hc : f.continuation = some c) : ∃ lower under, below = lower :: under := by
  cases below with
  | cons lower under => exact ⟨lower, under, rfl⟩
  | nil =>
      have hnone := (h.bottom f rfl).2
      simp [hc] at hnone

/-- A script that returns to nobody is the lowest one. -/
theorem nil_of_no_continuation (h : Stacked story counter (f :: below)) (hroot : f.root = true)
    (hc : f.continuation = none) : below = [] := by
  cases below with
  | nil => rfl
  | cons lower under =>
      cases (List.isChain_cons_cons.1 h.linked).1 with
      | called _ hsome _ _ _ => simp [hc] at hsome
      | looping hroot' _ _ _ => simp [hroot] at hroot'
      | nested hroot' _ _ _ _ _ => simp [hroot] at hroot'

/-- A script returns behind the call at which the frame below it stands. -/
theorem caller {c : Continuation} {lower : Frame} {under : List Frame}
    (h : Stacked story counter (f :: lower :: under)) (hc : f.continuation = some c) :
    c.frame = lower.id ∧ c.node = lower.node + 1 ∧
      ∃ id target arguments, lower.current? story = some (.call id target arguments) := by
  cases (List.isChain_cons_cons.1 h.linked).1 with
  | called _ hc' hid hat hcall =>
      obtain rfl : _ = c := Option.some.inj (hc'.symm.trans hc)
      exact ⟨hid, hat, _, _, _, hcall⟩
  | looping _ hnone _ _ => simp [hc] at hnone
  | nested _ hnone _ _ _ _ => simp [hc] at hnone

/-! ## The innermost frame by its number -/

/-- No frame below has the number of the innermost one. -/
theorem not_has_below (h : Stacked story counter (f :: below)) : has below f.id = false := by
  simp only [has, List.any_eq_false, beq_iff_eq]
  intro lower hlower heq
  have hlt := (List.pairwise_cons.1 h.increasing).1 lower hlower
  rw [heq] at hlt
  exact UInt64.lt_irrefl _ hlt

theorem upTo?_top (h : Stacked story counter (f :: below)) :
    upTo? f.id (f :: below) = some (f, below) := by
  simp only [upTo?, upTo?_eq_none h.not_has_below, if_true]

/-- So the innermost frame is the one that is taken out under its number. -/
theorem takeOut?_top (h : Stacked story counter (f :: below)) :
    takeOut? f.id (f :: below) = some (f, below) := by
  simp only [takeOut?, takeOut?_eq_none h.not_has_below, if_true]

theorem moveTo_top (h : Stacked story counter (f :: below)) (node : Nat) :
    moveTo f.id node (f :: below) = { f with node } :: below := by
  simp [moveTo, h.not_has_below]

end Stacked
end Frames
end StoryPlayer
